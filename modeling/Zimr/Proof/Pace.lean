import Zimr.Proof.Cores

/-!
# Which sockets take a write, and which are armed

Only `zs_write` starts a write, it and a close take away that a socket takes one (`Zs.Free`), and only
`zs_set_read` and `zs_set_write` arm a socket. `Zs.Lapses` says so of a call that does none of that.
-/

namespace Zimr

variable {σ σ' σ₁ σ₂ : Zs} {fd i : ℕ} {zs q : Zsocket}

/-- The socket is `WRITABLE`, and no write is in progress. -/
def Zs.Free (σ : Zs) (fd : ℕ) : Prop :=
  ∃ zs, σ.zsockets fd = some zs ∧ zs.status.writable = true ∧ zs.status.writing = false

/-- A socket that is `WRITABLE` writes nothing, and one that is not connected does neither. -/
structure Zsocket.Paced (zs : Zsocket) : Prop where
  writable : zs.status.writable = true → zs.status.writing = false
  connected : zs.status.connected = false → zs.status.writable = false ∧ zs.status.writing = false

def Zs.Paced (σ : Zs) : Prop := ∀ fd zs, σ.zsockets fd = some zs → zs.Paced

def Zs.Armed (σ : Zs) (fd : ℕ) : Prop := σ.activeRead fd = true ∨ σ.activeWrite fd = true

/-- A write is in progress. -/
def Zs.Writing (σ : Zs) (fd : ℕ) : Prop := ∃ zs, σ.zsockets fd = some zs ∧ zs.status.writing = true

theorem Zs.Free.congr (h : σ.Free fd) (hz : σ'.zsockets = σ.zsockets) : σ'.Free fd := by
  unfold Zs.Free
  rw [hz]
  exact h

theorem Zs.Paced.congr (h : σ.Paced) (hz : σ'.zsockets = σ.zsockets) : σ'.Paced := by
  unfold Zs.Paced
  rw [hz]
  exact h

theorem Zs.Writing.congr (h : σ'.Writing fd) (hz : σ'.zsockets = σ.zsockets) : σ.Writing fd := by
  unfold Zs.Writing at h
  rw [hz] at h
  exact h

/-- A socket keeps what it takes, or is gone. -/
structure Zs.Lapses (σ σ' : Zs) : Prop where
  free : ∀ i, σ.Free i → σ'.Free i ∨ σ'.zsockets i = none
  paced : σ.Paced → σ'.Paced
  armed : ∀ i, σ'.Armed i → σ.Armed i
  calm : ∀ i, σ'.Writing i → σ.Writing i
  gone : ∀ i, σ.zsockets i = none → σ'.zsockets i = none

theorem Zs.Lapses.refl (σ : Zs) : σ.Lapses σ :=
  ⟨fun _ h => .inl h, id, fun _ h => h, fun _ h => h, fun _ h => h⟩

theorem Zs.Lapses.trans (h₁ : σ.Lapses σ₁) (h₂ : σ₁.Lapses σ₂) : σ.Lapses σ₂ := by
  refine ⟨fun i hi => ?_, h₂.paced ∘ h₁.paced, fun i hi => h₁.armed i (h₂.armed i hi),
    fun i hi => h₁.calm i (h₂.calm i hi), fun i hi => h₂.gone i (h₁.gone i hi)⟩
  obtain hf | hn := h₁.free i hi
  · exact h₂.free i hf
  · exact .inr (h₂.gone i hn)

theorem Zs.Lapses.of_eq (hz : σ'.zsockets = σ.zsockets) (hr : σ'.activeRead = σ.activeRead)
    (hw : σ'.activeWrite = σ.activeWrite) : σ.Lapses σ' := by
  refine ⟨fun i hi => .inl (hi.congr hz), fun h => h.congr hz, fun i hi => ?_, fun i hi => hi.congr hz,
    fun i hi => ?_⟩
  · unfold Zs.Armed at hi ⊢
    rw [hr, hw] at hi
    exact hi
  · rw [hz]
    exact hi

/-- One record is written, in a state with the same sockets and the same interest. -/
theorem Zs.Lapses.set (hz : σ.zsockets fd = some zs) (h₁ : σ₁.zsockets = σ.zsockets)
    (hr : σ₁.activeRead = σ.activeRead) (hw : σ₁.activeWrite = σ.activeWrite)
    (hfree : zs.status.writable = true → zs.status.writing = false →
      q.status.writable = true ∧ q.status.writing = false)
    (hpaced : zs.Paced → q.Paced) (hcalm : q.status.writing = true → zs.status.writing = true) :
    σ.Lapses (σ₁.set fd q) := by
  have hother : ∀ i, i ≠ fd → (σ₁.set fd q).zsockets i = σ.zsockets i := fun i hi => by
    show Function.update σ₁.zsockets fd (some q) i = _
    rw [Function.update_of_ne hi, h₁]
  have hself : (σ₁.set fd q).zsockets fd = some q := Function.update_self _ _ _
  refine ⟨fun i hi => .inl ?_, fun h i z hi => ?_, fun i hi => ?_, fun i hi => ?_, fun i hi => ?_⟩
  · by_cases he : i = fd
    · subst he
      obtain ⟨z, hz', hwr, hwg⟩ := hi
      obtain rfl := Option.some.inj (hz.symm.trans hz')
      exact ⟨q, hself, hfree hwr hwg⟩
    · unfold Zs.Free
      rw [hother i he]
      exact hi
  · by_cases he : i = fd
    · rw [he, hself] at hi
      cases hi
      exact hpaced (h fd zs hz)
    · rw [hother i he] at hi
      exact h i z hi
  · unfold Zs.Armed at hi ⊢
    rw [← hr, ← hw]
    exact hi
  · obtain ⟨z, hz', hwg⟩ := hi
    by_cases he : i = fd
    · subst he
      rw [hself] at hz'
      cases hz'
      exact ⟨zs, hz, hcalm hwg⟩
    · rw [hother i he] at hz'
      exact ⟨z, hz', hwg⟩
  · have he : i ≠ fd := by
      rintro rfl
      rw [hz] at hi
      cases hi
    rw [hother i he]
    exact hi

/-- A record that takes a write as before. -/
theorem Zs.Lapses.keep (hz : σ.zsockets fd = some zs) (h₁ : σ₁.zsockets = σ.zsockets)
    (hr : σ₁.activeRead = σ.activeRead) (hw : σ₁.activeWrite = σ.activeWrite)
    (hwritable : q.status.writable = zs.status.writable) (hwriting : q.status.writing = zs.status.writing)
    (hcon : q.status.connected = zs.status.connected) : σ.Lapses (σ₁.set fd q) := by
  refine .set hz h₁ hr hw (fun h₂ h₃ => ⟨hwritable.trans h₂, hwriting.trans h₃⟩)
    (fun hp => ⟨fun h => ?_, fun h => ?_⟩) fun h => hwriting.symm.trans h
  · rw [hwriting]
    exact hp.writable (hwritable.symm.trans h)
  · rw [hwritable, hwriting]
    exact hp.connected (hcon.symm.trans h)

theorem Zs.Lapses.same (hz : σ.zsockets fd = some zs) (h₁ : σ₁.zsockets = σ.zsockets)
    (hr : σ₁.activeRead = σ.activeRead) (hw : σ₁.activeWrite = σ.activeWrite) (hs : zs.Same q) :
    σ.Lapses (σ₁.set fd q) :=
  .keep hz h₁ hr hw hs.writable hs.writing hs.connected

/-! ## The interest -/

theorem zsUpdateFdState_lapses (hc : zsUpdateFdState σ fd = .ok σ') : σ.Lapses σ' := by
  obtain ⟨z, rfl, -⟩ := zsUpdateFdState_eq hc
  exact .of_eq rfl rfl rfl

theorem zsSetRead_eq (hc : zsSetRead σ fd = .ok σ') : σ'.zsockets = σ.zsockets ∧
    σ'.activeRead = Function.update σ.activeRead fd true ∧ σ'.activeWrite = σ.activeWrite := by
  obtain ⟨zs, h₁, hc⟩ := zs_bind_ok hc
  obtain ⟨z, rfl, -⟩ := zsUpdateFdState_eq hc
  exact ⟨rfl, rfl, rfl⟩

theorem zsSetWrite_eq (hc : zsSetWrite σ fd = .ok σ') : σ'.zsockets = σ.zsockets ∧
    σ'.activeRead = σ.activeRead ∧ σ'.activeWrite = Function.update σ.activeWrite fd true := by
  obtain ⟨zs, h₁, hc⟩ := zs_bind_ok hc
  obtain ⟨z, rfl, -⟩ := zsUpdateFdState_eq hc
  exact ⟨rfl, rfl, rfl⟩

theorem armed_of_ne {b : Bool} (hr : σ'.activeRead = σ.activeRead ∨
      σ'.activeRead = Function.update σ.activeRead fd b)
    (hw : σ'.activeWrite = σ.activeWrite ∨ σ'.activeWrite = Function.update σ.activeWrite fd b)
    (hi : i ≠ fd) (h : σ'.Armed i) : σ.Armed i := by
  refine h.imp (fun h => ?_) fun h => ?_
  · obtain hr | hr := hr <;> rw [hr] at h
    · exact h
    · rwa [Function.update_of_ne hi] at h
  · obtain hw | hw := hw <;> rw [hw] at h
    · exact h
    · rwa [Function.update_of_ne hi] at h

theorem zsSetRead_armed (hc : zsSetRead σ fd = .ok σ') (hi : i ≠ fd) : σ'.Armed i → σ.Armed i :=
  armed_of_ne (.inr (zsSetRead_eq hc).2.1) (.inl (zsSetRead_eq hc).2.2) hi

theorem zsSetWrite_armed (hc : zsSetWrite σ fd = .ok σ') (hi : i ≠ fd) : σ'.Armed i → σ.Armed i :=
  armed_of_ne (.inl (zsSetWrite_eq hc).2.1) (.inr (zsSetWrite_eq hc).2.2) hi

theorem zsClrRead_lapses (hc : zsClrRead σ fd = .ok σ') : σ.Lapses σ' := by
  obtain ⟨hz, hr, hw⟩ := zsClrRead_eq hc
  refine ⟨fun i hi => .inl (hi.congr hz), fun h => h.congr hz, fun i hi => ?_, fun i hi => hi.congr hz,
    fun i hi => by rw [hz]; exact hi⟩
  by_cases he : i = fd
  · subst he
    refine .inr ?_
    obtain hi | hi := hi
    · rw [hr, Function.update_self] at hi
      cases hi
    · rwa [hw] at hi
  · exact armed_of_ne (.inr hr) (.inl hw) he hi

theorem zsClrWrite_lapses (hc : zsClrWrite σ fd = .ok σ') : σ.Lapses σ' := by
  obtain ⟨hz, hr, hw⟩ := zsClrWrite_eq hc
  refine ⟨fun i hi => .inl (hi.congr hz), fun h => h.congr hz, fun i hi => ?_, fun i hi => hi.congr hz,
    fun i hi => by rw [hz]; exact hi⟩
  by_cases he : i = fd
  · subst he
    refine .inl ?_
    obtain hi | hi := hi
    · rwa [hr] at hi
    · rw [hw, Function.update_self] at hi
      cases hi
  · exact armed_of_ne (.inl hr) (.inr hw) he hi

theorem cleared {σ₀ : Zs} (h₁ : zsClrRead σ₀ fd = .ok σ₁) (h₂ : zsClrWrite σ₁ fd = .ok σ₂) : ¬σ₂.Armed fd := by
  rintro (h | h)
  · rw [(zsClrWrite_eq h₂).2.1, (zsClrRead_eq h₁).2.1, Function.update_self] at h
    cases h
  · rw [(zsClrWrite_eq h₂).2.2, Function.update_self] at h
    cases h

theorem zsSetEventHdlr_lapses {h : EventHdlr} (hc : zsSetEventHdlr σ fd h = .ok σ') : σ.Lapses σ' := by
  obtain ⟨zs, hz, hc⟩ := zs_bind_ok hc
  cases hc
  exact .keep (assertSock_ok hz) rfl rfl rfl rfl rfl rfl

/-! ## Closing -/

theorem Zs.Lapses.drop (σ : Zs) (fd : ℕ) :
    σ.Lapses { σ with zsockets := Function.update σ.zsockets fd none } := by
  refine ⟨fun i hi => ?_, fun h i z hi => ?_, fun i hi => hi, fun i hi => ?_, fun i hi => ?_⟩
  · by_cases he : i = fd
    · exact .inr (by rw [he]; exact Function.update_self _ _ _)
    · left
      unfold Zs.Free
      simp only [Function.update_of_ne he]
      exact hi
  · by_cases he : i = fd
    · simp only [he, Function.update_self] at hi
      cases hi
    · simp only [Function.update_of_ne he] at hi
      exact h i z hi
  · obtain ⟨z, hz, hwg⟩ := hi
    by_cases he : i = fd
    · simp only [he, Function.update_self] at hz
      cases hz
    · simp only [Function.update_of_ne he] at hz
      exact ⟨z, hz, hwg⟩
  · by_cases he : i = fd
    · rw [he]
      exact Function.update_self _ _ _
    · exact (Function.update_of_ne he _ _).trans hi

theorem zsShut_lapses (hc : zsShut σ fd = .ok σ') : σ.Lapses σ' ∧ ¬σ'.Armed fd := by
  obtain ⟨σ₁, h₁, hc⟩ := zs_bind_ok hc
  obtain ⟨σ₂, h₂, hc⟩ := zs_bind_ok hc
  cases hc
  have hl : σ.Lapses σ₂ := (Zs.Lapses.of_eq (by rfl) (by rfl) (by rfl)).trans
    ((zsClrRead_lapses h₁).trans (zsClrWrite_lapses h₂))
  have hcl : ¬σ₂.Armed fd := cleared h₁ h₂
  exact ⟨hl.trans (.drop σ₂ fd), hcl⟩

/-- **`zs_close`.** A connection is not armed after it. -/
theorem zsClose_lapses {r : Except SockErrno ℕ} (hc : zsClose σ fd = .ok (σ', r)) :
    σ.Lapses σ' ∧ ∀ zs, σ.zsockets fd = some zs → zs.type = .connect → ¬σ'.Armed fd := by
  obtain ⟨hn, rfl, -⟩ | ⟨p, hz, -, hcases⟩ := zsClose_cases hc
  · refine ⟨.refl _, fun zs h => ?_⟩
    rw [hn] at h
    cases h
  have hty : p.type = .listen → ∀ zs, σ.zsockets fd = some zs → zs.type = .connect → ¬σ'.Armed fd := by
    intro ht zs h hcon
    obtain rfl := Option.some.inj (hz.symm.trans h)
    exact absurd (ht.symm.trans hcon) (by decide)
  have hset : σ.Lapses (σ.set fd { p with nOpen := p.nOpen - 1 }) :=
    .keep hz rfl rfl rfl rfl rfl rfl
  obtain ⟨ht, -, rfl⟩ | ⟨ht, -, h₂⟩ | ⟨-, hw, σ₁, σ₂, h₁, h₂, rfl⟩ | ⟨-, -, h₂⟩ := hcases
  · exact ⟨hset, hty ht⟩
  · exact ⟨hset.trans (zsShut_lapses h₂).1, hty ht⟩
  · have hz₂ : σ₂.zsockets fd = some p := by
      rw [(zsClrWrite_eq h₂).1, (zsClrRead_eq h₁).1]
      exact hz
    have hcl : ¬σ₂.Armed fd := cleared h₁ h₂
    refine ⟨((zsClrRead_lapses h₁).trans (zsClrWrite_lapses h₂)).trans ?_, fun _ _ _ => hcl⟩
    exact .keep hz₂ rfl rfl rfl rfl rfl rfl
  · exact ⟨(zsShut_lapses h₂).1, fun _ _ _ => (zsShut_lapses h₂).2⟩

/-! ## Reading and writing -/

theorem zsReader_lapses {r : RwRes} (hc : zsReader σ fd r = .ok σ') : σ.Lapses σ' := by
  obtain ⟨zs, q, hz, hs, -, rfl | rfl⟩ := zsReader_cases hc
  · exact .same hz rfl rfl rfl hs
  · exact .keep hz rfl rfl rfl hs.writable hs.writing hs.connected

theorem zsRefill_lapses {r : RwRes} (hc : zsRefill σ fd r = .ok σ') : σ.Lapses σ' := by
  obtain ⟨zs, h₁, hc⟩ := zs_bind_ok hc
  split at hc
  · obtain ⟨σ₁, h₂, hc⟩ := zs_bind_ok hc
    obtain ⟨z, h₃, hc⟩ := zs_bind_ok hc
    refine Zs.Lapses.trans ?_ (zsUpdateFdState_lapses hc)
    refine Zs.Lapses.trans (Zs.Lapses.trans ?_ (zsReader_lapses h₂)) ?_
    · exact .keep (get_ok h₁) rfl rfl rfl rfl rfl rfl
    · exact .keep (get_ok h₃) rfl rfl rfl rfl rfl rfl
  · cases hc
    exact .refl _

theorem zsRead_lapses {n : ℕ} {a : RwRes} {r : Except SockErrno (List UInt8)}
    (hc : zsRead σ fd n a = .ok (σ', r)) : σ.Lapses σ' := by
  obtain ⟨rfl, -⟩ | ⟨zs, q, hz, -, -, -, hs, -, hc⟩ := zsRead_cases hc
  · exact .refl _
  · exact (Zs.Lapses.same hz rfl rfl rfl hs).trans (zsRefill_lapses hc)

/-- **`zs_write`** takes the socket it writes to, and no other one. -/
theorem zsWrite_free {buf : List UInt8} {r : Except SockErrno ℕ} (hc : zsWrite σ fd buf = .ok (σ', r)) :
    (∀ i, i ≠ fd → σ.Free i → σ'.Free i) ∧ (σ.Paced → σ'.Paced) ∧ (∀ i, σ'.Armed i → σ.Armed i) ∧
      ∀ i, i ≠ fd → σ'.Writing i → σ.Writing i := by
  obtain ⟨zs, hz, ⟨rfl, -⟩ | ⟨-, -, hwr, -, q, -, hw, hc, hcases⟩⟩ := zsWrite_cases hc
  · exact ⟨fun _ _ h => h, id, fun _ h => h, fun _ _ h => h⟩
  obtain ⟨z, rfl, -⟩ := zsUpdateFdState_eq hc
  have hother : ∀ i, i ≠ fd → ((σ.countDown (σ.activeWrite fd && zs.status.writable)).set fd q).zsockets i =
      σ.zsockets i := fun i hi => Function.update_of_ne hi _ _
  refine ⟨fun i hi h => ?_, fun h i z₁ hi => ?_, fun i h => h, fun i hi h => ?_⟩
  · unfold Zs.Free
    simp only [hother i hi]
    exact h
  · by_cases he : i = fd
    · have hself : some q = some z₁ := by
        rw [← hi, he]
        exact (Function.update_self fd (some q) σ.zsockets).symm
      obtain rfl := Option.some.inj hself
      have hp := h fd zs hz
      have hcon : q.status.connected = true := by
        have : zs.status.connected = true := by
          by_contra hcon
          have := (hp.connected (Bool.eq_false_iff.2 hcon)).1
          rw [hwr] at this
          cases this
        obtain ⟨-, -, rfl⟩ | ⟨-, -, rfl⟩ := hcases
        · exact this
        · exact this
      refine ⟨fun h => ?_, fun h => ?_⟩
      · rw [hw] at h
        cases h
      · rw [hcon] at h
        cases h
    · exact h i z₁ ((hother i he).symm.trans hi)
  · obtain ⟨z₁, hz₁, hwg⟩ := h
    exact ⟨z₁, (hother i hi).symm.trans hz₁, hwg⟩

theorem zsWritten_lapses (hz : σ.zsockets fd = some zs) (hcon : q.status.connected = true)
    (hc : zsWritten σ fd q = .ok σ') : σ.Lapses σ' := by
  unfold zsWritten at hc
  have hset : σ.Lapses ((σ.countUp (σ.activeWrite fd && !q.status.writable)).set fd { q with
      write.buffer := none, status.writable := true, status.writing := false }) := by
    refine .set hz rfl rfl rfl (fun _ _ => ⟨rfl, rfl⟩) (fun _ => ⟨fun _ => rfl, fun h => ?_⟩) fun h => ?_
    · exact absurd (hcon.symm.trans h) (by decide)
    · cases h
  simp only at hc
  split at hc
  · obtain ⟨⟨σ₂, r⟩, h₂, hc⟩ := zs_bind_ok hc
    cases hc
    exact hset.trans (zsClose_lapses h₂).1
  · cases hc
    exact hset

theorem zsWriter_lapses {r : RwRes} (hz : σ.zsockets fd = some zs) (hcon : zs.status.connected = true)
    (hc : zsWriter σ fd r = .ok σ') : σ.Lapses σ' := by
  obtain ⟨z, q, hz', hs, rfl | ⟨-, -, hc⟩⟩ := zsWriter_cases hc
  · exact .same hz' rfl rfl rfl hs
  · obtain rfl := Option.some.inj (hz.symm.trans hz')
    exact zsWritten_lapses hz (hs.connected.trans hcon) hc

/-! ## The callbacks of `zfd_select` -/

theorem zsConnecter_lapses {r : RwRes} (hz : σ.zsockets fd = some zs) (hcon : zs.status.connected = false)
    (hc : zsConnecter σ fd r = .ok σ') : σ.Lapses σ' := by
  obtain ⟨z, h₁, hc⟩ := zs_bind_ok hc
  obtain rfl := Option.some.inj (hz.symm.trans (get_ok h₁))
  have hdone : ∀ q b, q.status.writable = true → q.status.writing = zs.status.writing →
      q.status.connected = true → σ.Lapses ((σ.countUp b).set fd q) := by
    intro q b hw hg hk
    refine .set hz rfl rfl rfl (fun _ h₂ => ⟨hw, hg.trans h₂⟩) (fun hp => ⟨fun _ => ?_, fun h => ?_⟩)
      fun h => hg.symm.trans h
    · rw [hg]
      exact (hp.connected hcon).2
    · exact absurd (hk.symm.trans h) (by decide)
  simp only at hc
  split at hc
  · cases r with
    | wantRead => cases hc; exact .keep hz rfl rfl rfl rfl rfl rfl
    | wantWrite => cases hc; exact .keep hz rfl rfl rfl rfl rfl rfl
    | fail k e => cases hc; exact hdone _ _ (by rfl) (by rfl) (by rfl)
    | bytes bs => cases hc; exact hdone _ _ (by rfl) (by rfl) (by rfl)
  · cases hc
    exact hdone _ _ (by rfl) (by rfl) (by rfl)

theorem zsAccepter_lapses (hz : σ.zsockets fd = some zs) (hcon : zs.status.connected = false)
    (hc : zsAccepter σ fd = .ok σ') : σ.Lapses σ' := by
  obtain ⟨zs₀, h₁, hc⟩ := zs_bind_ok hc
  split at hc
  · cases hc
  obtain ⟨p, hp, hc⟩ := zs_bind_ok hc
  obtain ⟨σ₁, h₂, hc⟩ := zs_bind_ok hc
  have hset : σ.Lapses ((σ.countUp (σ.activeRead zs₀.nOpen.toNat && !p.status.readable)).set zs₀.nOpen.toNat
      { p with status.readable := true, status.accepting := false }) :=
    .keep (get_ok hp) rfl rfl rfl rfl rfl rfl
  refine Zs.Lapses.trans ?_ (zsUpdateFdState_lapses hc)
  split at h₂
  · obtain ⟨z, h₃, h₂⟩ := zs_bind_ok h₂
    cases h₂
    have hz₃ := get_ok h₃
    -- the child is not connected yet
    have hcon₃ : z.status.connected = false := by
      have hz₃ : Function.update σ.zsockets zs₀.nOpen.toNat (some _) fd = some z := hz₃
      by_cases he : fd = zs₀.nOpen.toNat
      · rw [← he] at hp hz₃
        obtain rfl := Option.some.inj (hz.symm.trans (get_ok hp))
        rw [Function.update_self] at hz₃
        cases hz₃
        exact hcon
      · rw [Function.update_of_ne he, hz] at hz₃
        cases hz₃
        exact hcon
    refine hset.trans (.set hz₃ rfl rfl rfl (fun _ h₂ => ⟨rfl, h₂⟩) (fun hp => ⟨fun _ => ?_, fun h => ?_⟩)
      fun h => h)
    · exact (hp.connected hcon₃).2
    · cases h
  · cases h₂
    exact hset

theorem zsUnconnected_lapses {r : RwRes} (hz : σ.zsockets fd = some zs)
    (hw : q.status.writable = zs.status.writable) (hg : q.status.writing = zs.status.writing)
    (hk : q.status.connected = zs.status.connected) (hcon : zs.status.connected = false)
    (hc : zsUnconnected σ fd q r = .ok σ') : σ.Lapses σ' := by
  have hset : σ.Lapses (σ.set fd q) := .keep hz rfl rfl rfl hw hg hk
  have hself : (σ.set fd q).zsockets fd = some q := Function.update_self _ _ _
  unfold zsUnconnected at hc
  split at hc
  · exact hset.trans (zsConnecter_lapses hself (hk.trans hcon) hc)
  · exact hset.trans (zsAccepter_lapses hself (hk.trans hcon) hc)

theorem zsInternalWrite_lapses {r₁ r₂ : RwRes} (hc : zsInternalWrite σ fd r₁ r₂ = .ok σ') : σ.Lapses σ' := by
  obtain ⟨zs, h₁, hc⟩ := zs_bind_ok hc
  obtain ⟨hz, -⟩ := getConnect_ok h₁
  split at hc
  · rename_i hcon
    obtain ⟨σ₁, h₁, hc⟩ := zs_bind_ok hc
    have hw : σ.Lapses σ₁ := by
      split at h₁
      · have hset : σ.Lapses (σ.set fd { zs with status.wantWriteFromWrite := false }) :=
          .keep hz rfl rfl rfl rfl rfl rfl
        refine hset.trans (zsWriter_lapses (Function.update_self _ _ _) ?_ h₁)
        exact hcon
      · cases h₁
        exact .refl _
    split at hc
    · cases hc
      exact hw
    · rename_i z hz₁
      obtain ⟨σ₂, h₂, hc⟩ := zs_bind_ok hc
      refine (hw.trans ?_).trans (zsUpdateFdState_lapses hc)
      split at h₂
      · have hset : σ₁.Lapses (σ₁.set fd { z with status.wantWriteFromRead := false }) :=
          .keep hz₁ rfl rfl rfl rfl rfl rfl
        exact hset.trans (zsReader_lapses h₂)
      · cases h₂
        exact .refl _
  · rename_i hcon
    obtain ⟨σ₁, h₁, hc⟩ := zs_bind_ok hc
    refine Zs.Lapses.trans (zsUnconnected_lapses hz ?_ ?_ ?_ (by simpa using hcon) h₁)
      (zsUpdateFdState_lapses hc)
    · split <;> rfl
    · split <;> rfl
    · split <;> rfl

theorem zsInternalRead_lapses {r₁ r₂ : RwRes} (hc : zsInternalRead σ fd r₁ r₂ = .ok σ') : σ.Lapses σ' := by
  obtain ⟨zs, h₁, hc⟩ := zs_bind_ok hc
  obtain ⟨hz, -⟩ := getConnect_ok h₁
  split at hc
  · rename_i hcon
    obtain ⟨σ₁, h₁, hc⟩ := zs_bind_ok hc
    have hs := zs.startRead_same
    have hr : σ.Lapses σ₁ ∧ ∀ z, σ₁.zsockets fd = some z → z.status.connected = true := by
      split at h₁
      · have hset : σ.Lapses (σ.set fd { zs.startRead with status.wantReadFromRead := false }) :=
          .keep hz rfl rfl rfl hs.writable hs.writing hs.connected
        refine ⟨hset.trans (zsReader_lapses h₁), fun z hz₁ => ?_⟩
        obtain ⟨z₀, z', hz₀, hs', -, hσ⟩ := zsReader_cases h₁
        have hz₀ : some { zs.startRead with status.wantReadFromRead := false } = some z₀ :=
          (Function.update_self fd _ σ.zsockets).symm.trans hz₀
        cases hz₀
        obtain rfl | rfl := hσ
        · have hz₁ : some z' = some z := (Function.update_self fd _ _).symm.trans hz₁
          cases hz₁
          exact hs'.connected.trans (hs.connected.trans hcon)
        · have hz₁ : some { z' with status.readable := true, status.reading := false } = some z :=
            (Function.update_self fd _ _).symm.trans hz₁
          cases hz₁
          exact hs'.connected.trans (hs.connected.trans hcon)
      · cases h₁
        refine ⟨.same hz rfl rfl rfl hs, fun z hz₁ => ?_⟩
        have hz₁ : some zs.startRead = some z := (Function.update_self fd _ σ.zsockets).symm.trans hz₁
        cases hz₁
        exact hs.connected.trans hcon
    obtain ⟨z, h₂, hc⟩ := zs_bind_ok hc
    have hz₁ := get_ok h₂
    obtain ⟨σ₂, h₂, hc⟩ := zs_bind_ok hc
    have hw : σ₁.Lapses σ₂ := by
      split at h₂
      · have hset : σ₁.Lapses (σ₁.set fd { z with status.wantReadFromWrite := false }) :=
          .keep hz₁ rfl rfl rfl rfl rfl rfl
        refine hset.trans (zsWriter_lapses (Function.update_self _ _ _) ?_ h₂)
        exact hr.2 z hz₁
      · cases h₂
        exact .refl _
    split at hc
    · cases hc
      exact hr.1.trans hw
    · exact (hr.1.trans hw).trans (zsUpdateFdState_lapses hc)
  · rename_i hcon
    obtain ⟨σ₁, h₁, hc⟩ := zs_bind_ok hc
    refine Zs.Lapses.trans (zsUnconnected_lapses hz ?_ ?_ ?_ (by simpa using hcon) h₁)
      (zsUpdateFdState_lapses hc)
    · split <;> rfl
    · split <;> rfl
    · split <;> rfl

/-! ## New sockets -/

/-- The same, of a call that may open a socket. -/
structure Zs.Grows (σ σ' : Zs) : Prop where
  free : ∀ i, σ.Free i → σ'.Free i ∨ σ'.zsockets i = none
  paced : σ.Paced → σ'.Paced
  armed : ∀ i, σ'.Armed i → σ.Armed i
  calm : ∀ i, σ'.Writing i → σ.Writing i

theorem Zs.Lapses.grows (h : σ.Lapses σ') : σ.Grows σ' := ⟨h.free, h.paced, h.armed, h.calm⟩

theorem Zs.Grows.trans (h₁ : σ.Grows σ₁) (h₂ : σ₁.Lapses σ₂) : σ.Grows σ₂ := by
  refine ⟨fun i hi => ?_, h₂.paced ∘ h₁.paced, fun i hi => h₁.armed i (h₂.armed i hi),
    fun i hi => h₁.calm i (h₂.calm i hi)⟩
  obtain hf | hn := h₁.free i hi
  · exact h₂.free i hf
  · exact .inr (h₂.gone i hn)

theorem zsTypeInit_free {type : ZsType} {addr : ℕ} {portno : ℤ} {hdlr : EventHdlr} {ssl : Bool}
    (hc : zsTypeInit σ fd type addr portno hdlr ssl = .ok σ') :
    (∀ i, σ.Free i → σ'.Free i) ∧ (σ.Paced → σ'.Paced) ∧ (∀ i, σ'.Armed i → σ.Armed i) ∧
      ∀ i, σ'.Writing i → σ.Writing i := by
  obtain ⟨-, hnone, rfl⟩ := zsTypeInit_cases hc
  refine ⟨fun i hi => ?_, fun h i z hi => ?_, fun i hi => hi, fun i hi => ?_⟩
  · have he : i ≠ fd := by
      rintro rfl
      obtain ⟨z, hz, -⟩ := hi
      rw [hnone] at hz
      cases hz
    unfold Zs.Free
    rw [Zs.set_zsockets, Function.update_of_ne he]
    exact hi
  · rw [Zs.set_zsockets] at hi
    by_cases he : i = fd
    · rw [he, Function.update_self] at hi
      cases hi
      refine ⟨fun h => ?_, fun _ => ⟨rfl, rfl⟩⟩
      cases h
    · rw [Function.update_of_ne he] at hi
      exact h i z hi
  · obtain ⟨z, hz, hwg⟩ := hi
    rw [Zs.set_zsockets] at hz
    by_cases he : i = fd
    · rw [he, Function.update_self] at hz
      cases hz
      cases hwg
    · rw [Function.update_of_ne he] at hz
      exact ⟨z, hz, hwg⟩

theorem zsInternalAccept_grows {a : Except SockErrno (ℕ × ℕ)} (hc : zsInternalAccept σ fd a = .ok σ') :
    σ.Grows σ' := by
  obtain ⟨zs, h₁, hc⟩ := zs_bind_ok hc
  have hz := get_ok h₁
  cases a with
  | error e =>
    have hset : σ.Lapses (σ.set fd { zs with
        status.accepting := false, acceptedFd := none, acceptedErrno := some e }) :=
      .keep hz rfl rfl rfl rfl rfl rfl
    exact (hset.trans (zsUpdateFdState_lapses hc)).grows
  | ok new =>
    obtain ⟨σ₁, h₁, hc⟩ := zs_bind_ok hc
    obtain ⟨child, h₂, hc⟩ := zs_bind_ok hc
    obtain ⟨σ₂, h₃, hc⟩ := zs_bind_ok hc
    obtain ⟨σ₃, h₄, h₅⟩ := zs_bind_ok hc
    have hset : σ.Lapses (σ.set fd { zs with status.accepting := true }) :=
      .keep hz rfl rfl rfl rfl rfl rfl
    obtain ⟨hfree, hpaced, harmed, hcalm⟩ := zsTypeInit_free h₁
    obtain ⟨-, hnone, rfl⟩ := zsTypeInit_cases h₁
    have hne : fd ≠ new.1 := by
      rintro rfl
      rw [Zs.set_zsockets, Function.update_self] at hnone
      cases hnone
    -- the new socket is there, and then what it was accepted by is told
    have hg : σ.Grows ((σ.set fd { zs with status.accepting := true }).set new.1
        ⟨.connect, new.2, zs.portno, zs.eventHdlr, zs.ssl, {}, -1, none, none, {}, {}⟩) := by
      refine ⟨fun i hi => ?_, hpaced ∘ hset.paced, fun i hi => hset.armed i (harmed i hi),
        fun i hi => hset.calm i (hcalm i hi)⟩
      obtain hf | hn := hset.free i hi
      · exact .inl (hfree i hf)
      · obtain ⟨z, hz', -⟩ := hi
        rw [Zs.set_zsockets] at hn
        by_cases he : i = fd
        · rw [he, Function.update_self] at hn
          cases hn
        · rw [Function.update_of_ne he, hz'] at hn
          cases hn
    have hfd : ((σ.set fd { zs with status.accepting := true }).set new.1
        ⟨.connect, new.2, zs.portno, zs.eventHdlr, zs.ssl, {}, -1, none, none, {}, {}⟩).zsockets fd =
          some { zs with status.accepting := true } := by
      rw [Zs.set_zsockets, Function.update_of_ne hne, Zs.set_zsockets, Function.update_self]
    have hg := hg.trans (Zs.Lapses.keep (q := { zs with status.accepting := true, acceptedFd := some new.1 })
      hfd rfl rfl rfl rfl rfl rfl)
    have hchild := get_ok h₂
    have hg := hg.trans (Zs.Lapses.keep (q := { child with nOpen := fd }) hchild rfl rfl rfl rfl rfl rfl)
    have hnew : child.status.connected = false := by
      rw [Zs.set_zsockets, Function.update_of_ne hne.symm, Zs.set_zsockets, Function.update_self] at hchild
      cases hchild
      rfl
    have hg := hg.trans (zsAccepter_lapses (Function.update_self _ _ _) hnew h₃)
    refine (hg.trans ?_).trans (zsUpdateFdState_lapses h₅)
    split at h₄
    · exact zsUpdateFdState_lapses h₄
    · cases h₄
      exact .refl _

/-- **A callback of `zfd_select`.** -/
theorem zfdRead_grows {a : Except SockErrno (ℕ × ℕ)} {r₁ r₂ : RwRes}
    (hc : σ.step (.zfdRead fd a r₁ r₂) = .ok σ') : σ.Grows σ' := by
  simp only [Zs.step] at hc
  split at hc
  · split at hc
    · exact zsInternalAccept_grows hc
    · exact (zsInternalRead_lapses hc).grows
    · cases hc
  · cases hc
    exact (Zs.Lapses.refl _).grows

theorem zfdWrite_grows {r₁ r₂ : RwRes} (hc : σ.step (.zfdWrite fd r₁ r₂) = .ok σ') : σ.Grows σ' := by
  simp only [Zs.step] at hc
  split at hc
  · split at hc
    · exact (zsInternalWrite_lapses hc).grows
    · cases hc
  · cases hc
    exact (Zs.Lapses.refl _).grows

theorem zsAccept_lapses {r : Except SockErrno (Option ℕ)} (hc : zsAccept σ fd = .ok (σ', r)) :
    σ.Lapses σ' := by
  unfold zsAccept at hc
  split at hc
  · cases hc
    exact .refl _
  rename_i zs hz
  split at hc
  · cases hc
    exact .refl _
  split at hc
  · cases hc
    exact .refl _
  split at hc
  · cases hc
    exact .refl _
  obtain ⟨σ₁, h₁, hc⟩ := zs_bind_ok hc
  have hset : σ.Lapses ((σ.countDown (σ.activeRead fd && zs.status.readable)).set fd
      { zs with status.readable := false }) := .keep hz rfl rfl rfl rfl rfl rfl
  split at hc
  · cases hc
  cases hc
  have hz₁ : σ₁.zsockets fd = some { zs with status.readable := false } := by
    obtain ⟨z, rfl, -⟩ := zsUpdateFdState_eq h₁
    exact Function.update_self _ _ _
  exact (hset.trans (zsUpdateFdState_lapses h₁)).trans (.keep hz₁ rfl rfl rfl rfl rfl rfl)

theorem zsocket_grows {addr : ℕ} {portno : ℤ} {hdlr : EventHdlr} {ssl : Bool} {k : SockRes}
    {r : Except SockErrno ℕ} (hc : zsocket σ addr portno .listen hdlr ssl k = .ok (σ', r)) : σ.Grows σ' := by
  unfold zsocket at hc
  simp only [if_true] at hc
  split at hc
  · obtain ⟨p, hp, hc⟩ := zs_bind_ok hc
    cases hc
    exact (Zs.Lapses.keep (q := { p with nOpen := p.nOpen + 1 }) (get_ok hp) rfl rfl rfl rfl rfl rfl).grows
  · split at hc
    · cases hc
      exact (Zs.Lapses.refl _).grows
    · split at hc
      · cases hc
        exact (Zs.Lapses.refl _).grows
      · obtain ⟨σ₁, h₁, hc⟩ := zs_bind_ok hc
        cases hc
        obtain ⟨hfree, hpaced, harmed, hcalm⟩ := zsTypeInit_free h₁
        exact ⟨fun i hi => .inl (hfree i hi), hpaced, harmed, hcalm⟩

end Zimr
