import Zimr.Proof.Sockets

/-!
# No closed descriptor is registered for `select()`

`zs_close` takes the descriptor out of both sets of `zfildes.c` and then calls
`zs_clr_read` and `zs_clr_write`, which compute the registration anew from the status: a
connection that is closed while one of its `WANT_*` bits is set is registered again
(`zsShut_registered`). In a run without such a close no closed descriptor is registered
(`closed_not_registered`).
-/

namespace Zimr

open Run

variable {σ σ' : Zs} {fd : ℕ} {zs zs' : Zsocket}

/-- Only open sockets are registered. -/
def Zs.Registered (σ : Zs) : Prop :=
  ∀ fd, σ.zfd.activeRead fd = true ∨ σ.zfd.activeWrite fd = true → ∃ zs, σ.zsockets fd = some zs

/-! ## The registration -/

/-- **The registration that `zs_update_fd_state` computes.** -/
theorem zsUpdateFdState_zfd (hz : σ.zsockets fd = some zs) (hc : zsUpdateFdState σ fd = .ok σ') :
    (∀ i, i ≠ fd → σ'.zfd.activeRead i = σ.zfd.activeRead i ∧
        σ'.zfd.activeWrite i = σ.zfd.activeWrite i) ∧
      (zs.type = .connect →
        σ'.zfd.activeRead fd = ((σ.activeRead fd && !(zs.status.reading || zs.status.readable))
          || zs.status.wantsRead) ∧
        σ'.zfd.activeWrite fd = ((σ.activeWrite fd && !(zs.status.writing || zs.status.writable))
          || zs.status.wantsWrite)) ∧
      (zs.type = .listen →
        σ'.zfd.activeRead fd = (σ.activeRead fd && !(zs.status.accepting || zs.status.readable)) ∧
        σ'.zfd.activeWrite fd = σ.zfd.activeWrite fd) := by
  obtain ⟨z, h₁, hc⟩ := zs_bind_ok hc
  rw [assertSock_ok h₁] at hz
  cases hz
  split at hc <;> rename_i ht <;> cases hc
  · refine ⟨fun i hi => ?_, fun _ => ?_, fun h => absurd (ht.symm.trans h) (by simp)⟩
    · -- the other descriptors
      constructor
      · simp only
        split_ifs <;> simp [zfdSetR, zfdClrR, zfdSetW, zfdClrW, hi]
      · simp only
        split_ifs <;> simp [zfdSetR, zfdClrR, zfdSetW, zfdClrW, hi]
    · constructor
      · simp only
        split_ifs with h₁ h₂ h₂ <;> simp_all [zfdSetR, zfdClrR, zfdSetW, zfdClrW]
      · simp only
        split_ifs with h₁ h₂ h₂ <;> simp_all [zfdSetR, zfdClrR, zfdSetW, zfdClrW]
  · refine ⟨fun i hi => ?_, fun h => absurd (ht.symm.trans h) (by simp), fun _ => ?_⟩
    · simp only
      split_ifs <;> simp [zfdSetR, zfdClrR, hi]
    · simp only
      split_ifs with h₁ <;> simp_all [zfdSetR, zfdClrR]

theorem Zs.Registered.update (h : σ.Registered) (hc : zsUpdateFdState σ fd = .ok σ') :
    σ'.Registered := by
  obtain ⟨z, hσ, zs, hz⟩ := zsUpdateFdState_eq hc
  have hzfd := (zsUpdateFdState_zfd hz hc).1
  intro i hi
  have hsame : σ'.zsockets = σ.zsockets := by rw [hσ]
  rw [hsame]
  by_cases he : i = fd
  · exact ⟨zs, by rw [he]; exact hz⟩
  · rw [(hzfd i he).1, (hzfd i he).2] at hi
    exact h i hi

/-- The sockets may change as long as none is dropped. -/
theorem Zs.Registered.mono (h : σ.Registered) (hzfd : σ'.zfd = σ.zfd)
    (hz : ∀ i zs, σ.zsockets i = some zs → ∃ zs', σ'.zsockets i = some zs') : σ'.Registered := by
  intro i hi
  rw [hzfd] at hi
  obtain ⟨zs, hs⟩ := h i hi
  exact hz i zs hs

theorem Zs.Registered.set (h : σ.Registered) (n : ℤ) (zs : Zsocket) :
    ({ σ with nSelectable := n }.set fd zs).Registered := by
  refine h.mono rfl fun i z hi => ?_
  by_cases he : i = fd
  · exact ⟨zs, by rw [he]; simp⟩
  · exact ⟨z, by simpa [he] using hi⟩

/-- The interest in a socket changes. -/
theorem Zs.Registered.arm {rd wr : ℕ → Bool} {hash : FdHash} {n : ℤ} (h : σ.Registered) :
    Zs.Registered { σ with
      activeRead := rd, activeWrite := wr, activeHash := hash, nSelectable := n } :=
  h.mono rfl fun _ zs hz => ⟨zs, hz⟩

theorem Zs.Registered.setRead (h : σ.Registered) (hc : zsSetRead σ fd = .ok σ') :
    σ'.Registered := by
  obtain ⟨zs, -, hc⟩ := zs_bind_ok hc
  exact Zs.Registered.update h.arm hc

theorem Zs.Registered.clrRead (h : σ.Registered) (hc : zsClrRead σ fd = .ok σ') :
    σ'.Registered := by
  obtain ⟨zs, -, hc⟩ := zs_bind_ok hc
  exact Zs.Registered.update h.arm hc

theorem Zs.Registered.setWrite (h : σ.Registered) (hc : zsSetWrite σ fd = .ok σ') :
    σ'.Registered := by
  obtain ⟨zs, -, hc⟩ := zs_bind_ok hc
  exact Zs.Registered.update h.arm hc

theorem Zs.Registered.clrWrite (h : σ.Registered) (hc : zsClrWrite σ fd = .ok σ') :
    σ'.Registered := by
  obtain ⟨zs, -, hc⟩ := zs_bind_ok hc
  exact Zs.Registered.update h.arm hc

/-! ## Closing -/

/-- **A descriptor that is really closed is registered for what it still waits for.** -/
theorem zsShut_registered (hz : σ.zsockets fd = some zs) (hc : zsShut σ fd = .ok σ') :
    σ'.zsockets fd = none ∧
      σ'.zfd.activeRead fd = (decide (zs.type = .connect) && zs.status.wantsRead) ∧
      σ'.zfd.activeWrite fd = (decide (zs.type = .connect) && zs.status.wantsWrite) ∧
      (∀ i, i ≠ fd → σ'.zsockets i = σ.zsockets i ∧ σ'.zfd.activeRead i = σ.zfd.activeRead i ∧
        σ'.zfd.activeWrite i = σ.zfd.activeWrite i) := by
  obtain ⟨σ₁, h₁, hc⟩ := zs_bind_ok hc
  obtain ⟨σ₂, h₂, hc⟩ := zs_bind_ok hc
  cases hc
  have e₁ := zsClrRead_eq h₁
  have e₂ := zsClrWrite_eq h₂
  have hz₁ : σ₁.zsockets fd = some zs := by rw [e₁.1]; exact hz
  obtain ⟨z₁, hz₁', h₁⟩ := zs_bind_ok h₁
  obtain ⟨z₂, hz₂', h₂⟩ := zs_bind_ok h₂
  obtain rfl : zs = z₁ := Option.some.inj (hz.symm.trans (assertSock_ok hz₁'))
  obtain rfl : zs = z₂ := Option.some.inj (hz₁.symm.trans (assertSock_ok hz₂'))
  obtain ⟨o₁, c₁, l₁⟩ := zsUpdateFdState_zfd (by exact hz) h₁
  obtain ⟨o₂, c₂, l₂⟩ := zsUpdateFdState_zfd (by exact hz₁) h₂
  refine ⟨by simp, ?_, ?_, fun i hi => ⟨?_, ?_, ?_⟩⟩
  · cases ht : zs.type with
    | connect =>
      have hr : σ₁.activeRead fd = false := by rw [e₁.2.1, Function.update_self]
      simp [(c₂ ht).1, hr]
    | listen =>
      have hr : σ₁.activeRead fd = false := by rw [e₁.2.1, Function.update_self]
      simp [(l₂ ht).1, hr]
  · cases ht : zs.type with
    | connect => simp [(c₂ ht).2]
    | listen =>
      -- a listener is never registered for writing
      have hw : σ₁.zfd.activeWrite fd = false := by
        rw [(l₁ ht).2]
        simp [zfdClrW, Zs.countDown]
      rw [(l₂ ht).2]
      exact hw
  · simp only [Function.update_of_ne hi, e₂.1, e₁.1]
  · rw [(o₂ i hi).1]
    show σ₁.zfd.activeRead i = _
    rw [(o₁ i hi).1]
    simp [zfdClrW, zfdClrR, hi, Zs.countDown]
  · rw [(o₂ i hi).2]
    show σ₁.zfd.activeWrite i = _
    rw [(o₁ i hi).2]
    simp [zfdClrW, zfdClrR, hi, Zs.countDown]

theorem Zs.Registered.shut (h : σ.Registered) (hz : σ.zsockets fd = some zs)
    (hw : zs.type = .connect → zs.status.wants = false) (hc : zsShut σ fd = .ok σ') :
    σ'.Registered := by
  obtain ⟨hnone, hr, hwr, hother⟩ := zsShut_registered hz hc
  have hfd : σ'.zfd.activeRead fd = false ∧ σ'.zfd.activeWrite fd = false := by
    rw [hr, hwr]
    cases ht : zs.type with
    | listen => exact ⟨rfl, rfl⟩
    | connect =>
      have := hw ht
      unfold ZsStat.wants at this
      rw [Bool.or_eq_false_iff] at this
      exact ⟨by rw [this.1]; rfl, by rw [this.2]; rfl⟩
  intro i hi
  by_cases he : i = fd
  · rw [he, hfd.1, hfd.2] at hi
    simp at hi
  · obtain ⟨hs, h₁, h₂⟩ := hother i he
    rw [h₁, h₂] at hi
    rw [hs]
    exact h i hi

theorem Zs.Registered.close {r : Except SockErrno ℕ} (h : σ.Registered)
    (hw : ∀ p, σ.zsockets fd = some p → p.type = .connect → p.status.writing = false →
      p.status.wants = false) (hc : zsClose σ fd = .ok (σ', r)) : σ'.Registered := by
  obtain ⟨-, rfl, -⟩ | ⟨p, hz, -, ⟨-, -, rfl⟩ | ⟨ht, -, h₂⟩ | ⟨-, -, σ₁, σ₂, h₁, h₂, rfl⟩ |
      ⟨ht, hwr, h₂⟩⟩ := zsClose_cases hc
  · exact h
  · exact h.set σ.nSelectable _
  · have h₁ : (σ.set fd { p with nOpen := p.nOpen - 1 }).Registered := h.set σ.nSelectable _
    have hz₁ : (σ.set fd { p with nOpen := p.nOpen - 1 }).zsockets fd =
        some { p with nOpen := p.nOpen - 1 } := by simp
    refine h₁.shut hz₁ (fun hcon => ?_) h₂
    rw [ht] at hcon
    cases hcon
  · exact ((h.clrRead h₁).clrWrite h₂).set σ₂.nSelectable _
  · exact h.shut hz (fun hcon => hw p hz hcon hwr) h₂

/-! ## The callbacks -/

theorem Zs.Registered.connecter {r : RwRes} (h : σ.Registered)
    (hc : zsConnecter σ fd r = .ok σ') : σ'.Registered := by
  obtain ⟨zs, -, hc⟩ := zs_bind_ok hc
  simp only at hc
  split at hc
  · cases r with
    | wantRead => cases hc; exact h.set σ.nSelectable _
    | wantWrite => cases hc; exact h.set σ.nSelectable _
    | fail k e => cases hc; exact h.set _ _
    | bytes bs => cases hc; exact h.set _ _
  · cases hc; exact h.set _ _

theorem Zs.Registered.written (h : σ.Registered)
    (hw : zs.status.closed = true → zs.status.wants = false)
    (hc : zsWritten σ fd zs = .ok σ') : σ'.Registered := by
  unfold zsWritten at hc
  simp only at hc
  split at hc
  · rename_i hcl
    obtain ⟨⟨σ₂, r⟩, h₂, hc⟩ := zs_bind_ok hc
    cases hc
    refine Zs.Registered.close (h.set _ _) (fun p hp _ _ => ?_) h₂
    simp only [Zs.set_zsockets, Function.update_self] at hp
    cases hp
    exact hw hcl
  · cases hc; exact h.set _ _

theorem Zs.Registered.writer {r : RwRes} (h : σ.Registered)
    (hw : ∀ zs, σ.zsockets fd = some zs → zs.finishes r = true → zs.status.closed = true →
      zs.status.wants = false) (hc : zsWriter σ fd r = .ok σ') : σ'.Registered := by
  obtain ⟨zs, zs', hz, -, rfl | ⟨hf, hs, hc⟩⟩ := zsWriter_cases hc
  · exact h.set σ.nSelectable _
  · refine h.written (fun hcl => ?_) hc
    rw [hs] at hcl ⊢
    exact hw zs hz hf hcl

theorem Zs.Registered.reader {r : RwRes} (h : σ.Registered)
    (hc : zsReader σ fd r = .ok σ') : σ'.Registered := by
  obtain ⟨zs, zs', -, -, -, rfl | rfl⟩ := zsReader_cases hc
  · exact h.set σ.nSelectable _
  · exact h.set _ _

theorem Zs.Registered.accepter (h : σ.Registered) (hc : zsAccepter σ fd = .ok σ') :
    σ'.Registered := by
  obtain ⟨zs, -, hc⟩ := zs_bind_ok hc
  split at hc
  · cases hc
  obtain ⟨p, -, hc⟩ := zs_bind_ok hc
  obtain ⟨σ₂, h₂, hc⟩ := zs_bind_ok hc
  refine Zs.Registered.update ?_ hc
  split at h₂
  · obtain ⟨z, -, h₂⟩ := zs_bind_ok h₂
    cases h₂
    exact (h.set _ _).set _ _
  · cases h₂; exact h.set _ _

theorem Zs.Registered.typeInit {type : ZsType} {addr : ℕ} {portno : ℤ} {hdlr : EventHdlr}
    {ssl : Bool} (h : σ.Registered) (hc : zsTypeInit σ fd type addr portno hdlr ssl = .ok σ') :
    σ'.Registered := by
  obtain ⟨-, -, rfl⟩ := zsTypeInit_cases hc
  exact h.set σ.nSelectable _

theorem Zs.Registered.internalAccept {a : Except SockErrno (ℕ × ℕ)} (h : σ.Registered)
    (hc : zsInternalAccept σ fd a = .ok σ') : σ'.Registered := by
  obtain ⟨zs, -, hc⟩ := zs_bind_ok hc
  cases a with
  | error e => exact Zs.Registered.update (h.set σ.nSelectable _) hc
  | ok new =>
    obtain ⟨σ₃, h₃, hc⟩ := zs_bind_ok hc
    have hr₃ := Zs.Registered.typeInit (h.set σ.nSelectable _) h₃
    obtain ⟨child, -, hc⟩ := zs_bind_ok hc
    obtain ⟨σ₆, h₆, hc⟩ := zs_bind_ok hc
    have hr₆ := Zs.Registered.accepter ((hr₃.set σ₃.nSelectable _).set _ _) h₆
    obtain ⟨σ₇, h₇, hc⟩ := zs_bind_ok hc
    refine Zs.Registered.update ?_ hc
    split at h₇
    · exact hr₆.update h₇
    · cases h₇; exact hr₆

theorem Zs.Registered.unconnected {r : RwRes} (h : σ.Registered)
    (hc : zsUnconnected σ fd zs r = .ok σ') : σ'.Registered := by
  unfold zsUnconnected at hc
  split at hc
  · exact Zs.Registered.connecter (h.set σ.nSelectable _) hc
  · exact Zs.Registered.accepter (h.set σ.nSelectable _) hc

theorem Zs.Registered.internalWrite {r₁ r₂ : RwRes} (h : σ.Registered)
    (hw : σ.shutsWanting (.zfdWrite fd r₁ r₂) = false)
    (hc : zsInternalWrite σ fd r₁ r₂ = .ok σ') : σ'.Registered := by
  obtain ⟨zs, h₁, hc⟩ := zs_bind_ok hc
  have hz := (getConnect_ok h₁).1
  split at hc
  · rename_i hcon
    obtain ⟨σ₁, h₁, hc⟩ := zs_bind_ok hc
    have hr₁ : σ₁.Registered := by
      split at h₁
      · rename_i hww
        refine Zs.Registered.writer (h.set σ.nSelectable _) (fun z hz' hf hcl => ?_) h₁
        simp only [Zs.set_zsockets, Function.update_self] at hz'
        cases hz'
        have hf' : zs.finishes r₁ = true := by cases r₁ <;> exact hf
        have hcl' : zs.status.closed = true := hcl
        simpa [Zs.shutsWanting, hz, hcon, hww, hcl', hf'] using hw
      · cases h₁; exact h
    cases hz₁ : σ₁.zsockets fd with
    | none => rw [hz₁] at hc; cases hc; exact hr₁
    | some z =>
      rw [hz₁] at hc
      obtain ⟨σ₂, h₂, hc⟩ := zs_bind_ok hc
      refine Zs.Registered.update ?_ hc
      split at h₂
      · exact Zs.Registered.reader (hr₁.set σ₁.nSelectable _) h₂
      · cases h₂; exact hr₁
  · obtain ⟨σ₁, h₁, hc⟩ := zs_bind_ok hc
    exact (h.unconnected h₁).update hc

/-- The reader of `zs_internal_read` does not make its writer run. -/
theorem afterReader_spec {r : RwRes} {σ₁ : Zs} {z : Zsocket}
    (h₁ : (if zs.startRead.status.wantReadFromRead then
        zsReader (σ.set fd { zs.startRead with status.wantReadFromRead := false }) fd r
      else pure (σ.set fd zs.startRead)) = .ok σ₁)
    (hz₁ : σ₁.zsockets fd = some z) (hw : z.status.wantReadFromWrite = true) :
    zs.status.wantReadFromWrite = true ∧ z.status.closed = zs.status.closed ∧
      σ.afterReader fd zs r = some z := by
  -- the record after the reader
  have hz : z.status.wantReadFromWrite = zs.startRead.status.wantReadFromWrite ∧
      z.status.closed = zs.startRead.status.closed := by
    split at h₁
    · obtain ⟨z₁, z₂, hz₂, hs, hww, rfl | rfl⟩ := zsReader_cases h₁
      all_goals
        simp only [zsGot, Zs.set_zsockets, Function.update_self] at hz₁ hz₂
        cases hz₁
        cases hz₂
        exact ⟨hww, hs.closed⟩
    · cases h₁
      simp only [Zs.set_zsockets, Function.update_self] at hz₁
      cases hz₁
      exact ⟨rfl, rfl⟩
  have hst : zs.startRead.status.wantReadFromWrite = zs.status.wantReadFromWrite := by
    unfold Zsocket.startRead
    split_ifs <;> rfl
  have hzw : zs.status.wantReadFromWrite = true := by rw [← hst, ← hz.1]; exact hw
  have hstart : zs.startRead = zs := by
    unfold Zsocket.startRead
    rw [hzw, Bool.or_true]
    rfl
  rw [hstart] at h₁ hz
  refine ⟨hzw, hz.2, ?_⟩
  unfold Zs.afterReader
  split at h₁
  · rename_i hwr
    rw [if_pos hwr, h₁]
    exact hz₁
  · rename_i hwr
    rw [if_neg hwr]
    cases h₁
    simp only [Zs.set_zsockets, Function.update_self] at hz₁
    exact hz₁

theorem Zs.Registered.internalRead {a : Except SockErrno (ℕ × ℕ)} {r₁ r₂ : RwRes}
    (h : σ.Registered) (hw : σ.shutsWanting (.zfdRead fd a r₁ r₂) = false)
    (hc : zsInternalRead σ fd r₁ r₂ = .ok σ') : σ'.Registered := by
  obtain ⟨zs, h₁, hc⟩ := zs_bind_ok hc
  have hz := (getConnect_ok h₁).1
  split at hc
  · rename_i hcon
    obtain ⟨σ₁, h₁, hc⟩ := zs_bind_ok hc
    have hr₁ : σ₁.Registered := by
      split at h₁
      · exact Zs.Registered.reader (h.set σ.nSelectable _) h₁
      · cases h₁; exact h.set σ.nSelectable _
    obtain ⟨z, hz₁, hc⟩ := zs_bind_ok hc
    have hz₁ := get_ok hz₁
    obtain ⟨σ₂, h₂, hc⟩ := zs_bind_ok hc
    have hr₂ : σ₂.Registered := by
      split at h₂
      · rename_i hrw
        refine Zs.Registered.writer (hr₁.set σ₁.nSelectable _) (fun z' hz' hf hcl => ?_) h₂
        simp only [Zs.set_zsockets, Function.update_self] at hz'
        cases hz'
        have hf' : z.finishes r₂ = true := by cases r₂ <;> exact hf
        have hcl' : z.status.closed = true := hcl
        obtain ⟨hzw, hzc, hafter⟩ := afterReader_spec h₁ hz₁ hrw
        rw [hzc] at hcl'
        simpa [Zs.shutsWanting, hz, hcon, hzw, hcl', hafter, hf'] using hw
      · cases h₂; exact hr₁
    cases hz₂ : σ₂.zsockets fd with
    | none => rw [hz₂] at hc; cases hc; exact hr₂
    | some _ => rw [hz₂] at hc; exact hr₂.update hc
  · obtain ⟨σ₁, h₁, hc⟩ := zs_bind_ok hc
    exact (h.unconnected h₁).update hc

/-! ## The calls -/

theorem Zs.Registered.zsocket {addr : ℕ} {portno : ℤ} {type : ZsType} {hdlr : EventHdlr}
    {ssl : Bool} {k : SockRes} {r : Except SockErrno ℕ} (h : σ.Registered)
    (hc : Zimr.zsocket σ addr portno type hdlr ssl k = .ok (σ', r)) : σ'.Registered := by
  unfold Zimr.zsocket at hc
  simp only at hc
  split at hc
  · obtain ⟨p, -, hc⟩ := zs_bind_ok hc
    cases hc; exact h.set σ.nSelectable _
  · split at hc
    · cases hc; exact h
    · split at hc
      · cases hc; exact h
      · obtain ⟨σ₁, h₁, hc⟩ := zs_bind_ok hc
        have hr := h.typeInit h₁
        split at hc
        · cases hc; exact hr
        · obtain ⟨zs, -, hc⟩ := zs_bind_ok hc
          obtain ⟨σ₂, h₂, hc⟩ := zs_bind_ok hc
          obtain ⟨σ₃, h₃, hc⟩ := zs_bind_ok hc
          cases hc
          exact (Zs.Registered.connecter (hr.set σ₁.nSelectable _) h₂).update h₃

theorem Zs.Registered.accept {r : Except SockErrno (Option ℕ)} (h : σ.Registered)
    (hc : zsAccept σ fd = .ok (σ', r)) : σ'.Registered := by
  unfold zsAccept at hc
  cases hz : σ.zsockets fd with
  | none => rw [hz] at hc; cases hc; exact h
  | some zs =>
    rw [hz] at hc
    simp only at hc
    split at hc
    · cases hc; exact h
    split at hc
    · cases hc; exact h
    split at hc
    · cases hc; exact h
    obtain ⟨σ₁, h₁, hc⟩ := zs_bind_ok hc
    have hr := Zs.Registered.update (h.set _ _) h₁
    split at hc
    · cases hc
    · cases hc; exact hr.set σ₁.nSelectable _

theorem Zs.Registered.read {n : ℕ} {a : RwRes} {r : Except SockErrno (List UInt8)}
    (h : σ.Registered) (hc : zsRead σ fd n a = .ok (σ', r)) : σ'.Registered := by
  obtain ⟨rfl, -⟩ | ⟨zs, zs', -, -, -, -, -, -, hc⟩ := zsRead_cases hc
  · exact h
  · have h₀ : (σ.set fd zs').Registered := h.set σ.nSelectable _
    obtain ⟨z, -, hc⟩ := zs_bind_ok hc
    split at hc
    · obtain ⟨σ₁, h₁, hc⟩ := zs_bind_ok hc
      obtain ⟨z₁, -, hc⟩ := zs_bind_ok hc
      have hr := Zs.Registered.reader (h₀.set _ _) h₁
      exact Zs.Registered.update (hr.set σ₁.nSelectable _) hc
    · cases hc; exact h₀

theorem Zs.Registered.write {buf : List UInt8} {r : Except SockErrno ℕ} (h : σ.Registered)
    (hc : zsWrite σ fd buf = .ok (σ', r)) : σ'.Registered := by
  obtain ⟨zs, -, ⟨rfl, -⟩ | ⟨-, -, -, -, zs', -, -, hc, -⟩⟩ := zsWrite_cases hc
  · exact h
  · exact Zs.Registered.update (h.set _ _) hc

theorem Zs.Registered.step (a : ZsAct) (h : σ.Registered) (hw : σ.shutsWanting a = false)
    (hs : σ.step a = .ok σ') : σ'.Registered := by
  cases a with
  | zsocket addr portno type hdlr ssl k =>
    obtain ⟨⟨σ₁, r⟩, h₁, hs⟩ := zs_bind_ok hs
    cases hs; exact h.zsocket h₁
  | accept fd =>
    obtain ⟨⟨σ₁, r⟩, h₁, hs⟩ := zs_bind_ok hs
    cases hs; exact h.accept h₁
  | read fd n r =>
    obtain ⟨⟨σ₁, r⟩, h₁, hs⟩ := zs_bind_ok hs
    cases hs; exact h.read h₁
  | write fd buf =>
    obtain ⟨⟨σ₁, r⟩, h₁, hs⟩ := zs_bind_ok hs
    cases hs; exact h.write h₁
  | setRead fd => exact h.setRead hs
  | clrRead fd => exact h.clrRead hs
  | setWrite fd => exact h.setWrite hs
  | clrWrite fd => exact h.clrWrite hs
  | close fd =>
    obtain ⟨⟨σ₁, r⟩, h₁, hs⟩ := zs_bind_ok hs
    cases hs
    refine h.close (fun p hp ht hwr => ?_) h₁
    simpa [Zs.shutsWanting, hp, ht, hwr] using hw
  | zfdRead fd a r₁ r₂ =>
    simp only [Zs.step] at hs
    split at hs
    · split at hs
      · exact h.internalAccept hs
      · exact h.internalRead hw hs
      · cases hs
    · cases hs; exact h
  | zfdWrite fd r₁ r₂ =>
    simp only [Zs.step] at hs
    split at hs
    · split at hs
      · exact h.internalWrite hw hs
      · cases hs
    · cases hs; exact h

/-- **No closed descriptor stays registered**, in every run in which no connection is really
closed while it waits for something. -/
theorem closed_not_registered (acts : List ZsAct) (σ : Zs)
    (hC : Along Zs.step (fun σ a => σ.shutsWanting a = false) zsInit acts)
    (hrun : run Zs.step zsInit acts = .ok σ) (fd : ℕ) (hclosed : σ.zsockets fd = none) :
    σ.zfd.activeRead fd = false ∧ σ.zfd.activeWrite fd = false := by
  have h : σ.Registered := by
    refine run_inv (fun _ a _ hI hw hs => Zs.Registered.step a hI hw hs) acts _ _ ?_ hC hrun
    rintro fd (h | h) <;> cases h
  constructor
  · by_contra hr
    obtain ⟨zs, hz⟩ := h fd (Or.inl (by simpa using hr))
    rw [hclosed] at hz
    cases hz
  · by_contra hw
    obtain ⟨zs, hz⟩ := h fd (Or.inr (by simpa using hw))
    rw [hclosed] at hz
    cases hz

/-- A connection is written to, closed before the write is done, and the write ends. -/
def closedRun : List ZsAct :=
  [.zsocket 0 80 .connect .msgZsocket false ⟨.ok 3, true, .bytes []⟩, .setWrite 3, .write 3 [1],
    .close 3, .zfdWrite 3 (.bytes [0]) (.bytes [])]

theorem closed_not_registered_closed :
    ∃ σ, run Zs.step zsInit closedRun = .ok σ ∧ σ.zsockets 3 = none ∧
      σ.zfd.activeRead 3 = false ∧ σ.zfd.activeWrite 3 = false := by
  obtain ⟨σ, h⟩ : ∃ σ, run Zs.step zsInit closedRun = .ok σ := ⟨_, rfl⟩
  have hn : (run Zs.step zsInit closedRun).toOption.map (fun σ => (σ.zsockets 3).isNone) =
      some true := by decide
  rw [h] at hn
  have hclosed : σ.zsockets 3 = none := by simpa [Except.toOption] using hn
  exact ⟨σ, h, hclosed, closed_not_registered closedRun σ (by decide) h 3 hclosed⟩

/-- A read that finds nothing leaves `WANT_READ_FROM_READ` set, and `zs_close` registers the
descriptor it closes. -/
theorem closed_registered :
    ∃ σ, run Zs.step zsInit
        [.zsocket 0 80 .connect .msgZsocket false ⟨.ok 3, true, .bytes []⟩, .setRead 3,
          .zfdRead 3 (.error .eagain) .wantRead .wantRead, .close 3] = .ok σ ∧
      σ.zsockets 3 = none ∧ σ.zfd.activeRead 3 = true := by
  refine ⟨_, rfl, ?_, ?_⟩
  · rfl
  · rfl

end Zimr
