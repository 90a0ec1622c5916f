import Zimr.Proof.Calms
import Zimr.Proof.Routed
import Zimr.Spec.Pressure

/-!
# No byte of a response is dropped

* `Sound.eager` — the msg of a client is read from only while the client takes a write
* `Sound.step_accepted`, `Sound.run_accepted` — what `zs_write` takes for a client that stays is what
  `msg_read` returns for its msg
* `response_bytes_kept` — so in every run without the two kinds of callback of `routing_integrity`
-/

namespace Zimr

open Run

/-! ## What a write takes -/

variable {σ σ' σ₁ : Zs} {fd : ℕ}

theorem Zs.accepted_nil (h : σ'.Writing fd → σ.Writing fd) : σ.accepted σ' fd = [] := by
  unfold Zs.accepted
  split
  · rename_i zs zs' hz hz'
    split
    · rename_i hcond
      simp only [Bool.and_eq_true, Bool.not_eq_true'] at hcond
      obtain ⟨z, hz₁, hw⟩ := h ⟨zs', hz', hcond.2⟩
      obtain rfl := Option.some.inj (hz.symm.trans hz₁)
      rw [hcond.1] at hw
      cases hw
    · rfl
  · rfl

theorem Zs.accepted_congr (hz : σ₁.zsockets = σ.zsockets) : σ₁.accepted σ' fd = σ.accepted σ' fd := by
  unfold Zs.accepted
  rw [hz]

/-- **`zs_write`** takes everything when the socket is `WRITABLE` and no write is in progress, unless the
connection has failed. -/
theorem zsWrite_taken {buf : List UInt8} {r : Except SockErrno ℕ} (hf : σ.Free fd)
    (hc : zsWrite σ fd buf = .ok (σ', r)) :
    r ≠ .error .eagain ∧ ∀ n, r = .ok n → σ.accepted σ' fd = buf := by
  obtain ⟨zs, hz, hwritable, hwriting⟩ := hf
  unfold zsWrite at hc
  rw [hz] at hc
  simp only at hc
  split at hc
  · cases hc
    exact ⟨by decide, fun n hn => by cases hn⟩
  split at hc
  · rename_i hn
    rw [hwritable] at hn
    cases hn
  split at hc
  · cases hc
  split at hc
  · obtain ⟨σ₁, -, hc⟩ := zs_bind_ok hc
    cases hc
    refine ⟨?_, fun n hn => by cases hn⟩
    rintro ⟨⟩
  · obtain ⟨σ₁, h₁, hc⟩ := zs_bind_ok hc
    cases hc
    refine ⟨fun hn => ?_, fun n _ => ?_⟩
    · cases hn
    obtain ⟨z, rfl, -⟩ := zsUpdateFdState_eq h₁
    unfold Zs.accepted
    rw [hz]
    simp only [Zs.set_zsockets, Function.update_self, hwriting, Bool.not_false, Bool.and_self, if_true,
      Option.getD_some]

namespace Daemon

variable {d d' d₁ d₂ d₃ : Daemon} {c msgid : ℕ} {conn : ConnData} {sw : MsgSwitch} {m : Msg} {a : Callback}
  {buf : List UInt8}

/-! ## One callback -/

theorem Sound.eager (h : d.Sound) : d.Eager := by
  intro c conn w sw hconn hw hsw ha
  obtain ⟨sw₀, h₀, m, hm, -, -, ht⟩ := h.board.carried c conn w hconn hw
  obtain rfl := Option.some.inj (hsw.symm.trans h₀)
  have hf := (h.board.serves w sw hsw conn.msgid).paced m hm ha (by omega)
  rw [ht, Int.toNat_natCast] at hf
  exact hf

/-- The msg that a connection refers to is its own. -/
theorem Sound.named (h : d.Sound) (hconn : d.connections c = some conn) (hw : conn.websiteSockfd = some fd)
    (hj : conn.msgid = msgid) (hsw : d.switches fd = some sw) (hm : sw.msgs msgid = some m) : m.type = c := by
  subst hj
  obtain ⟨sw₀, h₀, m₀, hm₀, -, -, ht⟩ := h.board.carried c conn fd hconn hw
  obtain rfl := Option.some.inj (hsw.symm.trans h₀)
  obtain rfl := Option.some.inj (hm.symm.trans hm₀)
  exact ht

theorem reading_some (h : d.reading a = some (d₂, fd, msgid, buf)) : ∃ sw d₁, d.switches fd = some sw ∧
    sw.activeReadFdSet msgid = true ∧ d.assertMsg' fd (fun sw => msgClrRead sw msgid) = .ok d₁ ∧
      d₁.tryMsg fd (fun sw => msgRead sw msgid packDataSize) = .ok (d₂, some buf) := by
  unfold reading at h
  split at h
  swap
  · cases h
  split at h
  swap
  · cases h
  rename_i sw hsw
  split at h
  swap
  · cases h
  rename_i hcond
  split at h
  swap
  · cases h
  rename_i d₁ h₁
  split at h
  swap
  · cases h
  rename_i d₂' buf' h₂
  cases h
  exact ⟨sw, d₁, hsw, (Bool.and_eq_true_iff.1 hcond).1, h₁, h₂⟩

theorem taken_zsockets {n : Option (List UInt8)}
    (h₁ : d.assertMsg' fd (fun sw => msgClrRead sw msgid) = .ok d₁)
    (h₂ : d₁.tryMsg fd (fun sw => msgRead sw msgid packDataSize) = .ok (d₂, n)) :
    d₂.zs.zsockets = d.zs.zsockets := (tryMsg_zsockets h₂).trans (assertMsg'_zsockets h₁)

/-- **The client takes what is relayed to it.** -/
theorem Sound.relays_free (h : d.Sound) (hr : d.relays a = some (d₁, c, buf)) : d₁.zs.Free c := by
  unfold relays at hr
  split at hr
  swap
  · cases hr
  rename_i d₂ fd msgid buf' hread
  obtain ⟨sw, d₀, hsw, ha, h₁, h₂⟩ := reading_some hread
  split at hr
  swap
  · cases hr
  rename_i type htype
  split at hr
  · cases hr
  rename_i hcond
  split at hr
  swap
  · cases hr
  rename_i d₃ h₃
  cases hr
  obtain ⟨-, -, -, -, -, -, -, -, -, hfree⟩ := h.taken hsw ha h₁ h₂ htype
  obtain ⟨zs, hz, rfl⟩ := callZs'_ok h₃
  refine (hfree (by omega)).congr ?_
  show zs.zsockets = d.zs.zsockets
  rw [(zsSetWrite_eq hz).1, taken_zsockets h₁ h₂]

/-- **A response that is relayed** is taken as a whole, if the client stays. -/
theorem relay_accepted {type : ℤ} (hfree : d.zs.Free type.toNat) (h0 : 0 ≤ type)
    (hc : d.relay type buf = .ok d') (hconn : (d'.connections c).isSome) :
    d.zs.accepted d'.zs c = if (c : ℤ) = type then buf else [] := by
  obtain ⟨d₁, h₁, hc⟩ := bind_inv hc
  obtain ⟨zs₁, hz₁, rfl⟩ := callZs'_ok h₁
  obtain ⟨⟨d₂, n⟩, h₂, hc⟩ := bind_inv hc
  obtain ⟨zs₂, hz₂, rfl⟩ := callZs_ok h₂
  have hsame : zs₁.zsockets = d.zs.zsockets := (zsSetWrite_eq hz₁).1
  have hz₂ : zsWrite zs₁ type.toNat buf = .ok (zs₂, n) := hz₂
  cases n with
  | error e =>
    -- the connection is closed
    have hq := wrote_cleanup_calms (d := d.setZs zs₁) (by omega) hz₂ hc
    have hgone := (cleanupConnection_shrinks hc).2
    rw [if_neg]
    · exact Zs.accepted_nil fun hw => (hq.calm c hconn hw).congr hsame
    · rintro rfl
      rw [Int.toNat_natCast] at hgone
      rw [hgone] at hconn
      cases hconn
  | ok n =>
    cases hc
    show d.zs.accepted zs₂ c = _
    split
    · rename_i he
      subst he
      rw [← Zs.accepted_congr hsame]
      exact (zsWrite_taken (hfree.congr hsame) hz₂).2 n rfl
    · refine Zs.accepted_nil fun hw => ((zsWrite_free hz₂).2.2.2 c ?_ hw).congr hsame
      omega

theorem Sound.msgRead_accepted {stack strerror : List UInt8} {k : SockRes} (h : d.Sound)
    (hc : d.step (.msgRead fd msgid stack k strerror) = .ok d') (hconn : (d.connections c).isSome)
    (hconn' : (d'.connections c).isSome) :
    d.zs.accepted d'.zs c = d.returned c (.msgRead fd msgid stack k strerror) := by
  have hidle : ∀ d : Daemon, d.zs.accepted d.zs c = [] := fun d => Zs.accepted_nil id
  simp only [Daemon.step] at hc
  split at hc
  swap
  · rename_i hsw
    cases hc
    simp only [returned, reading, hsw]
    exact hidle d
  rename_i sw hsw
  split at hc
  swap
  · rename_i hcond
    cases hc
    simp only [returned, reading, hsw, if_neg hcond]
    exact hidle d
  rename_i hcond
  obtain ⟨d₁, h₁, hc⟩ := bind_inv hc
  obtain ⟨⟨d₂, n⟩, h₂, hc⟩ := bind_inv hc
  obtain ⟨type, htype, hc⟩ := bind_inv hc
  obtain ⟨hs₂, sw₂, m, hsw₂, hm, ht, hcon, hopen, -, hfree⟩ :=
    h.taken hsw (Bool.and_eq_true_iff.1 hcond).1 h₁ h₂ htype
  have hq := (assertMsg'_calms h₁).trans (tryMsg_calms h₂)
  have htabs := (assertMsg'_tabs h₁).trans (tryMsg_tabs h₂)
  have hread : d.reading (.msgRead fd msgid stack k strerror) = n.map fun buf => (d₂, fd, msgid, buf) := by
    simp only [reading, hsw, if_pos hcond, h₁, h₂]
    cases n <;> rfl
  obtain ⟨conn, hconn⟩ := Option.isSome_iff_exists.1 hconn
  have hconn₂ : d₂.connections c = some conn := by
    rw [htabs.connections]
    exact hconn
  unfold returned
  rw [hread, hconn]
  cases n with
  | none => exact Zs.accepted_nil ((hq.trans (cleanup_calms hc)).calm c hconn')
  | some buf =>
    show _ = if conn.websiteSockfd = some fd ∧ conn.msgid = msgid then buf else []
    have hname : conn.websiteSockfd = some fd ∧ conn.msgid = msgid → type = c := by
      rintro ⟨hw, hj⟩
      rw [← ht]
      exact hs₂.named hconn₂ hw hj hsw₂ hm
    simp only at hc
    split at hc
    · rename_i hb
      rw [hb, ite_self]
      exact Zs.accepted_nil ((hq.trans (cleanup_calms hc)).calm c hconn')
    split at hc
    · rename_i hneg
      rw [if_neg fun hn => by have := hname hn; omega]
      exact Zs.accepted_nil ((hq.trans (commandHandler_calms hc)).calm c hconn')
    · rename_i hneg
      have hsame := taken_zsockets h₁ h₂
      rw [← Zs.accepted_congr hsame, relay_accepted ((hfree (by omega)).congr hsame) (by omega) hc hconn']
      -- the client of the msg is the one that refers to it
      obtain ⟨conn₀, hconn₀, hw₀, hj₀⟩ := hs₂.client hsw₂ hm hopen (by omega)
      by_cases he : (c : ℤ) = type
      · rw [if_pos he, if_pos]
        rw [ht, ← he, Int.toNat_natCast, hconn₂] at hconn₀
        cases hconn₀
        exact ⟨hw₀, hj₀⟩
      · rw [if_neg he, if_neg fun hn => he (hname hn).symm]

/-- **Every callback**: what `zs_write` takes for a client that stays is what `msg_read` returns for its
msg. -/
theorem Sound.step_accepted (h : d.Sound) (hc : d.step a = .ok d') (hconn : (d.connections c).isSome)
    (hconn' : (d'.connections c).isSome) : d.zs.accepted d'.zs c = d.returned c a := by
  have hcalm : Calms d d' → d.zs.accepted d'.zs c = [] := fun hq => Zs.accepted_nil (hq.calm c hconn')
  cases a with
  | zfdRead fd accept r₁ r₂ => exact hcalm (callZs'_calms hc fun _ hz => (zfdRead_grows hz).calm)
  | zfdWrite fd r₁ r₂ => exact hcalm (callZs'_calms hc fun _ hz => (zfdWrite_grows hz).calm)
  | zsRead fd r frames =>
    show _ = []
    simp only [Daemon.step] at hc
    split at hc
    swap
    · cases hc
      exact hcalm (.refl _)
    split at hc
    swap
    · cases hc
      exact hcalm (.refl _)
    unfold zsReadReady at hc
    split at hc
    · -- a webapp comes
      obtain ⟨⟨d₁, newfd⟩, h₁, hc⟩ := bind_inv hc
      refine hcalm ((callZs_calms h₁ fun _ hz => (zsAccept_lapses hz).calm).trans ?_)
      simp only at hc
      split at hc
      · unfold Daemon.msgSwitchCreate at hc
        split at hc
        · cases hc
          exact .refl _
        · obtain ⟨d₂, h₂, hc⟩ := bind_inv hc
          obtain ⟨d₃, h₃, hc⟩ := bind_inv hc
          cases hc
          have hq := (callZs'_calms h₂ fun _ hz => (zsSetEventHdlr_lapses hz).calm).trans (setRead_calms h₃)
          exact ⟨hq.conns, hq.calm⟩
      · cases hc
        exact .refl _
    · -- a client comes
      obtain ⟨⟨d₁, newfd⟩, h₁, hc⟩ := bind_inv hc
      have hq := callZs_calms h₁ fun _ hz => (zsAccept_lapses hz).calm
      refine Zs.accepted_nil fun hw => hq.calm c ?_ ?_
      · rw [(callZs_tabs h₁).connections]
        exact hconn
      · simp only at hc
        split at hc
        · split at hc
          · cases hc
          split at hc
          · obtain ⟨zs, hz, rfl⟩ := callZs'_ok hc
            exact hw.congr (zsSetRead_eq hz).1
          · cases hc
        · cases hc
          exact hw
    · obtain ⟨d₁, h₁, hc⟩ := bind_inv hc
      exact hcalm ((clrRead_calms h₁).trans (exread_calms hc))
    · exact hcalm (switchRead_calms hc)
    · cases hc
      exact hcalm (.refl _)
    · cases hc
      exact hcalm (.refl _)
  | zsWrite fd =>
    show _ = []
    simp only [Daemon.step] at hc
    split at hc
    swap
    · cases hc
      exact hcalm (.refl _)
    split at hc
    swap
    · cases hc
      exact hcalm (.refl _)
    unfold zsWriteReady at hc
    split at hc
    · cases hc
    · cases hc
      exact hcalm (.refl _)
    · obtain ⟨d₁, h₁, hc⟩ := bind_inv hc
      obtain ⟨conn, -, hc⟩ := bind_inv hc
      refine hcalm ((clrWrite_calms h₁).trans ?_)
      split at hc
      · cases hc
      · exact assertMsg'_calms hc
    · have hl : d.Linked fd := by
        obtain ⟨⟨d₁, frame⟩, h₁, -⟩ := bind_inv hc
        obtain ⟨sw, -, hsw, -⟩ := assertMsg_ok h₁
        exact h.seated.linked (by rw [hsw]; rfl)
      exact hcalm (switchWrite_calms (h.seated.linked_none hl) hc)
  | msgAccept fd msgid =>
    show _ = []
    simp only [Daemon.step] at hc
    split at hc
    · split at hc
      · obtain ⟨⟨d₁, r⟩, h₁, hc⟩ := bind_inv hc
        refine hcalm ((tryMsg_calms h₁).trans ?_)
        simp only at hc
        split at hc
        · cases hc
          exact .refl _
        · exact assertMsg'_calms hc
      · cases hc
        exact hcalm (.refl _)
    · cases hc
      exact hcalm (.refl _)
  | msgRead fd msgid stack k strerror => exact h.msgRead_accepted hc hconn hconn'
  | msgWrite fd msgid =>
    show _ = []
    simp only [Daemon.step] at hc
    split at hc
    · split at hc
      · obtain ⟨type, -, hc⟩ := bind_inv hc
        split at hc
        · cases hc
        · obtain ⟨d₁, h₁, hc⟩ := bind_inv hc
          exact hcalm ((setRead_calms h₁).trans (assertMsg'_calms hc))
      · cases hc
        exact hcalm (.refl _)
    · cases hc
      exact hcalm (.refl _)

/-! ## Runs -/

/-- A callback of neither kind. -/
def Tame (d : Daemon) (a : Callback) : Prop := d.takesClient a = false ∧ d.unruly a = false

theorem Sound.run_accepted (bs : List Callback) : ∀ d d' : Daemon, d.Sound →
    Run.run Daemon.step d bs = .ok d' → Along Daemon.step Tame d bs →
    Along Daemon.step (fun d _ => (d.connections c).isSome) d bs → (d'.connections c).isSome →
    acceptedIn c bs d = returnedIn c bs d := by
  induction bs with
  | nil =>
    intro d d' _ _ _ _ _
    rfl
  | cons a bs ih =>
    intro d d' h hr ht hl hend
    obtain ⟨d₁, h₁, hr⟩ := run_cons_ok hr
    obtain ⟨⟨htk, hun⟩, ht⟩ := ht.cons h₁
    obtain ⟨hconn, hl⟩ := hl.cons h₁
    -- the connection is there after the callback
    have hconn₁ : (d₁.connections c).isSome := by
      cases bs with
      | nil =>
        cases hr
        exact hend
      | cons b bs => exact hl.1
    simp only [acceptedIn, returnedIn, h₁]
    rw [h.step_accepted h₁ hconn hconn₁, ih d₁ d' (h.step htk hun h₁) hr ht hl hend]

end Daemon

open Daemon

/-- **No byte of a response is dropped**, in every run in which no callback takes a connection for a
listener or reads a frame that a webapp does not send: a msg is read from only while its client takes a
write, `zs_write` never answers `EAGAIN` then, and while a connection lasts its socket takes the bytes that
`msg_read` returns. -/
theorem response_bytes_kept {proxies : List (ℕ × ℤ × SockRes)} {as : List Callback} {d₀ d : Daemon}
    (h₀ : Daemon.start proxies .init = .ok d₀)
    (ha : Along Daemon.step (fun d a => d.takesClient a = false ∧ d.unruly a = false) d₀ as)
    (h : run Daemon.step d₀ as = .ok d) :
    d.Eager ∧
      (∀ a d₁ c buf zs r, d.relays a = some (d₁, c, buf) → zsWrite d₁.zs c buf = .ok (zs, r) →
        r ≠ .error .eagain) ∧
      ∀ c bs d', run Daemon.step d bs = .ok d' →
        Along Daemon.step (fun d a => d.takesClient a = false ∧ d.unruly a = false) d bs →
        Along Daemon.step (fun d _ => (d.connections c).isSome) d bs → (d'.connections c).isSome →
        acceptedIn c bs d = returnedIn c bs d :=
  have hs := Sound.run h₀ ha h
  ⟨hs.eager, fun _ _ _ _ _ _ hr hz => (zsWrite_taken (hs.relays_free hr) hz).1,
    fun _ bs _ hr ht hl hend => Sound.run_accepted bs _ _ hs hr ht hl hend⟩

/-- The client takes a write, and the webapp answers its request. -/
def answer : List Callback :=
  [.zsWrite 6, .zfdRead 4 (.error .eagain) (.bytes [1]) .wantRead,
    .zsRead 4 .wantRead [.pack ⟨2, 6, ascii "hi", 0⟩], .msgRead 4 2 [] ⟨.ok 0, true, .bytes []⟩ []]

theorem response_bytes_kept_answer : ∃ d₀ d d', Daemon.start oneProxy .init = .ok d₀ ∧
    run Daemon.step d₀ requestRun = .ok d ∧ run Daemon.step d answer = .ok d' ∧ d.Eager ∧
    acceptedIn 6 answer d = returnedIn 6 answer d ∧ returnedIn 6 answer d = ascii "hi" := by
  have hs : ((replay requestRun (.zsWrite 3)).map fun p =>
      (decide (Along Daemon.step (fun d a => d.takesClient a = false ∧ d.unruly a = false) p.1 requestRun),
        (run Daemon.step p.2.1 answer).toOption.map fun d' => (d'.connections 6).isSome,
        decide (Along Daemon.step (fun d a => d.takesClient a = false ∧ d.unruly a = false) p.2.1 answer),
        decide (Along Daemon.step (fun d _ => (d.connections 6).isSome) p.2.1 answer),
        returnedIn 6 answer p.2.1)) = some (true, some true, true, true, ascii "hi") := by
    decide +kernel
  obtain ⟨d₀, d, d₁, h₀, h, h₁, hv⟩ := replay_map hs
  simp only [Prod.mk.injEq, decide_eq_true_eq, Option.map_eq_some_iff] at hv
  obtain ⟨ha, ⟨d', hr, hend⟩, ht, hl, hret⟩ := hv
  have hr := ok_of_toOption hr
  obtain ⟨heager, -, hbytes⟩ := response_bytes_kept h₀ ha h
  exact ⟨d₀, d, d', h₀, h, hr, heager, hbytes 6 answer d' hr ht hl hend, hret⟩

/-- The client takes a write; then a second webapp starts a website on the address that the client has
come from, and hangs up. -/
def armedGoneRun : List Callback :=
  requestRun ++ [.zsWrite 6] ++ connects 3 7 ++ starts 7 1 "http://b" "127.0.0.1" (.ok 8) ++ hangsUp 7 ++
    [.zsRead 7 .wantRead []]

/-- The msg of the client is read from, and its socket is gone. -/
theorem response_dropped : ∃ d₀ d, Daemon.start oneProxy .init = .ok d₀ ∧
    run Daemon.step d₀ armedGoneRun = .ok d ∧ d.zs.zsockets 6 = none ∧ ¬d.Eager := by
  have hs : ((replay armedGoneRun (.zsWrite 3)).map fun p =>
      ((p.2.1.connections 6).map fun conn => (conn.websiteSockfd, conn.msgid),
        (p.2.1.switches 4).map fun sw => sw.activeReadFdSet 2, (p.2.1.zs.zsockets 6).isNone)) =
      some (some (some 4, 2), some true, true) := by
    decide +kernel
  obtain ⟨d₀, d, d₁, h₀, h, h₁, hv⟩ := replay_map hs
  simp only [Prod.mk.injEq, Option.map_eq_some_iff, Option.isNone_iff_eq_none] at hv
  obtain ⟨⟨conn, hconn, hw, hj⟩, ⟨sw, hsw, ha⟩, hnone⟩ := hv
  refine ⟨d₀, d, h₀, h, hnone, fun he => ?_⟩
  obtain ⟨zs, hz, -⟩ := he 6 conn 4 sw hconn hw hsw (by rw [hj]; exact ha)
  rw [hnone] at hz
  cases hz

end Zimr
