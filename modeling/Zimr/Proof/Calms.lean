import Zimr.Proof.Callbacks

/-!
# Where a write is started

Only `zs_write` starts a write. An error page is written to a connection that is closed with it, and a
switch writes to the socket of a webapp, so no client that stays is written to (`Calms`); what the data
of a response does is left to `Zimr.Proof.Pressure`.
-/

namespace Zimr

open Run

namespace Daemon

variable {α : Type} {d d' d₁ d₂ : Daemon} {fd i c w j : ℕ} {conn q : ConnData} {zs : Zs}

/-- No connection is new, and none that stays is written to. -/
structure Calms (d d' : Daemon) : Prop where
  conns : ∀ i, (d'.connections i).isSome → (d.connections i).isSome
  calm : ∀ i, (d'.connections i).isSome → d'.zs.Writing i → d.zs.Writing i

theorem Calms.refl (d : Daemon) : Calms d d := ⟨fun _ h => h, fun _ _ h => h⟩

theorem Calms.trans (h₁ : Calms d d₁) (h₂ : Calms d₁ d₂) : Calms d d₂ :=
  ⟨fun i hi => h₁.conns i (h₂.conns i hi),
    fun i hi hw => h₁.calm i (h₂.conns i hi) (h₂.calm i hi hw)⟩

/-! ## The layers below -/

theorem setZs_calms (h : ∀ i, zs.Writing i → d.zs.Writing i) : Calms d (d.setZs zs) :=
  ⟨fun _ hi => hi, fun i _ hw => h i hw⟩

theorem callZs_calms {r : Except ZsFault (Zs × α)} {a : α} (h : d.callZs r = .ok (d', a))
    (hr : ∀ zs, r = .ok (zs, a) → ∀ i, zs.Writing i → d.zs.Writing i) : Calms d d' := by
  obtain ⟨zs, hz, rfl⟩ := callZs_ok h
  exact setZs_calms (hr zs hz)

theorem callZs'_calms {r : Except ZsFault Zs} (h : d.callZs' r = .ok d')
    (hr : ∀ zs, r = .ok zs → ∀ i, zs.Writing i → d.zs.Writing i) : Calms d d' := by
  obtain ⟨zs, hz, rfl⟩ := callZs'_ok h
  exact setZs_calms (hr zs hz)

theorem setRead_calms (h : d.callZs' (zsSetRead d.zs fd) = .ok d') : Calms d d' :=
  callZs'_calms h fun _ hz _ hw => hw.congr (zsSetRead_eq hz).1

theorem setWrite_calms (h : d.callZs' (zsSetWrite d.zs fd) = .ok d') : Calms d d' :=
  callZs'_calms h fun _ hz _ hw => hw.congr (zsSetWrite_eq hz).1

theorem clrRead_calms (h : d.callZs' (zsClrRead d.zs fd) = .ok d') : Calms d d' :=
  callZs'_calms h fun _ hz => (zsClrRead_lapses hz).calm

theorem clrWrite_calms (h : d.callZs' (zsClrWrite d.zs fd) = .ok d') : Calms d d' :=
  callZs'_calms h fun _ hz => (zsClrWrite_lapses hz).calm

theorem close_calms {r : Except SockErrno ℕ} (h : d.callZs (zsClose d.zs fd) = .ok (d', r)) : Calms d d' :=
  callZs_calms h fun _ hz => (zsClose_lapses hz).1.calm

/-- The sockets are as they were after a call of `msg_switch.c`. -/
theorem rearm_zsockets {b : Bool} (h : d.rearm fd b = .ok d') : d'.zs.zsockets = d.zs.zsockets := by
  obtain rfl | ⟨zs, hz | hz, rfl⟩ := rearm_ok h
  · rfl
  · exact (zsSetWrite_eq hz).1
  · exact (zsClrWrite_eq hz).1

theorem assertMsg_zsockets {f : MsgSwitch → Except Fault (MsgSwitch × α)} {a : α}
    (h : d.assertMsg fd f = .ok (d', a)) : d'.zs.zsockets = d.zs.zsockets := by
  obtain ⟨sw, sw', -, -, hr⟩ := assertMsg_ok h
  exact (rearm_zsockets hr).trans rfl

theorem assertMsg'_zsockets {f : MsgSwitch → Except Fault MsgSwitch} (h : d.assertMsg' fd f = .ok d') :
    d'.zs.zsockets = d.zs.zsockets := by
  obtain ⟨sw, sw', -, -, hr⟩ := assertMsg'_ok h
  exact (rearm_zsockets hr).trans rfl

theorem tryMsg_zsockets {f : MsgSwitch → Except Fault (MsgSwitch × Except Errno α)} {a : Option α}
    (h : d.tryMsg fd f = .ok (d', a)) : d'.zs.zsockets = d.zs.zsockets := by
  obtain ⟨-, rfl, -⟩ | ⟨sw, sw', r, -, -, -, hr⟩ := tryMsg_ok h
  · rfl
  · exact (rearm_zsockets hr).trans rfl

theorem Calms.of_tabs (ht : SameTabs d d') (hz : d'.zs.zsockets = d.zs.zsockets) : Calms d d' :=
  ⟨fun i hi => by rw [← ht.connections]; exact hi, fun _ _ hw => hw.congr hz⟩

theorem assertMsg_calms {f : MsgSwitch → Except Fault (MsgSwitch × α)} {a : α}
    (h : d.assertMsg fd f = .ok (d', a)) : Calms d d' := .of_tabs (assertMsg_tabs h) (assertMsg_zsockets h)

theorem assertMsg'_calms {f : MsgSwitch → Except Fault MsgSwitch} (h : d.assertMsg' fd f = .ok d') :
    Calms d d' := .of_tabs (assertMsg'_tabs h) (assertMsg'_zsockets h)

theorem tryMsg_calms {f : MsgSwitch → Except Fault (MsgSwitch × Except Errno α)} {a : Option α}
    (h : d.tryMsg fd f = .ok (d', a)) : Calms d d' := .of_tabs (tryMsg_tabs h) (tryMsg_zsockets h)

theorem msgWrites_calms (bufs : List (List UInt8)) : ∀ (d d' : Daemon) (b : Bool),
    d.msgWrites w j bufs = .ok (d', b) → Calms d d' := by
  induction bufs with
  | nil =>
    intro d d' b h
    cases h
    exact .refl _
  | cons buf bufs ih =>
    intro d d' b h
    obtain ⟨⟨d₁, n⟩, h₁, h⟩ := bind_inv h
    have hq := tryMsg_calms h₁
    cases n with
    | none =>
      cases h
      exact hq
    | some n => exact hq.trans (ih d₁ d' b h)

theorem msgSwitchDestroy_calms (h : d.msgSwitchDestroy fd = .ok d') : Calms d d' := by
  unfold Daemon.msgSwitchDestroy at h
  split at h
  · cases h
    exact .refl _
  split at h
  · cases h
  · obtain ⟨d₁, h₁, h⟩ := bind_inv h
    have hq := (clrRead_calms h₁).trans (clrWrite_calms h)
    exact ⟨hq.conns, hq.calm⟩

/-! ## Connections that go -/

theorem closeMsg_calms (h : d.closeMsg conn = .ok d') : Calms d d' := by
  unfold Daemon.closeMsg at h
  split at h
  · cases h
    exact .refl _
  · obtain ⟨found, -, h⟩ := bind_inv h
    cases found with
    | true =>
      obtain ⟨⟨d₁, r⟩, h₁, h⟩ := bind_inv h
      cases h
      exact tryMsg_calms h₁
    | false =>
      cases h
      exact .refl _

theorem cleanup_calms {t : ℤ} (h : d.cleanupConnection t = .ok d') : Calms d d' := by
  have hs := (cleanupConnection_shrinks h).1
  obtain ⟨c, conn, d₁, zs, r, rfl, -, -, h₁, hz, rfl⟩ := cleanupConnection_ok h
  have hq := closeMsg_calms h₁
  refine ⟨fun i hi => ?_, fun i hi hw => hq.calm i ?_ ((zsClose_lapses hz).1.calm i hw)⟩
  · obtain ⟨conn', hconn'⟩ := Option.isSome_iff_exists.1 hi
    rw [hs.some hconn']
    rfl
  · obtain ⟨conn', hconn'⟩ := Option.isSome_iff_exists.1 hi
    rw [(closeMsg_tabs h₁).connections, hs.some hconn']
    rfl

/-- The connection that was written to is gone. -/
theorem wrote_cleanup_calms {buf : List UInt8} {r : Except SockErrno ℕ} {t : ℤ} (ht : t = c)
    (hz : Zimr.zsWrite d.zs c buf = .ok (zs, r)) (h : (d.setZs zs).cleanupConnection t = .ok d') :
    Calms d d' := by
  subst ht
  have hq := cleanup_calms h
  have hgone := (cleanupConnection_shrinks h).2
  rw [Int.toNat_natCast] at hgone
  refine ⟨hq.conns, fun i hi hw => (zsWrite_free hz).2.2.2 i ?_ (hq.calm i hi hw)⟩
  rintro rfl
  rw [hgone] at hi
  cases hi

theorem refuse_calms {page : Page} (h : d.refuse c page = .ok d') : Calms d d' := by
  obtain ⟨⟨d₁, n⟩, h₁, h⟩ := bind_inv h
  obtain ⟨zs, hz, rfl⟩ := callZs_ok h₁
  exact wrote_cleanup_calms rfl hz h

theorem cleanupWebsite_calms (is : List ℕ) :
    ∀ d d' : Daemon, cleanupWebsite is d fd = .ok d' → Calms d d' := by
  induction is with
  | nil =>
    intro d d' h
    cases h
    exact .refl _
  | cons i is ih =>
    intro d d' h
    obtain ⟨d₁, h₁, h⟩ := bind_inv h
    refine Calms.trans ?_ (ih d₁ d' h)
    split at h₁
    · exact cleanup_calms h₁
    · cases h₁
      exact .refl _

theorem cleanupMsgs_calms (ns : List ℕ) : ∀ d d' : Daemon, cleanupMsgs ns d fd = .ok d' → Calms d d' := by
  induction ns with
  | nil =>
    intro d d' h
    cases h
    exact .refl _
  | cons n ns ih =>
    intro d d' h
    obtain ⟨found, -, h⟩ := bind_inv h
    cases found with
    | false => exact ih d d' h
    | true =>
      obtain ⟨type, -, h⟩ := bind_inv h
      obtain ⟨d₁, h₁, h⟩ := bind_inv h
      refine Calms.trans ?_ (ih d₁ d' h)
      split at h₁
      · exact cleanup_calms h₁
      · cases h₁
        exact .refl _

theorem removeWebsite_calms (h : d.removeWebsite fd = .ok d') : Calms d d' := by
  unfold Daemon.removeWebsite at h
  split at h
  · cases h
    exact .refl _
  · obtain ⟨d₁, h₁, h⟩ := bind_inv h
    obtain ⟨d₂, h₂, h⟩ := bind_inv h
    obtain ⟨⟨d₃, r₃⟩, h₃, h⟩ := bind_inv h
    obtain ⟨⟨d₄, r₄⟩, h₄, h⟩ := bind_inv h
    cases h
    have hq := (((cleanupWebsite_calms _ _ _ h₁).trans (msgSwitchDestroy_calms h₂)).trans
      (close_calms h₃)).trans (close_calms h₄)
    exact ⟨hq.conns, hq.calm⟩

theorem ioError_calms (h : d.ioError fd = .ok d') : Calms d d' := by
  unfold Daemon.ioError at h
  split at h
  · exact removeWebsite_calms h
  · obtain ⟨d₁, h₁, h⟩ := bind_inv h
    obtain ⟨d₂, h₂, h⟩ := bind_inv h
    obtain ⟨⟨d₃, r⟩, h₃, h⟩ := bind_inv h
    cases h
    exact ((cleanupMsgs_calms _ _ _ h₁).trans (msgSwitchDestroy_calms h₂)).trans (close_calms h₃)

theorem switchFailed_calms (h : d.switchFailed fd = .ok d') : Calms d d' := by
  obtain ⟨d₁, h₁, h⟩ := bind_inv h
  obtain ⟨d₂, h₂, h⟩ := bind_inv h
  obtain ⟨d₃, h₃, h⟩ := bind_inv h
  exact (((clrRead_calms h₁).trans (clrWrite_calms h₂)).trans (assertMsg'_calms h₃)).trans (ioError_calms h)

/-! ## A request -/

theorem setConn_calms (h : (d.connections c).isSome) (conn : ConnData) : Calms d (d.setConn c conn) := by
  refine ⟨fun i hi => ?_, fun _ _ hw => hw⟩
  by_cases he : i = c
  · rw [he]
    exact h
  · have hi : (Function.update d.connections c (some conn) i).isSome := hi
    rwa [Function.update_of_ne he] at hi

theorem setConn_isSome (d : Daemon) (c : ℕ) (conn : ConnData) :
    ((d.setConn c conn).connections c).isSome := by
  rw [setConn_entry]
  rfl

theorem SameTabs.isSome (h : SameTabs d d') (hc : (d.connections c).isSome) : (d'.connections c).isSome := by
  rw [h.connections]
  exact hc

theorem exreadBody_calms {rest : List UInt8} (hs : (d.connections c).isSome)
    (h : d.exreadBody c w conn rest = .ok d') : Calms d d' := by
  obtain ⟨⟨d₁, ok⟩, h₁, h⟩ := bind_inv h
  have hq := msgWrites_calms _ _ _ _ h₁
  have ht := msgWrites_tabs _ _ _ _ _ _ h₁
  refine hq.trans ?_
  simp only at h
  split at h
  · exact refuse_calms h
  split at h
  · obtain ⟨⟨d₂, n⟩, h₂, h⟩ := bind_inv h
    obtain ⟨d₃, h₃, h⟩ := bind_inv h
    cases h
    refine ((tryMsg_calms h₂).trans (setRead_calms h₃)).trans (setConn_calms ?_ _)
    exact ((ht.trans (tryMsg_tabs h₂)).trans (callZs'_tabs h₃)).isSome hs
  · obtain ⟨d₂, h₂, h⟩ := bind_inv h
    cases h
    exact (assertMsg'_calms h₂).trans (setConn_calms ((ht.trans (assertMsg'_tabs h₂)).isSome hs) _)

theorem exreadOpen_calms {site : Website} {type : ReqType} {buffer : List UInt8} {hdrlen : ℕ}
    (hs : (d.connections c).isSome) (h : d.exreadOpen c site conn type buffer hdrlen = .ok d') :
    Calms d d' := by
  obtain ⟨⟨d₁, msgid⟩, h₁, h⟩ := bind_inv h
  obtain ⟨d₂, h₂, h⟩ := bind_inv h
  obtain ⟨postlen, -, h⟩ := bind_inv h
  have hs₁ := (assertMsg_tabs h₁).isSome hs
  refine ((assertMsg_calms h₁).trans ((setConn_calms hs₁ _).trans (setWrite_calms h₂))).trans ?_
  have hs₂ := (callZs'_tabs h₂).isSome (setConn_isSome d₁ c _)
  cases postlen with
  | none => exact refuse_calms h
  | some postlen =>
    obtain ⟨⟨d₃, ok⟩, h₃, h⟩ := bind_inv h
    refine ((setConn_calms hs₂ _).trans (msgWrites_calms _ _ _ _ h₃)).trans ?_
    have hs₃ := (msgWrites_tabs _ _ _ _ _ _ h₃).isSome (setConn_isSome d₂ c _)
    simp only at h
    split at h
    · exact refuse_calms h
    · exact exreadBody_calms hs₃ h

theorem exreadHeader_calms {buffer : List UInt8} (hs : (d.connections c).isSome)
    (h : d.exreadHeader c conn buffer = .ok d') : Calms d d' := by
  unfold Daemon.exreadHeader at h
  split at h
  · split at h
    · exact refuse_calms h
    · exact setRead_calms h
  split at h
  · exact refuse_calms h
  rename_i type _
  obtain ⟨url, -, h⟩ := bind_inv h
  refine (setConn_calms hs { conn with requestType := some type }).trans ?_
  cases url with
  | none => exact refuse_calms h
  | some url =>
    simp only at h
    split at h
    · cases h
    split at h
    · exact refuse_calms h
    rename_i site _
    refine (setConn_calms (setConn_isSome d c _)
      { conn with requestType := some type, websiteSockfd := some site.sockfd }).trans ?_
    split at h
    · exact refuse_calms h
    · exact exreadOpen_calms (setConn_isSome _ c _) h

theorem exread_calms {r : RwRes} (h : d.exread fd r = .ok d') : Calms d d' := by
  obtain ⟨conn, h₁, h⟩ := bind_inv h
  obtain ⟨c, he, -, hconn⟩ := getConn_ok h₁
  obtain rfl : fd = c := by omega
  obtain ⟨⟨d₁, got⟩, h₂, h⟩ := bind_inv h
  have hs : (d.connections fd).isSome := by rw [hconn]; rfl
  have hs₁ := (callZs_tabs h₂).isSome (setConn_isSome d fd _)
  have hq := (setConn_calms hs { conn with buffer := some (conn.buffer.getD []) }).trans
    (callZs_calms h₂ fun _ hz => (zsRead_lapses hz).calm)
  refine hq.trans ?_
  cases got with
  | error e => exact cleanup_calms h
  | ok bytes =>
    simp only at h
    split at h
    · exact cleanup_calms h
    split at h
    · cases h
      exact .refl _
    refine (setConn_calms hs₁ { conn with buffer := some (conn.buffer.getD [] ++ bytes) }).trans ?_
    have hs₂ := setConn_isSome d₁ fd { conn with buffer := some (conn.buffer.getD [] ++ bytes) }
    split at h
    · exact exreadHeader_calms hs₂ h
    · split at h
      · exact refuse_calms h
      · exact exreadBody_calms hs₂ h

/-! ## Commands and switches -/

theorem startWebsite_calms {buf strerror text : List UInt8} {k : SockRes}
    (h : d.startWebsite fd buf k strerror = .ok (d', text)) : Calms d d' := by
  unfold Daemon.startWebsite at h
  simp only at h
  split at h
  · cases h
  split at h
  · cases h
    exact .refl _
  obtain ⟨port, -, h⟩ := bind_inv h
  obtain ⟨⟨d₁, r⟩, h₁, h⟩ := bind_inv h
  refine (callZs_calms h₁ fun _ hz => (zsocket_grows hz).calm).trans ?_
  cases r with
  | error e =>
    obtain ⟨text', -, h⟩ := bind_inv h
    cases h
    exact .refl _
  | ok l =>
    obtain ⟨site, -, h⟩ := bind_inv h
    obtain ⟨d₂, h₂, h⟩ := bind_inv h
    cases h
    have hq := setRead_calms h₂
    exact ⟨hq.conns, hq.calm⟩

theorem commandHandler_calms {type : ℤ} {buf strerror : List UInt8} {k : SockRes}
    (h : d.commandHandler fd j type buf k strerror = .ok d') : Calms d d' := by
  unfold Daemon.commandHandler at h
  split at h
  · obtain ⟨⟨d₁, text⟩, h₁, h⟩ := bind_inv h
    obtain ⟨⟨d₂, n⟩, h₂, h⟩ := bind_inv h
    obtain ⟨⟨d₃, n'⟩, h₃, h⟩ := bind_inv h
    cases h
    exact ((startWebsite_calms h₁).trans (tryMsg_calms h₂)).trans (tryMsg_calms h₃)
  split at h
  · exact removeWebsite_calms h
  · cases h
    exact .refl _

theorem switchRead_calms {r : RwRes} {frames : List Frame} (h : d.switchRead fd r frames = .ok d') :
    Calms d d' := by
  unfold Daemon.switchRead at h
  split at h
  · cases h
  obtain ⟨⟨d₁, got⟩, h₁, h⟩ := bind_inv h
  refine (callZs_calms h₁ fun _ hz => (zsRead_lapses hz).calm).trans ?_
  cases got with
  | error e => exact switchFailed_calms h
  | ok bytes =>
    simp only at h
    split at h
    · exact switchFailed_calms h
    · exact assertMsg'_calms h

/-- What a switch writes goes to a socket that is no client's. -/
theorem switchWrite_calms (hn : d.connections fd = none) (h : d.switchWrite fd = .ok d') : Calms d d' := by
  obtain ⟨⟨d₁, frame⟩, h₁, h⟩ := bind_inv h
  obtain ⟨⟨d₂, n⟩, h₂, h⟩ := bind_inv h
  have hq : Calms d₁ d₂ := by
    obtain ⟨zs, hz, rfl⟩ := callZs_ok h₂
    refine ⟨fun _ hi => hi, fun i hi hw => (zsWrite_free hz).2.2.2 i ?_ hw⟩
    rintro rfl
    have hi : (d₁.connections i).isSome := hi
    rw [(assertMsg_tabs h₁).connections, hn] at hi
    cases hi
  refine ((assertMsg_calms h₁).trans hq).trans ?_
  cases n with
  | error e => exact switchFailed_calms h
  | ok n =>
    cases h
    exact .refl _

end Daemon

end Zimr
