import Zimr.Proof.Switch

/-!
# What one top-level step of an endpoint does

`call_eff` and `dispatch_eff` list, for a call and for a frame, every way the endpoint
can change. All invariants of runs go through them.

* `step_ok` — a step keeps `SwOK`
-/

namespace Zimr

open Link (Item Step Steps Half)

variable {sw sw' : MsgSwitch} {j : ℕ} {m m' : Msg} {strong S H : Prop} {op : Op}
  {ret : OpRet} {frame : Frame}

/-- The half of the link that the msg `m` is, with its history. -/
def EndLog.half (l : EndLog) (stage : Link.Stage UInt8) (out : List (Item UInt8)) (strict : Bool) :
    Half UInt8 := ⟨stage, out, l.accepted, l.got, l.closed, strict⟩

/-- What a call can do. -/
inductive CallEff (S H : Prop) (sw sw' : MsgSwitch) (op : Op) (ret : OpRet) : Prop
  | idle (hop : op.msgid ≠ none) (h : sw' = sw) (hrec : ∀ l : EndLog, l.record op ret = l)
  | turn (j : ℕ) (m m' : Msg) (R : List MsgResp) (hop : op.msgid = some j)
      (hj : sw.msgs j = some m)
      (t : Turn (sw.flushesLate op = true) (sw.flushesBlank op = true) sw sw' j m m' R none)
      (link : ∀ (l : EndLog) out strict y,
        (strict = true → m.status.disconnected = false →
          m.imsgid ≠ 0 ∧ sw.closesOwing op = false) →
        Steps S H (l.half (.live m.view) out strict) y
          ((l.record op ret).half (.live m'.view) (out ++ R.map MsgResp.item) strict) y)
  | freed (j : ℕ) (m : Msg) (hop : op.msgid = some j) (hj : sw.msgs j = some m)
      (c : Clears sw sw' j m none (m.unmap sw.imsgidMap))
      (link : ∀ (l : EndLog) out strict y,
        Steps S H (l.half (.live m.view) out strict) y
          ((l.record op ret).half .gone out strict) y)
  | opened (j : ℕ) (type : ℤ) (hop : op = .open type) (hret : ret = .num (.ok j))
      (c : Creates sw sw' j (.fresh sw.nextAddr j type true 0) sw.imsgidMap)

/-- The active sets are all that changed. -/
theorem CallEff.of_only (h : Slots sw.msgs sw.nextAddr) (hop : op.msgid = some j) (hj : sw.msgs j = some m)
    (o : Only sw sw' j m [] []) (hrec : ∀ l : EndLog, l.record op ret = l) :
    CallEff S H sw sw' op ret :=
  .turn j m m [] hop hj (Turn.of_only o (h.ok _ _ hj)) fun l out strict y _ => by
    rw [hrec]; simpa using Steps.refl _ _

theorem msgWrite_eff (h : Slots sw.msgs sw.nextAddr) {buf : List UInt8} {r : Except Errno ℕ}
    (hc : msgWrite sw j buf = .ok (sw', r)) :
    CallEff S H sw sw' (.write j buf) (.num r) := by
  cases hj : sw.msgs j with
  | none =>
    simp only [msgWrite, hj, pure, Except.pure] at hc
    cases hc; exact .idle (Option.some_ne_none _) rfl fun _ => rfl
  | some m =>
    have hm := h.ok _ _ hj
    rcases msgWrite_moves (S := S) (H := H) hj hm buf with
      ⟨e, he⟩ | ⟨sw₁, m', Q, h₁, mv, hQ, hcl, hd⟩
    · rw [he] at hc; cases hc; exact .idle (Option.some_ne_none _) rfl fun _ => rfl
    · rw [h₁] at hc; cases hc
      refine .turn j m m' [] rfl hj (mv.turn ?_ ?_) fun l out strict y _ => ?_
      · intro hs; rw [hm.not_sent hcl hd] at hs; cases hs
      · intro _ _ _
        refine ⟨hcl, fun p hp hp' => ?_⟩
        have := hQ p hp
        rw [MsgPacket.size, hp'] at this
        exact absurd this (by decide)
      · simpa [EndLog.half, EndLog.record] using
          mv.link out l.accepted l.got l.closed strict y

theorem msgFlush_eff (h : Slots sw.msgs sw.nextAddr) {r : Except Errno ℕ}
    (hc : msgFlush sw j = .ok (sw', r)) : CallEff S H sw sw' (.flush j) (.num r) := by
  cases hj : sw.msgs j with
  | none =>
    simp only [msgFlush, hj, pure, Except.pure] at hc
    cases hc; exact .idle (Option.some_ne_none _) rfl fun _ => rfl
  | some m =>
    have hm := h.ok _ _ hj
    obtain ⟨sw₁, m', ret, h₁, mv, -, hw⟩ := msgFlush_moves (S := S) (H := H) hj hm
    rw [h₁] at hc; cases hc
    refine .turn j m m' [] rfl hj (mv.turn ?_ ?_) fun l out strict y _ => ?_
    · -- a disconnected msg that waits, and is not in the queue, is not handed over
      intro hs hl
      by_cases hne : m.incompleteWritPacket = none
      · have hQ : m.incompleteWritPacket.toList = [] := by rw [hne]; rfl
        exact ⟨mv.still hQ, Or.inl hQ⟩
      · have hcl : m.status.closed = false := by
          cases hcl : m.status.closed with
          | false => rfl
          | true => exact absurd (hm.closed_inc hcl) hne
        have hd : m.status.disconnected = true := (hm.sent hs).resolve_left (by simp [hcl])
        have hl' : m.status.waitingForResp = true ∧ m.ptr ∉ sw.pendingMsgs := by
          simpa [MsgSwitch.flushesLate, hj, hcl, hd, Option.isSome_iff_ne_none, hne] using hl
        exact ⟨hw hl'.1, Or.inr hl'.2⟩
    · intro hb hQ hd
      have hne : m.incompleteWritPacket ≠ none := by
        intro h0; rw [h0] at hQ; exact hQ rfl
      have hcl : m.status.closed = false := by
        cases hcl : m.status.closed with
        | false => rfl
        | true => exact absurd (hm.closed_inc hcl) hne
      refine ⟨hcl, fun p hp hp' => hb ?_⟩
      have hp := Option.mem_toList.1 hp
      simp [MsgSwitch.flushesBlank, hj, hcl, hd, Msg.blank, hp, hp']
    · simpa [EndLog.half, EndLog.record] using
        mv.link out l.accepted l.got l.closed strict y

theorem msgRead_eff (h : Slots sw.msgs sw.nextAddr) {size : ℕ} {r : Except Errno (List UInt8)}
    (hc : msgRead sw j size = .ok (sw', r)) :
    CallEff S H sw sw' (.read j size) (.bytes r) := by
  cases hj : sw.msgs j with
  | none =>
    simp only [msgRead, hj, pure, Except.pure] at hc
    cases hc; exact .idle (Option.some_ne_none _) rfl fun _ => rfl
  | some m =>
    have hm := h.ok _ _ hj
    obtain ⟨sw₁, ret, h₁, ⟨e, rfl, rfl⟩ | ⟨m', R, bs, rfl, mv, -, -⟩⟩ :=
      msgRead_moves (S := S) (H := H) hj hm size
    · rw [h₁] at hc; cases hc; exact .idle (Option.some_ne_none _) rfl fun _ => rfl
    · rw [h₁] at hc; cases hc
      refine .turn j m m' R rfl hj (mv.turn (fun _ _ => ⟨mv.still rfl, Or.inl rfl⟩) ?_)
        fun l out strict y _ => ?_
      · intro _ h; exact absurd rfl h
      · simpa [EndLog.half, EndLog.record] using
          mv.link out l.accepted l.got l.closed strict y

theorem msgClose_eff (h : Slots sw.msgs sw.nextAddr) (hconn : sw.connected = true)
    {r : Except Errno ℕ} (hc : msgClose sw j = .ok (sw', r)) : CallEff S H sw sw' (.close j) (.num r) := by
  cases hj : sw.msgs j with
  | none =>
    simp only [msgClose, hj, pure, Except.pure] at hc
    cases hc; exact .idle (Option.some_ne_none _) rfl fun _ => rfl
  | some m =>
    have hm := h.ok _ _ hj
    rcases msgClose_turn (S := S) (H := H) hj hm hconn with
      ⟨-, h₁⟩ | ⟨hcl, hfr, sw₁, h₁, c⟩ | ⟨hcl, hd, sw₁, m', R, h₁, t, link⟩
    · rw [h₁] at hc; cases hc; exact .idle (Option.some_ne_none _) rfl fun _ => rfl
    · rw [h₁] at hc; cases hc
      refine .freed j m rfl hj c fun l out strict y => ?_
      by_cases hd : m.status.disconnected = true
      · exact Steps.single (Step.free (e := m.view) rfl hd true fun _ => rfl)
      · have hd : m.status.disconnected = false := by simpa using hd
        have hu := hfr.resolve_left (by simp [hd])
        have h₁ := Step.close (S := S) (H := H)
          (x := l.half (.live m.view) out strict) (y := y) (e := m.view) rfl hcl hd
        exact (Steps.single h₁).trans
          (Steps.single (Step.freeUnused (e := { m.view with closed := true, unread := [] }) rfl hu rfl))
    · rw [h₁] at hc; cases hc
      refine .turn j m m' R rfl hj t fun l out strict y hS => ?_
      refine link out l.accepted l.got l.closed strict y fun hst hn hq => ?_
      obtain ⟨hi, ho⟩ := hS hst hd
      intro hinc
      have hp : m.status.packetAvailToWrit = false := by rw [hm.paw, hq]; rfl
      simp [MsgSwitch.closesOwing, hj, hcl, hd, hn, hp, hinc, hi] at ho

theorem msgAccept_eff (h : Slots sw.msgs sw.nextAddr) {r : Except Errno ℕ}
    (hc : msgAccept sw j = .ok (sw', r)) : CallEff S H sw sw' (.accept j) (.num r) := by
  cases hj : sw.msgs j with
  | none =>
    simp only [msgAccept, hj, pure, Except.pure] at hc
    cases hc; exact .idle (Option.some_ne_none _) rfl fun _ => rfl
  | some m =>
    have hm := h.ok _ _ hj
    rcases msgAccept_turn hj hm with ⟨e, h₁⟩ | ⟨-, hd, sw₁, e, h₁, c⟩ | ⟨sw₁, m', h₁, t, hv⟩
    · rw [h₁] at hc; cases hc; exact .idle (Option.some_ne_none _) rfl fun _ => rfl
    · rw [h₁] at hc; cases hc
      exact .freed j m rfl hj c fun l out strict y =>
        Steps.single (Step.free (e := m.view) rfl hd l.closed id)
    · rw [h₁] at hc; cases hc
      refine .turn j m m' [] rfl hj t fun l out strict y _ => ?_
      rw [hv]; simpa [EndLog.record] using Steps.refl _ _

theorem bind_ok {α β : Type} {x : Except Fault α} {f : α → Except Fault β} {b : β}
    (h : (x >>= f) = .ok b) : ∃ a, x = .ok a ∧ f a = .ok b := by
  cases x with
  | error e => cases h
  | ok a => exact ⟨a, rfl, h⟩

/-- **The cases of a call.** -/
theorem Slots.call_eff (h : Slots sw.msgs sw.nextAddr)
    (hconn : sw.connected = true ∨ ∀ i, op ≠ .close i) (hc : sw.call op = .ok (sw', ret)) :
    CallEff S H sw sw' op ret := by
  have hset : ∀ (f : MsgSwitch → ℕ → Except Fault MsgSwitch) (i : ℕ) (sw₁ : MsgSwitch),
      (∀ {m}, sw.msgs i = some m → ∃ sw', f sw i = .ok sw' ∧ Only sw sw' i m [] []) →
      (sw.msgs i = none → f sw i = .error .noMsg) → f sw i = .ok sw₁ →
      op.msgid = some i → (∀ l : EndLog, l.record op ret = l) →
      CallEff S H sw sw₁ op ret := by
    intro f i sw₁ hf hnone hok hop hrec
    cases hi : sw.msgs i with
    | none => rw [hnone hi] at hok; cases hok
    | some m =>
      obtain ⟨sw₂, h₂, o⟩ := hf hi
      rw [h₂] at hok; cases hok
      exact CallEff.of_only h hop hi o hrec
  cases op with
  | «open» type =>
    rcases msgOpen_cases sw type with he | ⟨sw₁, j, h₁, c⟩
    · simp only [MsgSwitch.call, he, bind, Except.bind] at hc; cases hc
    · simp only [MsgSwitch.call, h₁, bind, Except.bind, pure, Except.pure] at hc
      cases hc; exact .opened j type rfl rfl c
  | accept i =>
    obtain ⟨⟨sw₁, r⟩, h₁, h₂⟩ := bind_ok hc
    cases h₂; exact msgAccept_eff h h₁
  | write i buf =>
    obtain ⟨⟨sw₁, r⟩, h₁, h₂⟩ := bind_ok hc
    cases h₂; exact msgWrite_eff h h₁
  | flush i =>
    obtain ⟨⟨sw₁, r⟩, h₁, h₂⟩ := bind_ok hc
    cases h₂; exact msgFlush_eff h h₁
  | read i size =>
    obtain ⟨⟨sw₁, r⟩, h₁, h₂⟩ := bind_ok hc
    cases h₂; exact msgRead_eff h h₁
  | close i =>
    obtain ⟨⟨sw₁, r⟩, h₁, h₂⟩ := bind_ok hc
    cases h₂; exact msgClose_eff h (hconn.resolve_right fun hn => hn i rfl) h₁
  | setRead i =>
    obtain ⟨sw₁, h₁, h₂⟩ := bind_ok hc
    cases h₂
    exact hset msgSetRead i _ msgSetRead_only
      (fun hi => by simp only [msgSetRead, MsgSwitch.assertMsg, hi, bind, Except.bind]) h₁ rfl
      fun _ => rfl
  | clrRead i =>
    obtain ⟨sw₁, h₁, h₂⟩ := bind_ok hc
    cases h₂
    exact hset msgClrRead i _ msgClrRead_only
      (fun hi => by simp only [msgClrRead, MsgSwitch.assertMsg, hi, bind, Except.bind]) h₁ rfl
      fun _ => rfl
  | setWrite i =>
    obtain ⟨sw₁, h₁, h₂⟩ := bind_ok hc
    cases h₂
    exact hset msgSetWrite i _ msgSetWrite_only
      (fun hi => by simp only [msgSetWrite, MsgSwitch.assertMsg, hi, bind, Except.bind]) h₁ rfl
      fun _ => rfl
  | clrWrite i =>
    obtain ⟨sw₁, h₁, h₂⟩ := bind_ok hc
    cases h₂
    exact hset msgClrWrite i _ msgClrWrite_only
      (fun hi => by simp only [msgClrWrite, MsgSwitch.assertMsg, hi, bind, Except.bind]) h₁ rfl
      fun _ => rfl

/-! ## Frames -/

/-- The slot of the msg an id stands for. -/
theorem Slots.get_slot (h : Slots sw.msgs sw.nextAddr) {id : ℤ} (hg : msgGet sw id = some m) :
    sw.msgs m.msgid = some m := by
  have hslot : ∀ i, sw.msgs i = some m → sw.msgs m.msgid = some m := fun i hi => by
    rw [h.msgid _ _ hi]; exact hi
  unfold msgGet at hg
  split_ifs at hg
  · exact hslot _ hg
  · exact hslot _ hg

/-- What a frame can do. -/
inductive DispatchEff (S H : Prop) (sw sw' : MsgSwitch) (frame : Frame) : Prop
  | dropped (resp : MsgResp) (hf : frame = .resp resp) (hg : msgGet sw resp.msgid = none)
      (h : sw' = sw)
  | ignored (resp : MsgResp) (m : Msg) (hf : frame = .resp resp)
      (hg : msgGet sw resp.msgid = some m) (hr : resp.status = .ok)
      (hs : m.status.sentDisconnect = true) (h : sw' = sw)
  | acked (resp : MsgResp) (m m' : Msg) (R : List MsgResp) (hf : frame = .resp resp)
      (hg : msgGet sw resp.msgid = some m) (hr : resp.status = .ok)
      (hs : m.status.sentDisconnect = false) (hw : m.status.waitingForResp = true)
      (t : Turn False (sw.acksBlank frame = true) sw sw' m.msgid m m' R none)
      (link : ∀ (l : EndLog) out strict y, Steps S H
        (l.half (.live { m.view with waiting := false }) out strict) y
        (l.half (.live m'.view) (out ++ R.map MsgResp.item) strict) y)
  | answered (resp : MsgResp) (m m' : Msg) (hf : frame = .resp resp)
      (hg : msgGet sw resp.msgid = some m) (hr : resp.status = .discon)
      (hs : m.status.sentDisconnect = false) (a : Answers sw sw' m.msgid m m')
  | freed (resp : MsgResp) (m : Msg) (hf : frame = .resp resp)
      (hg : msgGet sw resp.msgid = some m) (hr : resp.status = .discon)
      (hs : m.status.sentDisconnect = true)
      (c : Clears sw sw' m.msgid m none (m.unmap sw.imsgidMap))
  | data (p : MsgPacket) (m m' : Msg) (R : List MsgResp) (hf : frame = .pack p)
      (hg : msgGet sw p.msgid = some m) (t : Turn False False sw sw' m.msgid m m' R (some p))
      (link : ∀ (l : EndLog) out strict y rest, m.status.disconnected = false →
        y.out = .data p.data :: rest → (strict = true → m.status.sentDisconnect = false) →
        Steps S H (l.half (.live m.view) out strict) y
          (l.half (.live m'.view) (out ++ R.map MsgResp.item) strict) { y with out := rest })
  | born (p : MsgPacket) (sw₁ : MsgSwitch) (j : ℕ) (m' : Msg) (R : List MsgResp)
      (hf : frame = .pack p) (hg : msgGet sw p.msgid = none) (hneg : p.msgid < 0)
      (c : Creates sw sw₁ j (.fresh sw.nextAddr j p.type false p.msgid.natAbs)
        (Function.update sw.imsgidMap p.msgid.natAbs j))
      (t : Turn False False sw₁ sw' j (.fresh sw.nextAddr j p.type false p.msgid.natAbs) m' R
        (some p))
      (link : ∀ (l : EndLog) out strict y, Steps S H
        (l.half (.live (.fresh p.data)) out strict) y
        (l.half (.live m'.view) (out ++ R.map MsgResp.item) strict) y)

/-- **The cases of a frame.** -/
theorem Slots.dispatch_eff (h : Slots sw.msgs sw.nextAddr) (hc : msgSwitchDispatch sw frame = .ok sw') :
    DispatchEff S H sw sw' frame := by
  cases frame with
  | resp resp =>
    cases hg : msgGet sw resp.msgid with
    | none =>
      simp only [msgSwitchDispatch, hg] at hc
      cases hc; exact .dropped resp rfl hg rfl
    | some m =>
      have hj := h.get_slot hg
      have hm := h.ok _ _ hj
      simp only [msgSwitchDispatch, hg] at hc
      cases hr : resp.status with
      | discon =>
        cases hs : m.status.sentDisconnect with
        | false =>
          obtain ⟨sw₁, m', h₁, a⟩ := msgRecvResp_discon_answers hj hm hr hs
          rw [h₁] at hc; cases hc
          exact .answered resp m m' rfl hg hr hs a
        | true =>
          obtain ⟨sw₁, h₁, c⟩ := msgFree_clears hj
          have hrun : msgRecvResp sw m.msgid resp = .ok sw₁ := by
            simp only [msgRecvResp, MsgSwitch.assertMsg, hj, hr, bind, Except.bind]
            rw [if_neg (by simp [hs]), h₁]
          rw [hrun] at hc; cases hc
          exact .freed resp m rfl hg hr hs c
      | ok =>
        cases hs : m.status.sentDisconnect with
        | true =>
          have hrun : msgRecvResp sw m.msgid resp = .ok sw := by
            simp only [msgRecvResp, MsgSwitch.assertMsg, hj, hr, bind, Except.bind]
            rw [if_pos hs]; rfl
          rw [hrun] at hc; cases hc
          exact .ignored resp m rfl hg hr hs rfl
        | false =>
          cases hw : m.status.waitingForResp with
          | false =>
            have hrun : msgRecvResp sw m.msgid resp = .error .notWaiting := by
              simp only [msgRecvResp, MsgSwitch.assertMsg, hj, hr, bind, Except.bind]
              rw [if_neg (by simp [hs]), if_pos (by simp [hw])]; rfl
            rw [hrun] at hc; cases hc
          | true =>
            obtain ⟨sw₁, m', R, h₁, t, link⟩ := msgRecvResp_ok_turn (S := S)
              (H := H) (L := False) (B := sw.acksBlank (.resp resp) = true)
              hj hm hr hs hw (by
                intro hq hcl p hp hp'
                have hpaw : m.status.packetAvailToWrit = false := by rw [hm.paw, hq]; rfl
                simp [MsgSwitch.acksBlank, hg, hr, hs, hcl, hpaw, Msg.blank, hp, hp'])
            rw [h₁] at hc; cases hc
            exact .acked resp m m' R rfl hg hr hs hw t fun l out strict y =>
              link out l.accepted l.got l.closed strict y
  | pack p =>
    cases hg : msgGet sw p.msgid with
    | some m =>
      have hj := h.get_slot hg
      have hm := h.ok _ _ hj
      simp only [msgSwitchDispatch, hg] at hc
      obtain ⟨sw₁, h₁, t, link⟩ := msgPushReadPacket_turn (S := S)
        (H := H) hj hm p
      rw [h₁] at hc; cases hc
      exact .data p m _ _ rfl hg t fun l out strict y rest =>
        link out l.accepted l.got l.closed strict y rest
    | none =>
      rcases dispatch_new_cases hg with ⟨-, he⟩ | ⟨-, he, -⟩ | ⟨hneg, sw₁, j, hrun, c⟩
      · rw [he] at hc; cases hc
      · rw [he] at hc; cases hc
      · rw [hrun] at hc
        have hj : sw₁.msgs j = some (.fresh sw.nextAddr j p.type false p.msgid.natAbs) := by
          rw [c.msgs]; simp
        obtain ⟨sw₂, h₂, t, -⟩ := msgPushReadPacket_turn (S := S)
          (H := H) hj (MsgOK.fresh _ _ _ _ _) p
        rw [h₂] at hc; cases hc
        refine .born p sw₁ j _ _ rfl hg hneg c t fun l out strict y => ?_
        have hv : ((Msg.fresh sw.nextAddr j p.type false p.msgid.natAbs).pushRead p).view =
            .fresh p.data := by
          simp [Msg.view, Msg.pushRead, Msg.fresh, Link.End.fresh]
        rw [← hv]
        exact upd_link _ _ _ _ _ _ _ fun _ _ => rfl

/-! ## The invariant -/

theorem SwOK.get_slot (h : SwOK strong sw) {id : ℤ} (hg : msgGet sw id = some m) :
    sw.msgs m.msgid = some m :=
  h.slots.get_slot hg

theorem call_eff (h : SwOK strong sw) (hc : sw.call op = .ok (sw', ret)) :
    CallEff S H sw sw' op ret :=
  h.slots.call_eff (Or.inl h.conn) hc

theorem dispatch_eff (h : SwOK strong sw) (hc : msgSwitchDispatch sw frame = .ok sw') :
    DispatchEff S H sw sw' frame :=
  h.slots.dispatch_eff hc

theorem SwOK.call (h : SwOK strong sw) (hc : sw.call op = .ok (sw', ret)) : SwOK strong sw' := by
  cases call_eff (S := True) (H := True) h hc with
  | idle _ he _ => rw [he]; exact h
  | turn j m m' R hop hj t _ => exact h.turn hj t
  | freed j m hop hj c _ => exact h.clears hj c
  | opened j type hop hret c => exact h.creates (k := 0) (by simpa using c) fun h => absurd rfl h

/-- The id of a packet that creates a msg has no entry. -/
theorem Tables.unmapped (h : Tables sw) {id : ℤ} (hneg : id < 0) (hg : msgGet sw id = none) :
    sw.imsgidMap id.natAbs = 0 := by
  by_contra hne
  obtain ⟨m, hm, -⟩ := h.maps.target _ hne
  unfold msgGet at hg
  rw [if_neg (by omega), if_neg (by omega), if_pos hne, hm] at hg
  cases hg

theorem SwOK.dispatch (h : SwOK strong sw) (hc : msgSwitchDispatch sw frame = .ok sw')
    (hD : strong → sw.dropsWriting frame = false) : SwOK strong sw' := by
  cases dispatch_eff (S := True) (H := True) h hc with
  | dropped resp hf hg he => rw [he]; exact h
  | ignored resp m hf hg hr hs he => rw [he]; exact h
  | acked resp m m' R hf hg hr hs hw t _ => exact h.turn (h.get_slot hg) t
  | answered resp m m' hf hg hr hs a =>
    refine h.answers (h.get_slot hg) a fun hst hp => ?_
    have := hD hst
    simpa [MsgSwitch.dropsWriting, hf, hg, hr, hs, hp] using this
  | freed resp m hf hg hr hs c => exact h.clears (h.get_slot hg) c
  | data p m m' R hf hg t _ => exact h.turn (h.get_slot hg) t
  | born p sw₁ j m' R hf hg hneg c t _ =>
    have hk : p.msgid.natAbs ≠ 0 := by omega
    have h₁ : SwOK strong sw₁ := h.creates (k := p.msgid.natAbs) (by rwa [if_neg hk])
      fun _ => h.toTables.unmapped hneg hg
    exact h₁.turn (by rw [c.msgs]; simp) t

theorem SwOK.write (h : SwOK strong sw) (hc : msgSwitchWrite sw = .ok (sw', frame)) :
    SwOK strong sw' := by
  rcases msgSwitchWrite_cases h.slots hc with
    ⟨r, rest, hr, -, rfl⟩ | ⟨m, p, rest, tail, sw₁, -, hp, hj, hq, -, rfl, o⟩
  · exact h.responds hr
  · exact h.pops hp hj hq o

end Zimr
