import Zimr.Proof.Local

/-!
# Closing, responses and packets

What `msg_close`, a response and a data packet do to the msg they are about.

* `msgClose_turn` — the msg is freed, or closed with its disconnect sent or to come
* `msgRecvResp_ok_turn`, `msgRecvResp_discon`, `msgPushReadPacket_turn` — a frame
* `msgPopWritPacket_spec` — a write event
-/

namespace Zimr

open Link (Item Step Steps Half)

variable {sw sw₁ sw₂ : MsgSwitch} {j : ℕ} {m m₁ m₂ : Msg} {S H : Prop}

/-- Empty packets are queued only by a closed msg, behind all others. What a
disconnected msg queues is never sent. -/
structure DenseQueue (m : Msg) : Prop where
  closed : m.status.disconnected = false → ∀ p ∈ m.writQueue, p.data = [] → m.status.closed = true
  last : m.status.disconnected = false → ∀ p ∈ m.writQueue.dropLast, p.data ≠ []

/-- From `sw` to `sw'` the msg in slot `j` went from `m` to `m'` and the responses `R`
were queued; `rp` is the packet received. `L` is the flush of a disconnected msg,
`B` the queueing of an empty packet by a msg that is not closed. -/
structure Turn (L B : Prop) (sw sw' : MsgSwitch) (j : ℕ) (m m' : Msg) (R : List MsgResp)
    (rp : Option MsgPacket) : Prop where
  only : Only sw sw' j m' R (if !m.status.writing && m'.status.writing then [m.ptr] else [])
  ok : MsgOK m'
  ptr : m'.ptr = m.ptr
  imsgid : m'.imsgid = m.imsgid
  disc : m'.status.disconnected = m.status.disconnected
  closed : m.status.closed = true → m'.status.closed = true
  mark : m'.status.closed = true → m.status.closed = true ∨ m.status.disconnected = false
  sent : m.status.sentDisconnect = true → m'.status.sentDisconnect = true
  writing : m.status.writing = true → m'.status.writing = true
  resps : ∀ r ∈ R, r.owner = m.addr ∧ r.msgid = m.wireId ∧ m.status.disconnected = false
  reads : ∀ p ∈ m'.readQueue, p ∈ m.readQueue ∨ rp = some p
  length : m'.readQueue.length ≤ m.readQueue.length + rp.toList.length
  /-- What an acknowledgement is for, is where the last packet came from. -/
  source : ∀ G : Option ℕ → Prop, (m.status.needToSendResp = true → G m.lastFrom) →
    (∀ p, rp = some p → G (some p.owner)) →
    (m'.status.needToSendResp = true → G m'.lastFrom) ∧ ∀ r ∈ R, r.status = .ok → G r.ackOf
  quiet : m.status.sentDisconnect = true → ¬ L → m'.status.writing = m.status.writing ∧
    (m'.writQueue = m.writQueue ∨ m.ptr ∉ sw.pendingMsgs)
  shut : m.status.sentDisconnect = false → m'.status.sentDisconnect = true → m'.writQueue = []
  dense : ¬ B → DenseQueue m → DenseQueue m'

variable {L B : Prop}

/-- The flags `msg_set_read` and the like touch are not part of it. -/
theorem Turn.of_only (h : Only sw sw₁ j m [] []) (hm : MsgOK m) :
    Turn L B sw sw₁ j m m [] none where
  only := by simpa using h
  ok := hm
  ptr := rfl
  imsgid := rfl
  disc := rfl
  closed := id
  mark := Or.inl
  sent := id
  writing := id
  resps := by simp
  reads := fun _ hp => Or.inl hp
  length := by simp
  source := fun _ hn _ => ⟨hn, by simp⟩
  quiet := fun _ _ => ⟨rfl, Or.inl rfl⟩
  shut := fun h h' => by rw [h] at h'; cases h'
  dense := fun _ h => h

/-- A call that moves bytes. -/
theorem Moves.turn {R : List MsgResp} {Q : List MsgPacket} {w r : List UInt8}
    (h : Moves S H sw sw₁ j m m₁ R Q w r)
    (hquiet : m.status.sentDisconnect = true → ¬ L →
      m₁.status.writing = m.status.writing ∧ (Q = [] ∨ m.ptr ∉ sw.pendingMsgs))
    (hdense : ¬ B → Q ≠ [] → m.status.disconnected = false →
      m.status.closed = false ∧ ∀ p ∈ Q, p.data ≠ []) :
    Turn L B sw sw₁ j m m₁ R none where
  only := h.only
  ok := h.ok
  ptr := h.ptr
  imsgid := h.imsgid
  disc := h.disc
  closed := fun hc => h.closed.trans hc
  mark := fun hc => Or.inl (h.closed.symm.trans hc)
  sent := fun hs => h.sent.trans hs
  writing := h.writing
  resps := fun r hr => by
    obtain ⟨-, hd, rfl⟩ := h.resps r hr
    exact ⟨rfl, rfl, hd⟩
  reads := fun p hp => Or.inl (h.reads.subset hp)
  length := by simpa using h.reads.length_le
  source := fun G hn _ => ⟨fun hn' => h.from_last ▸ hn (h.need hn'), fun r hr _ => by
    obtain ⟨hn', -, rfl⟩ := h.resps r hr
    exact hn hn'⟩
  quiet := fun hs hl => by
    obtain ⟨hw, hQ⟩ := hquiet hs hl
    refine ⟨hw, hQ.imp ?_ id⟩
    rintro rfl
    simp [h.writs]
  shut := fun hs hs' => by rw [h.sent, hs] at hs'; cases hs'
  dense := fun hb hd => by
    cases hQ : Q with
    | nil =>
      have hw : m₁.writQueue = m.writQueue := by simp [h.writs, hQ]
      exact ⟨fun hdc p hp hp' => h.closed.trans (hd.closed (h.disc.symm.trans hdc) p (hw ▸ hp) hp'),
        fun hdc => hw ▸ hd.last (h.disc.symm.trans hdc)⟩
    | cons q Q' =>
      have hall : m₁.status.disconnected = false → ∀ p ∈ m₁.writQueue, p.data ≠ [] := by
        intro hdc p hp hp'
        have hdc := h.disc.symm.trans hdc
        obtain ⟨hc, hne⟩ := hdense hb (by simp [hQ]) hdc
        rw [h.writs] at hp
        rcases List.mem_append.1 hp with hp | hp
        · exact absurd (hd.closed hdc p hp hp') (by simp [hc])
        · exact hne p hp hp'
      exact ⟨fun hdc p hp hp' => absurd hp' (hall hdc p hp),
        fun hdc p hp => hall hdc p (List.mem_of_mem_dropLast hp)⟩

/-! ## `msg_set_read` and the like -/

/-- The active sets are not looked at by anything but `msg_check_selectability`. -/
theorem check_active_only (h : sw.msgs j = some m) (rd wr : ℕ → Bool) (hash : FdHash) :
    ∃ sw', msgCheckSelectability { sw with
        activeReadFdSet := rd, activeWriteFdSet := wr, activeHash := hash } j = .ok sw' ∧
      Only sw sw' j m [] [] := by
  have h' : ({ sw with activeReadFdSet := rd, activeWriteFdSet := wr, activeHash := hash } :
      MsgSwitch).msgs j = some m := h
  obtain ⟨sw', hs, o⟩ := msgCheckSelectability_only h'
  exact ⟨sw', hs, o.msgs, o.resps, o.pend, o.armed, o.map, o.next, o.conn⟩

theorem msgSetRead_only (h : sw.msgs j = some m) :
    ∃ sw', msgSetRead sw j = .ok sw' ∧ Only sw sw' j m [] [] := by
  simpa only [msgSetRead, MsgSwitch.assertMsg, h, bind, Except.bind] using check_active_only h _ _ _

theorem msgClrRead_only (h : sw.msgs j = some m) :
    ∃ sw', msgClrRead sw j = .ok sw' ∧ Only sw sw' j m [] [] := by
  simpa only [msgClrRead, MsgSwitch.assertMsg, h, bind, Except.bind] using check_active_only h _ _ _

theorem msgSetWrite_only (h : sw.msgs j = some m) :
    ∃ sw', msgSetWrite sw j = .ok sw' ∧ Only sw sw' j m [] [] := by
  simpa only [msgSetWrite, MsgSwitch.assertMsg, h, bind, Except.bind] using check_active_only h _ _ _

theorem msgClrWrite_only (h : sw.msgs j = some m) :
    ∃ sw', msgClrWrite sw j = .ok sw' ∧ Only sw sw' j m [] [] := by
  simpa only [msgClrWrite, MsgSwitch.assertMsg, h, bind, Except.bind] using check_active_only h _ _ _

/-! ## `msg_close` -/

/-- The object with nothing left to read. -/
def Msg.drained (m : Msg) : Msg :=
  { m with
    readQueue := []
    curReadPacketPos := if m.readQueue.isEmpty then m.curReadPacketPos else 0
    status := { m.status with
      packetAvailToRead := false, spaceAvailForRead := true, needToSendResp := false } }

/-- The loop of `msg_close` empties `read_queue` and acknowledges what was owed. -/
theorem msgDrainRead_only : ∀ (n : ℕ) (sw : MsgSwitch) (m : Msg), sw.msgs j = some m →
    m.readQueue.length < n → m.starts = false → m.status.disconnected = false →
    m.status.packetAvailToRead = !m.readQueue.isEmpty →
    m.status.spaceAvailForRead = decide (m.readQueue.length < msgNBuffPacketsAllowed) →
    (m.status.needToSendResp = true → m.status.spaceAvailForRead = false) →
    ∃ sw', msgDrainRead n sw j = .ok sw' ∧
      Only sw sw' j m.drained (if m.status.needToSendResp then [m.resp .ok] else []) [] := by
  intro n
  induction n with
  | zero => intro sw m _ hl; omega
  | succ n ih =>
    intro sw m h hl hst hd hpar hsp hneed
    rw [msgDrainRead]
    simp only [MsgSwitch.assertMsg, h, bind, Except.bind]
    cases hq : m.readQueue with
    | nil =>
      have hs : m.status.spaceAvailForRead = true := by rw [hsp, hq]; decide
      have hn : m.status.needToSendResp = false := by
        cases hn : m.status.needToSendResp with
        | false => rfl
        | true => rw [hneed hn] at hs; cases hs
      have hp : m.status.packetAvailToRead = false := by rw [hpar, hq]; rfl
      have hm : m.drained = m := by
        cases m with
        | mk addr msgid imsgid type status nWrit nRead inc pos rq wq lf =>
          cases status
          simp_all [Msg.drained]
      rw [hp, hn, hm]
      exact ⟨sw, rfl, Only.refl h⟩
    | cons p rest =>
      have hp : m.status.packetAvailToRead = true := by rw [hpar, hq]; rfl
      obtain ⟨sw₁, h₁, o₁⟩ := msgPopReadPacket_only h
      have hst₁ : m.popRead.starts = false := hst
      simp only [Msg.updPtrs, hst₁] at o₁
      have hacks : m.popRead.acks =
          (m.status.needToSendResp && decide (rest.length < msgNBuffPacketsAllowed)) := by
        simp only [Msg.acks, Msg.popRead, hq, List.tail_cons, hd]
        cases hn : m.status.needToSendResp with
        | false => rfl
        | true => simp [hneed hn]
      set b := decide (rest.length < msgNBuffPacketsAllowed) with hb
      have hupd : m.popRead.upd = { m with
          readQueue := rest
          curReadPacketPos := 0
          status := { m.status with
            packetAvailToRead := !rest.isEmpty
            spaceAvailForRead := b
            needToSendResp := m.status.needToSendResp && !b } } := by
        have hsb : (if !decide (msgNBuffPacketsAllowed ≤ rest.length) then true
            else m.status.spaceAvailForRead) = b := by
          rw [hsp, hq, List.length_cons, hb]
          by_cases hr : msgNBuffPacketsAllowed ≤ rest.length
          · simp [hr]; omega
          · simp [hr]; omega
        have hpb : (if !decide (1 ≤ rest.length) then false else m.status.packetAvailToRead) =
            !rest.isEmpty := by
          rw [hp]; cases rest <;> simp
        have hnb : (m.status.needToSendResp && !(m.status.needToSendResp && b)) =
            (m.status.needToSendResp && !b) := by
          cases m.status.needToSendResp <;> rfl
        simp only [Msg.upd, hst₁, hacks, Bool.or_false]
        simp only [Msg.popRead, hq, List.tail_cons, hsb, hpb, hnb]
      obtain ⟨sw₂, h₂, o₂⟩ := ih sw₁ m.popRead.upd o₁.get
        (by rw [hupd]; rw [hq, List.length_cons] at hl; simpa using hl)
        (by rw [hupd]; exact hst) hd (by rw [hupd]) (by rw [hupd])
        (by rw [hupd]; intro hn; simpa using Bool.and_elim_right hn)
      refine ⟨sw₂, by simp only [hp, if_true, h₁, h₂], ?_⟩
      have hm : m.popRead.upd.drained = m.drained := by
        rw [hupd]; simp [Msg.drained, hq]
      have hR : m.popRead.updResps ++ (if m.popRead.upd.status.needToSendResp then
          [m.popRead.upd.resp .ok] else []) =
          if m.status.needToSendResp then [m.resp .ok] else [] := by
        have hr₁ : m.popRead.resp .ok = m.resp .ok := rfl
        have hr₂ : m.popRead.upd.resp .ok = m.resp .ok := rfl
        rw [hr₂, hupd]
        simp only [Msg.updResps, hacks, hr₁]
        cases m.status.needToSendResp <;> cases b <;> rfl
      have := o₁.trans o₂
      rw [hm, hR] at this
      simpa using this

/-- The object as `msg_close` marks it. -/
def Msg.closing (m : Msg) : Msg :=
  { m with status := { m.status with
      closed := true, sentDisconnect := !m.status.packetAvailToWrit } }

theorem MsgOK.closing_drained (hm : MsgOK m) (hinc : m.incompleteWritPacket = none)
    (hd : m.status.disconnected = false) : MsgOK m.closing.drained where
  paw := hm.paw
  par := fun h => by cases h
  closed_read := fun _ => rfl
  space := fun _ => rfl
  need := fun h => by cases h
  full := fun _ h => absurd h (by simp [Msg.drained, msgNBuffPacketsAllowed])
  closed_inc := fun _ => hinc
  sent := fun _ => Or.inl rfl
  disc := fun h => by rw [show m.closing.drained.status.disconnected = _ from hd] at h; cases h
  queued := hm.queued
  writing := hm.writing
  closing := fun _ h => by
    have hp : m.status.packetAvailToWrit = true := by simpa [Msg.drained, Msg.closing] using h
    have := hm.paw
    rw [hp] at this
    exact Or.inl fun hq => by simp [Msg.drained, Msg.closing] at hq; simp [hq] at this
  used := hm.used
  inc_size := hm.inc_size
  pos := fun h => by cases h
  ids := hm.ids
  wspace := hm.wspace

/-- The responses `msg_close` queues. -/
def Msg.closeResps (m : Msg) : List MsgResp :=
  (if m.status.packetAvailToWrit then [] else [m.resp .discon]) ++
    if m.status.needToSendResp then [m.resp .ok] else []

theorem closing_link (hm : MsgOK m) (hinc : m.incompleteWritPacket = none)
    (hc : m.status.closed = false) (hd : m.status.disconnected = false)
    (hu : m.status.packetAvailToWrit = false → m.view.used = true)
    (out : List (Item UInt8)) (acc got : List UInt8) (clo strict : Bool) (y : Half UInt8)
    (hS : strict = true → m.status.needToSendResp = true → m.status.packetAvailToWrit = true) :
    Steps S H ⟨.live m.view, out, acc, got, clo, strict⟩ y
      ⟨.live m.closing.drained.view, out ++ m.closeResps.map MsgResp.item, acc, got, true, strict⟩
      y := by
  have hsent : m.status.sentDisconnect = false := by
    cases hs : m.status.sentDisconnect with
    | false => rfl
    | true => rcases hm.sent hs with h | h <;> simp_all
  have hv : m.closing.drained.view = { m.view with
      closed := true, unread := [], hollow := false, sent := !m.status.packetAvailToWrit,
      need := false } := by
    simp [Msg.view, Msg.closing, Msg.drained]
  have hR : m.closeResps.map MsgResp.item =
      (if !m.status.packetAvailToWrit then [Item.discon] else []) ++
        if m.view.need then [Item.ok] else [] := by
    have : m.view.need = m.status.needToSendResp := rfl
    rw [this]
    simp only [Msg.closeResps]
    cases m.status.packetAvailToWrit <;> cases m.status.needToSendResp <;> rfl
  rw [hv, hR]
  refine Steps.close _ _ _ _ _ _ _ _ hc hd hsent (fun hp => ?_) (fun hst hn => by simp [hS hst hn])
  have hp : m.status.packetAvailToWrit = false := by simpa using hp
  have hq : m.writQueue = [] := by simpa [hp] using hm.paw.symm
  exact ⟨by simp [Msg.view, hq, hinc], hu hp⟩

/-- Clearing after a change that leaves the queues alone. -/
theorem Clears.of_only {o : Option Msg} {map : ℕ → ℕ} {sw' : MsgSwitch}
    (h : Only sw sw₁ j m₁ [] []) (c : Clears sw₁ sw' j m₁ o map) (hp : m₁.ptr = m.ptr)
    (hw : m₁.status.writing = m.status.writing) : Clears sw sw' j m o map where
  msgs := by rw [c.msgs, h.msgs, Function.update_idem]
  resps := by rw [c.resps, h.resps]; simp
  pend := by
    have : sw₁.pendingMsgs = sw.pendingMsgs := by simpa using h.pend
    rw [c.pend, this]; simp only [Msg.unqueue, hp, hw]
  armed := fun ha => c.armed (by simpa [msgSwitchHasAvailWrits, h.armed, h.resps, h.pend] using ha)
  map := c.map
  next := by rw [c.next, h.next]
  conn := by rw [c.conn, h.conn]

/-- `msg_close` from where it has flushed: `msg` is the object then. -/
def msgCloseTail (sw : MsgSwitch) (msgid : ℕ) (msg : Msg) :
    Except Fault (MsgSwitch × Except Errno ℕ) := do
  let msg := { msg with status.closed := true }
  let sw := sw.set msgid (some msg)
  if !msg.status.packetAvailToWrit then
    if msg.nWrit = 0 && msg.nRead = 0 then
      return (← msgFree sw msgid, .ok 0)
    let sw ← msgSendResp sw msgid .discon
    let sw := sw.set msgid (some { msg with status.sentDisconnect := true })
    return (← msgDrainRead (msg.readQueue.length + 1) sw msgid, .ok 0)
  return (← msgDrainRead (msg.readQueue.length + 1) sw msgid, .ok 0)

theorem msgCloseTail_free (sw : MsgSwitch) (hp : m.status.packetAvailToWrit = false)
    (hw : m.nWrit = 0) (hr : m.nRead = 0) :
    ∃ sw', msgCloseTail sw j m = .ok (sw', .ok 0) ∧
      Clears sw sw' j m none (m.unmap sw.imsgidMap) := by
  have o := Only.set sw j { m with status.closed := true }
  obtain ⟨sw', hf, c⟩ := msgFree_clears o.get
  refine ⟨sw', ?_, Clears.of_only o c rfl rfl⟩
  simp only [msgCloseTail, bind, Except.bind, pure, Except.pure]
  rw [if_pos (by simp [hp]), if_pos (by simp [hw, hr]), hf]

theorem msgCloseTail_mark (hm : MsgOK m) (hc : m.status.closed = false)
    (hd : m.status.disconnected = false)
    (hu : m.status.packetAvailToWrit = false → m.view.used = true) (sw : MsgSwitch) :
    ∃ sw', msgCloseTail sw j m = .ok (sw', .ok 0) ∧
      Only sw sw' j m.closing.drained m.closeResps [] := by
  have hdrain : ∀ sw₁, sw₁.msgs j = some m.closing → ∃ sw',
      msgDrainRead (m.readQueue.length + 1) sw₁ j = .ok sw' ∧
      Only sw₁ sw' j m.closing.drained (if m.status.needToSendResp then [m.resp .ok] else []) [] :=
    fun sw₁ h₁ => msgDrainRead_only _ sw₁ m.closing h₁ (Nat.lt_succ_self _) hm.starts_eq hd
      (hm.par hc) (hm.space hd) fun hn => hm.need hn hd
  have o := Only.set sw j { m with status.closed := true }
  cases hp : m.status.packetAvailToWrit with
  | true =>
    have hcl : ({ m with status.closed := true } : Msg) = m.closing := by
      have hs : m.status.sentDisconnect = false := by
        cases hs : m.status.sentDisconnect with
        | false => rfl
        | true => rcases hm.sent hs with h | h <;> simp_all
      simp only [Msg.closing, hp, Bool.not_true, ← hs]
    rw [hcl] at o
    obtain ⟨sw', hdr, o'⟩ := hdrain _ o.get
    refine ⟨sw', ?_, by simpa [Msg.closeResps, hp] using o.trans o'⟩
    simp only [msgCloseTail, bind, Except.bind, pure, Except.pure]
    rw [if_neg (by simp [hp]), hcl, hdr]
  | false =>
    obtain ⟨sw₁, h₁, o₁⟩ := msgSendResp_discon_only o.get
    have hcl : ({ ({ m with status.closed := true } : Msg) with status.sentDisconnect := true } :
        Msg) = m.closing := by simp only [Msg.closing, hp, Bool.not_false]
    obtain ⟨sw', hdr, o'⟩ := hdrain (sw₁.set j (some m.closing)) (Only.set _ _ _).get
    refine ⟨sw', ?_, ?_⟩
    · have hnu : (decide (m.nWrit = 0) && decide (m.nRead = 0)) = false := by
        have := hu hp
        simp only [Msg.view] at this
        grind
      simp only [msgCloseTail, bind, Except.bind, pure, Except.pure]
      rw [if_pos (by simp [hp]), if_neg (by simp [hnu]), h₁]
      simp only
      rw [hcl, hdr]
    · have := ((o.trans o₁).trans (Only.set sw₁ j m.closing)).trans o'
      have hR : m.closeResps = [m.resp .discon] ++
          if m.status.needToSendResp then [m.resp .ok] else [] := by simp [Msg.closeResps, hp]
      rw [hR]
      exact this

/-- A msg that is neither closed nor disconnected has not sent its disconnect. -/
theorem MsgOK.not_sent (hm : MsgOK m) (hc : m.status.closed = false)
    (hd : m.status.disconnected = false) : m.status.sentDisconnect = false := by
  cases hs : m.status.sentDisconnect with
  | false => rfl
  | true => rcases hm.sent hs with h | h <;> simp_all

/-- A msg that has not sent its disconnect has not received one. -/
theorem MsgOK.not_disc (hm : MsgOK m) (hs : m.status.sentDisconnect = false) :
    m.status.disconnected = false := by
  cases hd : m.status.disconnected with
  | false => rfl
  | true => rw [(hm.disc hd).1] at hs; cases hs

/-- **`msg_close`.** Refused, or the msg is freed, or it is marked. -/
theorem msgClose_turn (h : sw.msgs j = some m) (hm : MsgOK m) (hconn : sw.connected = true) :
    (m.status.closed = true ∧ msgClose sw j = .ok (sw, .error .ebadmsg)) ∨
    (m.status.closed = false ∧ (m.status.disconnected = true ∨ m.view.used = false) ∧
      ∃ sw', msgClose sw j = .ok (sw', .ok 0) ∧
        Clears sw sw' j m none (m.unmap sw.imsgidMap)) ∨
    (m.status.closed = false ∧ m.status.disconnected = false ∧
      ∃ sw' m' R, msgClose sw j = .ok (sw', .ok 0) ∧ Turn L B sw sw' j m m' R none ∧
        ∀ out acc got clo strict y, (strict = true → m.status.needToSendResp = true →
            m.writQueue = [] → m.incompleteWritPacket ≠ none) →
          Steps S H ⟨.live m.view, out, acc, got, clo, strict⟩ y
            ⟨.live m'.view, out ++ R.map MsgResp.item, acc, got, true, strict⟩ y) := by
  obtain ⟨sw₁, h₁, o₁⟩ := msgClrRead_only h
  obtain ⟨sw₂, h₂, o₂⟩ := msgClrWrite_only o₁.get
  have o : Only sw sw₂ j m [] [] := by simpa using o₁.trans o₂
  have hconn₂ : sw₂.connected = true := o.conn.trans hconn
  cases hc : m.status.closed with
  | true => exact Or.inl ⟨rfl, by simp [msgClose, h, hc, pure, Except.pure]⟩
  | false =>
    refine Or.inr ?_
    cases hd : m.status.disconnected with
    | true =>
      obtain ⟨sw', hf, c⟩ := msgFree_clears o.get
      refine Or.inl ⟨rfl, Or.inl rfl, sw', ?_, ?_⟩
      · simp [msgClose, h, hc, h₁, h₂, hd, hf, bind, Except.bind, pure, Except.pure]
      · rw [o.map] at c
        exact Clears.of_only o c rfl rfl
    | false =>
      obtain ⟨sw₃, m₁, ret, hfl, mv, hinc, -⟩ :=
        msgFlush_moves (S := S) (H := H) o.get hm
      have hrun : msgClose sw j = msgCloseTail sw₃ j m₁ := by
        simp only [msgClose, h, hc, h₁, h₂, hd, hconn₂, hfl, MsgSwitch.assertMsg, mv.only.get, bind,
          Except.bind]
        rfl
      have hc₁ := mv.closed.trans hc
      have hd₁ := mv.disc.trans hd
      -- with nothing to write there was nothing to flush
      have hnone : m₁.status.packetAvailToWrit = false → m.writQueue = [] ∧
          m.incompleteWritPacket = none := by
        intro hp
        have hq : m₁.writQueue = [] := by simpa [hp] using mv.ok.paw.symm
        rw [mv.writs, List.append_eq_nil_iff] at hq
        exact ⟨hq.1, by simpa using hq.2⟩
      have hsame : m₁.status.packetAvailToWrit = false → sw₃ = sw₂ ∧ m₁ = m := by
        intro hp
        have hfl' : Except.ok (sw₂, Except.ok 0) = (Except.ok (sw₃, ret) : Except Fault _) := by
          rw [← hfl]; simp [msgFlush, o.get, hc, (hnone hp).2, pure, Except.pure]
        have hsw : sw₂ = sw₃ := by injection hfl' with hfl'; exact congrArg Prod.fst hfl'
        refine ⟨hsw.symm, Option.some.inj ?_⟩
        rw [← mv.only.get, ← hsw, o.get]
      by_cases hfr : m₁.status.packetAvailToWrit = false ∧ m₁.nWrit = 0 ∧ m₁.nRead = 0
      · obtain ⟨hp, hw0, hr0⟩ := hfr
        obtain ⟨rfl, rfl⟩ := hsame hp
        obtain ⟨sw', hf, c⟩ := msgCloseTail_free (j := j) sw₃ hp hw0 hr0
        rw [o.map] at c
        exact Or.inl ⟨rfl, Or.inr (by simp [Msg.view, hw0, hr0]), sw', hrun.trans hf,
          Clears.of_only o c rfl rfl⟩
      · have hu : m₁.status.packetAvailToWrit = false → m₁.view.used = true := by
          intro hp
          have : ¬ (m₁.nWrit = 0 ∧ m₁.nRead = 0) := fun h => hfr ⟨hp, h⟩
          simp only [Msg.view]
          grind
        obtain ⟨sw', hf, o'⟩ := msgCloseTail_mark (j := j) mv.ok hc₁ hd₁ hu sw₃
        refine Or.inr ⟨rfl, rfl, sw', m₁.closing.drained, m₁.closeResps, hrun.trans hf, ?_, ?_⟩
        · have hp := mv.ptr
          simp only [Msg.ptr, MsgPtr.mk.injEq] at hp
          have hwid := Msg.wireId_congr mv.ptr mv.imsgid
          have hres : ∀ st, m₁.resp st = m.resp st := by
            intro st; simp only [Msg.resp, hwid, hp.1, mv.from_last]
          refine ⟨?_, mv.ok.closing_drained hinc hd₁, mv.ptr, mv.imsgid, mv.disc, fun _ => rfl,
            fun _ => Or.inr hd, ?_,
            mv.writing, ?_, by simp [Msg.drained], by simp [Msg.drained], ?_, ?_, ?_, ?_⟩
          · have hw : m₁.closing.drained.status.writing = m₁.status.writing := rfl
            have := (o.trans mv.only).trans o'
            rw [hw]
            simpa using this
          · intro hs; rw [hm.not_sent hc hd] at hs; cases hs
          · intro r hr
            have : r = m.resp .discon ∨ r = m.resp .ok := by
              simp only [Msg.closeResps, hres, List.mem_append] at hr
              grind
            rcases this with rfl | rfl <;> exact ⟨rfl, rfl, hd⟩
          · refine fun G hn _ => ⟨fun h => Bool.noConfusion h, fun r hr hst => ?_⟩
            simp only [Msg.closeResps, hres, List.mem_append] at hr
            rcases hr with hr | hr
            · split_ifs at hr
              · simp at hr
              · rw [List.mem_singleton.1 hr] at hst; cases hst
            · split_ifs at hr with hn'
              · rw [List.mem_singleton.1 hr]; exact hn (mv.need hn')
              · simp at hr
          · intro hs; rw [hm.not_sent hc hd] at hs; cases hs
          · intro _ hs
            have hp : m₁.status.packetAvailToWrit = false := by
              simpa [Msg.drained, Msg.closing] using hs
            have hq : m₁.writQueue = [] := by simpa [hp] using mv.ok.paw.symm
            exact hq
          · intro _ hdq
            refine ⟨fun _ _ _ _ => rfl, fun _ p hp hp' => ?_⟩
            -- every packet but the one just flushed was queued by an open msg
            have hp : p ∈ (m.writQueue ++ m.incompleteWritPacket.toList).dropLast := by
              rw [← mv.writs]; exact hp
            have hmem : p ∈ m.writQueue := by
              cases hi : m.incompleteWritPacket with
              | none => rw [hi] at hp; simpa using List.mem_of_mem_dropLast hp
              | some q => rw [hi] at hp; simpa using hp
            exact absurd (hdq.closed hd p hmem hp') (by simp [hc])
        · intro out acc got clo strict y hS
          have hfl := mv.link out acc got clo strict y
          simp only [List.append_nil, List.map_nil] at hfl
          refine hfl.trans (closing_link mv.ok hinc hc₁ hd₁ hu out acc got clo strict y ?_)
          intro hst hn
          by_contra hp
          have hp : m₁.status.packetAvailToWrit = false := by simpa using hp
          exact hS hst (mv.need hn) (hnone hp).1 (hnone hp).2

/-! ## `msg_accept` -/

theorem MsgOK.connected (hm : MsgOK m) : MsgOK { m with status.connected := true } :=
  ⟨hm.paw, hm.par, hm.closed_read, hm.space, hm.need, hm.full, hm.closed_inc, hm.sent, hm.disc,
    hm.queued, hm.writing, hm.closing, hm.used, hm.inc_size, hm.pos, hm.ids, hm.wspace⟩

theorem Turn.connected (o : Only sw sw₁ j { m with status.connected := true } [] []) (hm : MsgOK m) :
    Turn L B sw sw₁ j m { m with status.connected := true } [] none where
  only := by simpa using o
  ok := hm.connected
  ptr := rfl
  imsgid := rfl
  disc := rfl
  closed := id
  mark := Or.inl
  sent := id
  writing := id
  resps := by simp
  reads := fun _ hp => Or.inl hp
  length := by simp
  source := fun _ hn _ => ⟨hn, by simp⟩
  quiet := fun _ _ => ⟨rfl, Or.inl rfl⟩
  shut := fun h h' => by rw [show _ = _ from h] at h'; cases h'
  dense := fun _ h => ⟨h.closed, h.last⟩

/-- **`msg_accept`.** Refused, or a disconnected msg is freed, or the msg is connected. -/
theorem msgAccept_turn (h : sw.msgs j = some m) (hm : MsgOK m) :
    (∃ e, msgAccept sw j = .ok (sw, .error e)) ∨
    (m.status.closed = false ∧ m.status.disconnected = true ∧
      ∃ sw' e, msgAccept sw j = .ok (sw', .error e) ∧
        Clears sw sw' j m none (m.unmap sw.imsgidMap)) ∨
    ∃ sw' m', msgAccept sw j = .ok (sw', .ok j) ∧ Turn L B sw sw' j m m' [] none ∧
      m'.view = m.view := by
  simp only [msgAccept, h, bind, Except.bind, pure, Except.pure]
  by_cases hc : m.status.closed = true
  · rw [if_pos hc]; exact Or.inl ⟨_, rfl⟩
  by_cases hcon : m.status.connected = true
  · rw [if_neg hc, if_pos hcon]; exact Or.inl ⟨_, rfl⟩
  by_cases hd : m.status.disconnected = true
  · obtain ⟨sw', hf, c⟩ := msgFree_clears h
    rw [if_neg hc, if_neg hcon, if_pos hd, hf]
    exact Or.inr (Or.inl ⟨by simpa using hc, hd, sw', _, rfl, c⟩)
  · have o₁ := Only.set sw j { m with status.connected := true }
    obtain ⟨sw', hs, o₂⟩ := check_active_only o₁.get sw.activeReadFdSet sw.activeWriteFdSet
      (fdHashRemove sw.activeHash j)
    simp only [MsgSwitch.set] at hs
    simp only [MsgSwitch.set]
    rw [if_neg hc, if_neg hcon, if_neg hd, hs]
    exact Or.inr (Or.inr ⟨sw', _, rfl, Turn.connected (by simpa using o₁.trans o₂) hm, rfl⟩)

/-! ## Frames -/

/-- `msg_update_status` leaves a msg in order alone. -/
theorem MsgOK.upd_eq (hm : MsgOK m) : m.upd = m ∧ m.updResps = [] ∧ m.updPtrs = [] := by
  have ha := hm.acks_eq
  have hs := hm.starts_eq
  refine ⟨?_, by simp [Msg.updResps, ha], by simp [Msg.updPtrs, hs]⟩
  simp only [Msg.upd, ha, hs, Bool.not_false, Bool.and_true, Bool.or_false]

theorem MsgOK.pushRead (hm : MsgOK m) (p : MsgPacket) : MsgOK (m.pushRead p).upd where
  paw := hm.paw
  par := fun hc => by
    have hc : m.status.closed = false := hc
    simp [Msg.upd, Msg.pushRead, hc]
  closed_read := fun hc => by
    have hc : m.status.closed = true := hc
    simpa [Msg.upd, Msg.pushRead, hc] using hm.closed_read hc
  space := fun hd => by
    have := hm.space hd
    have hle : m.readQueue.length ≤
        (if !m.status.closed then m.readQueue ++ [p] else m.readQueue).length := by
      split_ifs <;> simp
    simp only [Msg.upd, Msg.pushRead]
    by_cases hl : msgNBuffPacketsAllowed ≤
        (if !m.status.closed then m.readQueue ++ [p] else m.readQueue).length
    · rw [if_pos hl]; exact (decide_eq_false (by omega)).symm
    · rw [if_neg hl, this, decide_eq_true (by omega)]
      exact (decide_eq_true (by omega)).symm
  need := by
    simp only [Msg.upd, Msg.acks, Msg.pushRead]
    grind
  full := fun _ hl => by
    have hl : msgNBuffPacketsAllowed ≤
        (if !m.status.closed then m.readQueue ++ [p] else m.readQueue).length := hl
    simp only [Msg.upd, Msg.acks, Msg.pushRead, hl, if_true]
    simp
  closed_inc := hm.closed_inc
  sent := hm.sent
  disc := hm.disc
  queued := fun h => by
    have := hm.queued h
    simp only [Msg.upd, Msg.pushRead]
    grind
  writing := fun h => by
    have hst : (m.pushRead p).starts = false := hm.starts_eq
    simp only [Msg.upd, hst, Bool.or_false] at h
    exact hm.writing h
  closing := hm.closing
  used := hm.used
  inc_size := hm.inc_size
  pos := fun hc => by
    have hc : m.status.closed = false := hc
    rcases hm.pos hc with h0 | ⟨q, rest, hq, hlt⟩
    · exact Or.inl h0
    · exact Or.inr ⟨q, rest ++ [p], by simp [Msg.upd, Msg.pushRead, hc, hq], hlt⟩
  ids := hm.ids
  wspace := hm.wspace

/-- **A data packet.** -/
theorem msgPushReadPacket_turn (h : sw.msgs j = some m) (hm : MsgOK m) (p : MsgPacket) :
    ∃ sw', msgPushReadPacket sw j p = .ok sw' ∧
      Turn L B sw sw' j m (m.pushRead p).upd (m.pushRead p).updResps (some p) ∧
      ∀ out acc got clo strict y rest, m.status.disconnected = false →
        y.out = .data p.data :: rest → (strict = true → m.status.sentDisconnect = false) →
        Steps S H ⟨.live m.view, out, acc, got, clo, strict⟩ y
          ⟨.live (m.pushRead p).upd.view, out ++ (m.pushRead p).updResps.map MsgResp.item, acc, got,
            clo, strict⟩ { y with out := rest } := by
  obtain ⟨sw', hs, o⟩ := msgPushReadPacket_only p h
  have hst : (m.pushRead p).starts = false := hm.starts_eq
  have hw : (m.pushRead p).upd.status.writing = m.status.writing := by
    simp [Msg.upd, hst]; rfl
  refine ⟨sw', hs, ?_, ?_⟩
  · refine ⟨?_, hm.pushRead p, rfl, rfl, rfl, id, Or.inl, id, fun h => hw.trans h, ?_, ?_, ?_, ?_,
      fun _ _ => ⟨hw, Or.inl rfl⟩, ?_, fun _ h => ⟨h.closed, h.last⟩⟩
    · simpa [Msg.updPtrs, hst, hw] using o
    · intro r hr
      simp only [Msg.updResps] at hr
      split_ifs at hr with ha
      · simp only [Msg.acks, Bool.and_eq_true] at ha
        rw [List.mem_singleton.1 hr]; exact ⟨rfl, rfl, (Bool.not_eq_true' _).mp ha.2⟩
      · simp at hr
    · intro q hq
      have hq : q ∈ (if !m.status.closed then m.readQueue ++ [p] else m.readQueue) := hq
      split_ifs at hq
      · rcases List.mem_append.1 hq with hq | hq
        · exact Or.inl hq
        · exact Or.inr (by rw [List.mem_singleton.1 hq])
      · exact Or.inl hq
    · simp only [Msg.upd, Msg.pushRead]
      split_ifs <;> simp
    · refine fun G _ hp => ⟨fun _ => hp p rfl, fun r hr _ => ?_⟩
      simp only [Msg.updResps] at hr
      split_ifs at hr
      · rw [List.mem_singleton.1 hr]; exact hp p rfl
      · simp at hr
    · intro h h'
      rw [show (m.pushRead p).upd.status.sentDisconnect = _ from h] at h'; cases h'
  · intro out acc got clo strict y rest hd ho hstr
    have hrecv := Steps.single (Step.recvData (S := S) (H := H)
      (x := ⟨.live m.view, out, acc, got, clo, strict⟩) (y := y) rfl hd ho)
    have hpos : m.status.closed = false →
        m.curReadPacketPos ≤ ((m.readQueue.map MsgPacket.data).flatten).length := by
      intro hc
      rcases hm.pos hc with h0 | ⟨q, l, hq, hlt⟩
      · omega
      · rw [hq]; simp only [List.map_cons, List.flatten_cons, List.length_append]
        simp only [MsgPacket.size] at hlt; omega
    have hv : (m.pushRead p).view = { m.view with
        used := true, need := true
        unread := if m.view.closed then [] else m.view.unread ++ p.data
        hollow := if m.view.closed then m.view.hollow else m.view.hollow || p.data.isEmpty } := by
      cases hc : m.status.closed with
      | true => simp [Msg.view, Msg.pushRead, hc]
      | false => simp [Msg.view, Msg.pushRead, hc, List.drop_append_of_le_length (hpos hc)]
    have hupd := upd_link (S := S) (H := H) (m.pushRead p) out acc got clo strict
      { y with out := rest } fun _ => hstr
    rw [hv] at hupd
    exact hrecv.trans hupd

/-- The object of which an acknowledgement has come. -/
def Msg.acked (m : Msg) : Msg := { m with status.waitingForResp := false }

theorem MsgOK.acked (hm : MsgOK m) (hq : m.writQueue = []) (hc : m.status.closed = false) :
    MsgOK m.acked where
  paw := hm.paw
  par := hm.par
  closed_read := hm.closed_read
  space := hm.space
  need := hm.need
  full := hm.full
  closed_inc := hm.closed_inc
  sent := hm.sent
  disc := hm.disc
  queued := fun h => absurd hq h
  writing := fun h => absurd hq (hm.writing h).2
  closing := fun h => by rw [show m.acked.status.closed = _ from hc] at h; cases h
  used := fun h => hm.used (h.imp id (Or.imp id fun h => by cases h))
  inc_size := hm.inc_size
  pos := hm.pos
  ids := hm.ids
  wspace := hm.wspace

/-- The next packet is handed over. -/
theorem MsgOK.acked_writing (hm : MsgOK m) (hq : m.writQueue ≠ []) :
    MsgOK { m.acked with status.writing := true } where
  paw := hm.paw
  par := hm.par
  closed_read := hm.closed_read
  space := hm.space
  need := hm.need
  full := hm.full
  closed_inc := hm.closed_inc
  sent := hm.sent
  disc := hm.disc
  queued := fun _ => Or.inl rfl
  writing := fun _ => ⟨rfl, hq⟩
  closing := fun _ _ => Or.inl hq
  used := fun _ => hm.used (Or.inr (Or.inl hq))
  inc_size := hm.inc_size
  pos := hm.pos
  ids := hm.ids
  wspace := hm.wspace

/-- The last packet of a closed msg is acknowledged. -/
theorem MsgOK.acked_sent (hm : MsgOK m) (hq : m.writQueue = []) (hc : m.status.closed = true) :
    MsgOK { m.acked with status.sentDisconnect := true } where
  paw := hm.paw
  par := hm.par
  closed_read := hm.closed_read
  space := hm.space
  need := hm.need
  full := hm.full
  closed_inc := hm.closed_inc
  sent := fun _ => Or.inl hc
  disc := fun h => ⟨rfl, (hm.disc h).2⟩
  queued := fun h => absurd hq h
  writing := fun h => absurd hq (hm.writing h).2
  closing := fun _ h => by cases h
  used := fun h => hm.used (h.imp id (Or.imp id fun h => by cases h))
  inc_size := hm.inc_size
  pos := hm.pos
  ids := hm.ids
  wspace := hm.wspace

/-- The end of `msg_recv_resp`. -/
theorem check_update (h : sw.msgs j = some m) :
    ∃ sw₁ sw₂, msgCheckSelectability sw j = .ok sw₁ ∧ msgUpdateStatus sw₁ j = .ok sw₂ ∧
      Only sw sw₂ j m.upd m.updResps m.updPtrs := by
  obtain ⟨sw₁, h₁, o₁⟩ := msgCheckSelectability_only h
  obtain ⟨sw₂, h₂, o₂⟩ := msgUpdateStatus_only o₁.get
  exact ⟨sw₁, sw₂, h₁, h₂, o₁.trans o₂⟩

/-- Clearing `WAITING_FOR_RESP` first changes nothing a `Turn` speaks of. -/
theorem Turn.of_acked {m' : Msg} {R : List MsgResp} {sw' : MsgSwitch}
    (t : Turn L B (sw.set j (some m.acked)) sw' j m.acked m' R none) :
    Turn L B sw sw' j m m' R none where
  only := (Only.set sw j m.acked).trans t.only
  ok := t.ok
  ptr := t.ptr
  imsgid := t.imsgid
  disc := t.disc
  closed := t.closed
  mark := t.mark
  sent := t.sent
  writing := t.writing
  resps := t.resps
  reads := t.reads
  length := t.length
  source := t.source
  quiet := t.quiet
  shut := t.shut
  dense := fun hb hd => t.dense hb ⟨hd.closed, hd.last⟩

/-- `msg_recv_resp` from where it has cleared `WAITING_FOR_RESP`; `avail` is whether
something has become available since the last write. -/
def recvOkTail (sw : MsgSwitch) (msgid : ℕ) (avail : Bool) : Except Fault MsgSwitch := do
  let sw ← (if !avail then do
      let (sw, _) ← msgFlush sw msgid
      let msg ← sw.assertMsg msgid
      if !msg.status.packetAvailToWrit && msg.status.closed then
        let sw ← msgSendResp sw msgid .discon
        return sw.set msgid (some { msg with status.sentDisconnect := true })
      return sw
    else pure sw)
  let sw ← msgCheckSelectability sw msgid
  msgUpdateStatus sw msgid

theorem msgRecvResp_ok_eq {resp : MsgResp} (h : sw.msgs j = some m) (hr : resp.status = .ok)
    (hs : m.status.sentDisconnect = false) (hw : m.status.waitingForResp = true) :
    msgRecvResp sw j resp =
      recvOkTail (sw.set j (some m.acked)) j m.status.packetAvailToWrit := by
  simp only [msgRecvResp, MsgSwitch.assertMsg, h, hr, bind, Except.bind, pure, Except.pure]
  rw [if_neg (by simp [hs]), if_neg (by simp [hw])]
  rfl

/-- The end of `msg_recv_resp` on a msg in order. -/
theorem check_update_ok (h : sw.msgs j = some m) (hm : MsgOK m) :
    ∃ sw₁ sw₂, msgCheckSelectability sw j = .ok sw₁ ∧ msgUpdateStatus sw₁ j = .ok sw₂ ∧
      Only sw sw₂ j m [] [] := by
  obtain ⟨sw₁, sw₂, h₁, h₂, o⟩ := check_update h
  obtain ⟨hu, hR, hP⟩ := hm.upd_eq
  exact ⟨sw₁, sw₂, h₁, h₂, by rwa [hu, hR, hP] at o⟩

/-- More packets wait: the next one is handed over. -/
theorem recvOkTail_more (h : sw.msgs j = some m.acked) (hm : MsgOK m) (hq : m.writQueue ≠ [])
    (hw : m.status.writing = false) :
    ∃ sw', recvOkTail sw j true = .ok sw' ∧
      Only sw sw' j { m.acked with status.writing := true } [] [m.ptr] := by
  obtain ⟨sw₁, sw₂, h₁, h₂, o⟩ := check_update h
  refine ⟨sw₂, by simp [recvOkTail, h₁, h₂, bind, Except.bind, pure, Except.pure], ?_⟩
  have ha : m.acked.acks = false := hm.acks_eq
  have hp : m.status.packetAvailToWrit = true := by
    rw [hm.paw]; simpa using hq
  have hst : m.acked.starts = true := by simp [Msg.starts, Msg.acked, hp, hw]
  have hu : m.acked.upd = { m.acked with status.writing := true } := by
    simp only [Msg.upd, ha, hst, Bool.not_false, Bool.and_true, Bool.or_true]
  have hR : m.acked.updResps = [] := by simp [Msg.updResps, ha]
  have hP : m.acked.updPtrs = [m.ptr] := by
    rw [Msg.updPtrs, if_pos hst]; rfl
  rwa [hu, hR, hP] at o

/-- Nothing waits and the msg is open: whatever there is, is flushed. -/
theorem recvOkTail_flush (h : sw.msgs j = some m) (hm : MsgOK m) (hc : m.status.closed = false) :
    ∃ sw' m', recvOkTail sw j false = .ok sw' ∧
      Moves S H sw sw' j m m' [] m.incompleteWritPacket.toList [] [] := by
  obtain ⟨sw₁, m₁, ret, hf, mv, -, -⟩ := msgFlush_moves (S := S) (H := H) h hm
  obtain ⟨sw₂, sw₃, h₂, h₃, o⟩ := check_update_ok mv.only.get mv.ok
  refine ⟨sw₃, m₁, ?_, ?_⟩
  · simp only [recvOkTail, MsgSwitch.assertMsg, hf, mv.only.get, bind, Except.bind, pure, Except.pure]
    rw [if_pos (by simp), if_neg (by simp [mv.closed, hc])]
    simp only [h₂, h₃]
  · have := mv.trans (Moves.silent (Q := []) (m := m₁) (by simpa using o) mv.ok rfl rfl rfl rfl id
      (fun _ => rfl) List.suffix_rfl (by simp))
    simpa using this

/-- Nothing waits and the msg is closed: the disconnect goes out. -/
theorem recvOkTail_shut (h : sw.msgs j = some m.acked) (hm : MsgOK m) (hq : m.writQueue = [])
    (hc : m.status.closed = true) :
    ∃ sw', recvOkTail sw j false = .ok sw' ∧
      Only sw sw' j { m.acked with status.sentDisconnect := true } [m.resp .discon] [] := by
  obtain ⟨sw₁, h₁, o₁⟩ := msgSendResp_discon_only h
  have o₂ := Only.set sw₁ j { m.acked with status.sentDisconnect := true }
  obtain ⟨sw₂, sw₃, h₂, h₃, o₃⟩ := check_update_ok o₂.get (hm.acked_sent hq hc)
  refine ⟨sw₃, ?_, (o₁.trans o₂).trans o₃⟩
  have hp : m.status.packetAvailToWrit = false := by rw [hm.paw, hq]; rfl
  have hf : msgFlush sw j = .ok (sw, .error .ebadmsg) := by
    have : m.acked.status.closed = true := hc
    simp [msgFlush, h, this, pure, Except.pure]
  simp only [recvOkTail, MsgSwitch.assertMsg, hf, h, bind, Except.bind, pure, Except.pure]
  have hcond : (!m.acked.status.packetAvailToWrit && m.acked.status.closed) = true := by
    simp [Msg.acked, hp, hc]
  rw [if_pos (by simp), if_pos hcond, h₁]
  simp only [h₂, h₃]

/-- **An acknowledgement** for a msg that waits for one. The link step that takes it off
the link comes before the ones here. -/
theorem msgRecvResp_ok_turn {resp : MsgResp} (h : sw.msgs j = some m) (hm : MsgOK m)
    (hr : resp.status = .ok) (hs : m.status.sentDisconnect = false)
    (hw : m.status.waitingForResp = true)
    (hb : m.writQueue = [] → m.status.closed = false →
      ∀ p, m.incompleteWritPacket = some p → p.data = [] → B) :
    ∃ sw' m' R, msgRecvResp sw j resp = .ok sw' ∧ Turn L B sw sw' j m m' R none ∧
      ∀ out acc got clo strict y, Steps S H
        ⟨.live { m.view with waiting := false }, out, acc, got, clo, strict⟩ y
        ⟨.live m'.view, out ++ R.map MsgResp.item, acc, got, clo, strict⟩ y := by
  have hnw : m.status.writing = false := by
    cases hwr : m.status.writing with
    | false => rfl
    | true => have := (hm.writing hwr).1; rw [hw] at this; cases this
  have o₁ := Only.set sw j m.acked
  have hns : ∀ {P : Prop}, m.acked.status.sentDisconnect = true → P := fun h => by
    rw [show m.acked.status.sentDisconnect = _ from hs] at h; cases h
  rw [msgRecvResp_ok_eq h hr hs hw]
  by_cases hq : m.writQueue = []
  · have hp : m.status.packetAvailToWrit = false := by rw [hm.paw, hq]; rfl
    rw [hp]
    cases hc : m.status.closed with
    | false =>
      obtain ⟨sw', m', hrun, mv⟩ := recvOkTail_flush (S := S) (H := H) o₁.get
        (hm.acked hq hc) hc
      refine ⟨sw', m', [], hrun, Turn.of_acked (mv.turn hns ?_), fun out acc got clo strict y => ?_⟩
      · intro hnb _ _
        exact ⟨hc, fun p hp' hd => hnb (hb hq hc p (Option.mem_toList.1 hp') hd)⟩
      · have := mv.link out acc got clo strict y
        rw [List.append_nil, List.append_nil] at this
        exact this
    | true =>
      obtain ⟨sw', hrun, o⟩ := recvOkTail_shut o₁.get hm hq hc
      refine ⟨sw', { m.acked with status.sentDisconnect := true }, [m.resp .discon], hrun,
        Turn.of_acked ?_, ?_⟩
      · refine ⟨?_, hm.acked_sent hq hc, rfl, rfl, rfl, id, Or.inl, fun _ => rfl, id, ?_,
          fun _ hp => Or.inl hp, by simp, ?_, hns, fun _ _ => hq, fun _ h => ⟨h.closed, h.last⟩⟩
        · have : m.acked.status.writing = false := hnw
          simpa [this] using o
        · intro r hr'
          rw [List.mem_singleton.1 hr']; exact ⟨rfl, rfl, hm.not_disc hs⟩
        · refine fun G hn _ => ⟨hn, fun r hr' hst => ?_⟩
          rw [List.mem_singleton.1 hr'] at hst; cases hst
      · intro out acc got clo strict y
        have hu : m.view.used = true := by
          have := hm.used (Or.inr (Or.inr hw))
          simp [Msg.view, this]
        exact Steps.single (Step.shut (e := { m.view with waiting := false }) rfl hc hs
          (by simp [Msg.view, hq, hm.closed_inc hc]) hu)
  · have hp : m.status.packetAvailToWrit = true := by
      rw [hm.paw]; simpa using hq
    rw [hp]
    obtain ⟨sw', hrun, o⟩ := recvOkTail_more o₁.get hm hq hnw
    refine ⟨sw', { m.acked with status.writing := true }, [], hrun, Turn.of_acked ?_, ?_⟩
    · refine ⟨?_, hm.acked_writing hq, rfl, rfl, rfl, id, Or.inl, id, fun _ => rfl, by simp,
        fun _ hp => Or.inl hp, by simp, fun G hn _ => ⟨hn, by simp⟩, hns, ?_,
        fun _ h => ⟨h.closed, h.last⟩⟩
      · have : m.acked.status.writing = false := hnw
        rw [if_pos (by simp [this])]; exact o
      · intro _ hs'; exact hns hs'
    · intro out acc got clo strict y
      rw [List.map_nil, List.append_nil]; exact Steps.refl _ _

/-! ## A write event, and a disconnect -/

theorem MsgOK.popWrit {p : MsgPacket} {rest : List MsgPacket} (hm : MsgOK m)
    (hq : m.writQueue = p :: rest) : MsgOK (m.popWrit rest) where
  paw := by
    have := hm.paw
    rw [hq] at this
    cases rest <;> simp_all [Msg.popWrit]
  par := hm.par
  closed_read := hm.closed_read
  space := hm.space
  need := hm.need
  full := hm.full
  closed_inc := hm.closed_inc
  sent := hm.sent
  disc := hm.disc
  queued := fun _ => Or.inr rfl
  writing := fun h => by cases h
  closing := fun _ _ => Or.inr rfl
  used := fun _ => hm.used (Or.inr (Or.inl (by simp [hq])))
  inc_size := hm.inc_size
  pos := hm.pos
  ids := fun q hq' => hm.ids q (hq'.imp (fun h => by rw [hq]; exact List.mem_cons_of_mem _ h) id)
  wspace := fun hd => by
    have hs := hm.wspace hd
    rw [hq, List.length_cons] at hs
    simp only [Msg.popWrit, hs]
    split_ifs with hle
    · symm; exact decide_eq_true (by simpa using hle)
    · simp only [decide_eq_decide]
      simp only [Bool.not_eq_true', decide_eq_false_iff_not, not_not] at hle
      omega

/-- **A write event** for the msg in slot `j`. -/
theorem msgPopWritPacket_spec {p : MsgPacket} {rest : List MsgPacket} (h : sw.msgs j = some m)
    (hm : MsgOK m) (hq : m.writQueue = p :: rest) :
    ∃ sw', msgPopWritPacket sw j = .ok (sw', p) ∧ Only sw sw' j (m.popWrit rest) [] [] := by
  obtain ⟨sw', hs, o⟩ := msgPopWritPacket_only h hq
  obtain ⟨hu, hR, hP⟩ := (hm.popWrit hq).upd_eq
  rw [hu, hR, hP] at o
  exact ⟨sw', hs, o⟩

theorem popWrit_link {p : MsgPacket} {rest : List MsgPacket}
    (hq : m.writQueue = p :: rest) (hs : m.status.sentDisconnect = false)
    (hw : m.status.waitingForResp = false)
    (hz : H ∨ (p.data = [] → m.status.closed = true ∧
      (rest ++ m.incompleteWritPacket.toList) = []))
    (out : List (Item UInt8)) (acc got : List UInt8) (clo strict : Bool) (y : Half UInt8) :
    Steps S H ⟨.live m.view, out, acc, got, clo, strict⟩ y
      ⟨.live (m.popWrit rest).view, out ++ [.data p.data], acc, got, clo, strict⟩ y := by
  have hu : m.view.unsent =
      p.data :: (rest ++ m.incompleteWritPacket.toList).map MsgPacket.data := by
    simp [Msg.view, hq]
  have hz' : H ∨ (p.data = [] → m.status.closed = true ∧
      (rest ++ m.incompleteWritPacket.toList).map MsgPacket.data = []) :=
    hz.imp id fun h hp => ⟨(h hp).1, by rw [(h hp).2]; rfl⟩
  exact Steps.single (Step.send (e := m.view) rfl hs hw hu hz')

/-- The object with nothing left to write, as the loop of `msg_recv_resp` leaves it. -/
def Msg.unwritten (m : Msg) : Msg :=
  { m with
    writQueue := []
    status := { m.status with
      packetAvailToWrit := false
      waitingForResp := m.status.waitingForResp || !m.writQueue.isEmpty
      writing := m.status.writing && m.writQueue.isEmpty
      spaceAvailForWrit := m.status.spaceAvailForWrit || !m.writQueue.isEmpty } }

/-- The loop of `msg_recv_resp` empties `writ_queue`. -/
theorem msgDrainWrit_only : ∀ (n : ℕ) (sw : MsgSwitch) (m : Msg), sw.msgs j = some m →
    m.writQueue.length < n → MsgOK m →
    ∃ sw', msgDrainWrit n sw j = .ok sw' ∧ Only sw sw' j m.unwritten [] [] := by
  intro n
  induction n with
  | zero => intro sw m _ hl; omega
  | succ n ih =>
    intro sw m h hl hm
    rw [msgDrainWrit]
    simp only [MsgSwitch.assertMsg, h, bind, Except.bind]
    have hpaw := hm.paw
    cases hq : m.writQueue with
    | nil =>
      have hp : m.status.packetAvailToWrit = false := by rw [hpaw, hq]; rfl
      have hu : m.unwritten = m := by
        cases m with
        | mk addr msgid imsgid type status nWrit nRead inc pos rq wq lf =>
          cases status
          simp_all [Msg.unwritten]
      rw [if_neg (by simp [hp]), hu]
      exact ⟨sw, rfl, Only.refl h⟩
    | cons p rest =>
      have hp : m.status.packetAvailToWrit = true := by rw [hpaw, hq]; rfl
      obtain ⟨sw₁, h₁, o₁⟩ := msgPopWritPacket_spec h hm hq
      obtain ⟨sw₂, h₂, o₂⟩ := ih sw₁ (m.popWrit rest) o₁.get
        (by rw [hq, List.length_cons] at hl; exact Nat.lt_of_succ_lt_succ hl) (hm.popWrit hq)
      refine ⟨sw₂, by rw [if_pos hp, h₁]; exact h₂, ?_⟩
      have hu : (m.popWrit rest).unwritten = m.unwritten := by
        have hsp : ((if !decide (msgNBuffPacketsAllowed ≤ rest.length) then true
            else m.status.spaceAvailForWrit) || !rest.isEmpty) = true := by
          cases rest <;> simp [msgNBuffPacketsAllowed]
        simp only [Msg.unwritten, Msg.popWrit, hq, hsp, List.isEmpty_cons, Bool.not_false,
          Bool.or_true, Bool.true_or, Bool.false_and, Bool.and_false]
      rw [hu] at o₂
      exact o₁.trans o₂

/-- The object that has received the peer's disconnect and answered it. -/
def Msg.disconnected (m : Msg) : Msg :=
  { m with status.sentDisconnect := true, status.disconnected := true, imsgid := 0 }

theorem MsgOK.disconnected (hm : MsgOK m) : MsgOK m.disconnected where
  paw := hm.paw
  par := hm.par
  closed_read := hm.closed_read
  space := fun h => by cases h
  need := fun _ h => by cases h
  full := fun h => by cases h
  closed_inc := hm.closed_inc
  sent := fun _ => Or.inr rfl
  disc := fun _ => ⟨rfl, rfl⟩
  queued := hm.queued
  writing := hm.writing
  closing := fun _ h => by cases h
  used := hm.used
  inc_size := hm.inc_size
  pos := hm.pos
  ids := fun p hp => ⟨(hm.ids p hp).1, fun h => by cases h⟩
  wspace := fun h => by cases h

/-- Nothing can be read, whether the msg is closed or not. -/
theorem MsgOK.readQueue_nil (hm : MsgOK m) (hp : m.status.packetAvailToRead = false) :
    m.readQueue = [] := by
  cases hc : m.status.closed with
  | true => exact hm.closed_read hc
  | false =>
    have := hm.par hc
    rw [hp] at this
    simpa using this.symm

theorem MsgOK.cleared (hm : MsgOK m) (hd : m.status.disconnected = true)
    (hp : m.status.packetAvailToRead = false) : MsgOK m.cleared where
  paw := rfl
  par := fun _ => rfl
  closed_read := fun _ => rfl
  space := fun h => by rw [show m.cleared.status.disconnected = _ from hd] at h; cases h
  need := fun h => by cases h
  full := fun h => by rw [show m.cleared.status.disconnected = _ from hd] at h; cases h
  closed_inc := hm.closed_inc
  sent := hm.sent
  disc := hm.disc
  queued := fun h => absurd rfl h
  writing := fun h => by cases h
  closing := fun _ h => by
    rw [show m.cleared.status.sentDisconnect = _ from (hm.disc hd).1] at h; cases h
  used := fun h => hm.used (Or.inl (h.resolve_right (by simp [Msg.cleared])))
  inc_size := hm.inc_size
  pos := fun hc => by
    rcases hm.pos hc with h0 | ⟨q, l, hq, -⟩
    · exact Or.inl h0
    · rw [hm.readQueue_nil hp] at hq; cases hq
  ids := fun p hp => hm.ids p (Or.inr (hp.resolve_left (by simp [Msg.cleared])))
  wspace := fun h => absurd (hd.symm.trans h) (by simp)

theorem MsgOK.unwritten (hm : MsgOK m) (hd : m.status.disconnected = true) : MsgOK m.unwritten where
  paw := rfl
  par := hm.par
  closed_read := hm.closed_read
  space := hm.space
  need := hm.need
  full := hm.full
  closed_inc := hm.closed_inc
  sent := hm.sent
  disc := hm.disc
  queued := fun h => absurd rfl h
  writing := fun h => by
    obtain ⟨hw, he⟩ := (Bool.and_eq_true _ _).mp h
    exact absurd (List.isEmpty_iff.1 he) (hm.writing hw).2
  closing := fun _ h => by
    rw [show m.unwritten.status.sentDisconnect = _ from (hm.disc hd).1] at h; cases h
  used := fun h => hm.used (by
    have h' : m.incompleteWritPacket ≠ none ∨
        (m.status.waitingForResp || !m.writQueue.isEmpty) = true :=
      h.imp id fun h => h.resolve_left fun h => h rfl
    simpa [or_comm] using h')
  inc_size := hm.inc_size
  pos := hm.pos
  ids := fun p hp => hm.ids p (Or.inr (hp.resolve_left (by simp [Msg.unwritten])))
  wspace := fun h => absurd (hd.symm.trans h) (by simp)

/-- The peer's disconnect has come to the msg in slot `j` and is answered. -/
structure Answers (sw sw' : MsgSwitch) (j : ℕ) (m m' : Msg) : Prop where
  msgs : sw'.msgs = Function.update sw.msgs j (some m')
  resps : sw'.pendingResps = sw.pendingResps ++ [m.resp .discon]
  /-- The pointer of a msg with unread data stays, even if it was being written. -/
  pend : sw'.pendingMsgs =
    if m.status.packetAvailToRead then sw.pendingMsgs else m.unqueue sw.pendingMsgs
  armed : sw.writeArmed = msgSwitchHasAvailWrits sw → sw'.writeArmed = msgSwitchHasAvailWrits sw'
  map : sw'.imsgidMap = Function.update sw.imsgidMap m.imsgid 0
  next : sw'.nextAddr = sw.nextAddr
  conn : sw'.connected = sw.connected
  ok : MsgOK m'
  ptr : m'.ptr = m.ptr
  disc : m'.status.disconnected = true
  closed : m'.status.closed = m.status.closed
  writing : m'.status.writing = false
  writs : m'.writQueue = []
  reads : m'.readQueue = m.readQueue
  need : m'.status.needToSendResp = true → m.status.needToSendResp = true
  from_last : m'.lastFrom = m.lastFrom
  view : ∃ need waiting h' unsent, m'.view =
    { m.view with sent := true, disc := true, need, waiting, hollow := h', unsent }

/-- **The peer's disconnect** for a msg that has not sent one. -/
theorem msgRecvResp_discon_answers {resp : MsgResp} (h : sw.msgs j = some m) (hm : MsgOK m)
    (hr : resp.status = .discon) (hs : m.status.sentDisconnect = false) :
    ∃ sw' m', msgRecvResp sw j resp = .ok sw' ∧ Answers sw sw' j m m' := by
  obtain ⟨sw₁, h₁, o₁⟩ := msgSendResp_discon_only h
  set sw₂ : MsgSwitch := { sw₁ with imsgidMap := Function.update sw₁.imsgidMap m.imsgid 0 } with hsw₂
  have o₂ := Only.set sw₂ j m.disconnected
  have hrun : msgRecvResp sw j resp = (if !m.disconnected.status.packetAvailToRead then
      msgClear (sw₂.set j (some m.disconnected)) j
      else msgDrainWrit (m.disconnected.writQueue.length + 1) (sw₂.set j (some m.disconnected)) j) := by
    simp only [msgRecvResp, MsgSwitch.assertMsg, h, hr, bind, Except.bind]
    rw [if_pos (by simp [hs]), h₁]
    rfl
  have hmsgs : (sw₂.set j (some m.disconnected)).msgs = Function.update sw.msgs j (some m.disconnected) := by
    rw [o₂.msgs]; change Function.update sw₁.msgs _ _ = _; rw [o₁.msgs, Function.update_idem]
  have hresps : (sw₂.set j (some m.disconnected)).pendingResps = sw.pendingResps ++ [m.resp .discon] :=
    o₁.resps
  have hpend : (sw₂.set j (some m.disconnected)).pendingMsgs = sw.pendingMsgs := by
    have := o₁.pend
    rw [List.append_nil] at this
    exact this
  have harm : (sw₂.set j (some m.disconnected)).writeArmed =
      msgSwitchHasAvailWrits (sw₂.set j (some m.disconnected)) := by
    have ha : (sw₂.set j (some m.disconnected)).writeArmed = true := by
      change sw₁.writeArmed = true; rw [o₁.armed]; simp
    rw [ha]; simp [msgSwitchHasAvailWrits, hresps]
  have hmap : (sw₂.set j (some m.disconnected)).imsgidMap = Function.update sw.imsgidMap m.imsgid 0 := by
    change Function.update sw₁.imsgidMap _ _ = _; rw [o₁.map]
  rw [hrun]
  cases hp : m.status.packetAvailToRead with
  | false =>
    obtain ⟨sw', hc, c⟩ := msgClear_clears o₂.get
    refine ⟨sw', m.disconnected.cleared, by rw [if_pos (by simp [Msg.disconnected, hp]), hc], ?_⟩
    have hq := hm.readQueue_nil hp
    refine ⟨?_, c.resps.trans hresps, ?_, fun _ => c.armed harm, c.map.trans hmap,
      c.next.trans o₁.next, c.conn.trans o₁.conn, hm.disconnected.cleared rfl hp, rfl, rfl, rfl, rfl,
      rfl, hq.symm, fun h => (by cases h), rfl, ?_⟩
    · rw [c.msgs, hmsgs, Function.update_idem]
    · rw [c.pend, hpend, if_neg (by simp [hp])]; rfl
    · refine ⟨false, false, false, m.disconnected.cleared.view.unsent, ?_⟩
      simp only [Msg.view, Msg.cleared, Msg.disconnected, hq]
      rfl
  | true =>
    obtain ⟨sw', hd, o⟩ := msgDrainWrit_only _ _ m.disconnected o₂.get (Nat.lt_succ_self _)
      hm.disconnected
    refine ⟨sw', m.disconnected.unwritten, by rw [if_neg (by simp [Msg.disconnected, hp]), hd], ?_⟩
    have hok := hm.disconnected.unwritten rfl
    refine ⟨?_, ?_, ?_, fun _ => ?_, o.map.trans hmap, o.next.trans o₁.next, o.conn.trans o₁.conn, hok,
      rfl, rfl, rfl, ?_, rfl, rfl, id, rfl, ?_⟩
    · rw [o.msgs, hmsgs, Function.update_idem]
    · rw [o.resps, hresps, List.append_nil]
    · rw [o.pend, hpend, if_pos hp, List.append_nil]
    · rw [o.armed, harm]
      simp [msgSwitchHasAvailWrits, o.resps, o.pend]
    · cases hw : m.disconnected.unwritten.status.writing with
      | false => rfl
      | true => exact absurd rfl (hok.writing hw).2
    · exact ⟨_, _, _, _, rfl⟩

end Zimr
