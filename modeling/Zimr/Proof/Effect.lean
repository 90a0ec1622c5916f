import Mathlib.Tactic
import Zimr.Spec.MsgSwitch

/-!
# What the internal functions leave behind

Every internal function works on one slot: it replaces the object there and appends
to the two queues (`Only`). This module gives the new object and what is appended for
each of them, so that nothing later unfolds the functions.
-/

namespace Zimr

variable {sw sw₁ sw₂ : MsgSwitch} {j : ℕ} {m m₁ m₂ : Msg} {R R₁ R₂ : List MsgResp}
  {P P₁ P₂ : List MsgPtr}

/-- From `sw` to `sw'` the object in slot `j` became `m` and the responses `R` and the
pointers `P` were queued. The active sets and the select counter are left open. -/
structure Only (sw sw' : MsgSwitch) (j : ℕ) (m : Msg) (R : List MsgResp) (P : List MsgPtr) :
    Prop where
  msgs : sw'.msgs = Function.update sw.msgs j (some m)
  resps : sw'.pendingResps = sw.pendingResps ++ R
  pend : sw'.pendingMsgs = sw.pendingMsgs ++ P
  armed : sw'.writeArmed = (sw.writeArmed || !R.isEmpty || !P.isEmpty)
  map : sw'.imsgidMap = sw.imsgidMap
  next : sw'.nextAddr = sw.nextAddr
  conn : sw'.connected = sw.connected

theorem Only.refl (h : sw.msgs j = some m) : Only sw sw j m [] [] where
  msgs := by rw [← h]; exact (Function.update_eq_self j sw.msgs).symm
  resps := by simp
  pend := by simp
  armed := by simp
  map := rfl
  next := rfl
  conn := rfl

/-- The object the slot holds afterwards. -/
theorem Only.get (h : Only sw sw₁ j m R P) : sw₁.msgs j = some m := by rw [h.msgs]; simp

theorem Only.trans (h₁ : Only sw sw₁ j m₁ R₁ P₁) (h₂ : Only sw₁ sw₂ j m₂ R₂ P₂) :
    Only sw sw₂ j m₂ (R₁ ++ R₂) (P₁ ++ P₂) where
  msgs := by rw [h₂.msgs, h₁.msgs, Function.update_idem]
  resps := by rw [h₂.resps, h₁.resps, List.append_assoc]
  pend := by rw [h₂.pend, h₁.pend, List.append_assoc]
  armed := by
    rw [h₂.armed, h₁.armed]
    cases R₁ <;> cases R₂ <;> cases P₁ <;> cases P₂ <;> simp
  map := by rw [h₂.map, h₁.map]
  next := by rw [h₂.next, h₁.next]
  conn := by rw [h₂.conn, h₁.conn]

/-- Writing the object. -/
theorem Only.set (sw : MsgSwitch) (j : ℕ) (m : Msg) : Only sw (sw.set j (some m)) j m [] [] where
  msgs := rfl
  resps := by simp [MsgSwitch.set]
  pend := by simp [MsgSwitch.set]
  armed := by simp [MsgSwitch.set]
  map := rfl
  next := rfl
  conn := rfl

theorem msgCheckSelectability_only (h : sw.msgs j = some m) :
    ∃ sw', msgCheckSelectability sw j = .ok sw' ∧ Only sw sw' j m [] [] := by
  have hsel : ∀ b, Only sw (sw.select j b) j m [] [] := fun b =>
    ⟨(Only.refl h).msgs, by simp [MsgSwitch.select], by simp [MsgSwitch.select],
      by simp [MsgSwitch.select], rfl, rfl, rfl⟩
  simp only [msgCheckSelectability, MsgSwitch.assertMsg, h, bind, Except.bind, pure, Except.pure]
  split_ifs
  · exact ⟨_, rfl, hsel _⟩
  · exact ⟨_, rfl, hsel _⟩
  · exact ⟨_, rfl, hsel _⟩
  · exact ⟨_, rfl, hsel _⟩
  · exact ⟨_, rfl, Only.refl h⟩

/-- The response `msg_send_resp` queues. -/
def Msg.resp (m : Msg) (status : RespStatus) : MsgResp := ⟨m.wireId, status, m.addr, m.lastFrom⟩

theorem msgSwitchPushResp_only (h : sw.msgs j = some m) (r : MsgResp) :
    Only sw (msgSwitchPushResp sw r) j m [r] [] where
  msgs := (Only.refl h).msgs
  resps := rfl
  pend := by simp [msgSwitchPushResp]
  armed := by simp [msgSwitchPushResp]
  map := rfl
  next := rfl
  conn := rfl

theorem msgSendResp_discon_only (h : sw.msgs j = some m) :
    ∃ sw', msgSendResp sw j .discon = .ok sw' ∧ Only sw sw' j m [m.resp .discon] [] := by
  refine ⟨msgSwitchPushResp sw (m.resp .discon), ?_, msgSwitchPushResp_only h _⟩
  simp [msgSendResp, MsgSwitch.assertMsg, h, bind, Except.bind, pure, Except.pure, Msg.resp]

theorem msgSendResp_ok_only (h : sw.msgs j = some m) (hn : m.status.needToSendResp = true) :
    ∃ sw', msgSendResp sw j .ok = .ok sw' ∧
      Only sw sw' j { m with status.needToSendResp := false } [m.resp .ok] [] := by
  refine ⟨(msgSwitchPushResp sw (m.resp .ok)).set j
    (some { m with status.needToSendResp := false }), ?_, ?_⟩
  · simp [msgSendResp, MsgSwitch.assertMsg, h, hn, bind, Except.bind, pure, Except.pure, Msg.resp]
  · exact (msgSwitchPushResp_only h _).trans (Only.set _ j _)

/-- `msg_update_status` acknowledges. -/
def Msg.acks (m : Msg) : Bool :=
  m.status.needToSendResp && m.status.spaceAvailForRead && !m.status.disconnected

/-- `msg_update_status` hands the msg to the switch for writing. -/
def Msg.starts (m : Msg) : Bool :=
  m.status.packetAvailToWrit && !(m.status.waitingForResp || m.status.writing)

/-- The object after `msg_update_status`. -/
def Msg.upd (m : Msg) : Msg :=
  { m with
    status.needToSendResp := m.status.needToSendResp && !m.acks
    status.writing := m.status.writing || m.starts }

def Msg.updResps (m : Msg) : List MsgResp := if m.acks then [m.resp .ok] else []

def Msg.updPtrs (m : Msg) : List MsgPtr := if m.starts then [m.ptr] else []

theorem msgUpdateStatus_only (h : sw.msgs j = some m) :
    ∃ sw', msgUpdateStatus sw j = .ok sw' ∧ Only sw sw' j m.upd m.updResps m.updPtrs := by
  have hack : ∃ sw₁, (if m.status.needToSendResp && m.status.spaceAvailForRead
        && !m.status.disconnected then msgSendResp sw j .ok else Except.ok sw) = .ok sw₁ ∧
      Only sw sw₁ j { m with status.needToSendResp := m.status.needToSendResp && !m.acks }
        m.updResps [] := by
    change ∃ sw₁, (if m.acks then _ else _) = _ ∧ _
    cases ha : m.acks with
    | false => exact ⟨sw, rfl, by simpa [Msg.updResps, ha] using Only.refl h⟩
    | true =>
      have hn : m.status.needToSendResp = true := by
        simp only [Msg.acks, Bool.and_eq_true] at ha; exact ha.1.1
      simpa [Msg.updResps, ha] using msgSendResp_ok_only h hn
  obtain ⟨sw₁, hs₁, ho₁⟩ := hack
  simp only [msgUpdateStatus, MsgSwitch.assertMsg, h, bind, Except.bind, pure, Except.pure, hs₁,
    ho₁.get]
  change ∃ sw', (if m.starts then _ else _) = _ ∧ _
  cases hst : m.starts with
  | false => exact ⟨sw₁, rfl, by simpa [Msg.upd, Msg.updPtrs, hst] using ho₁⟩
  | true =>
    refine ⟨_, rfl, ?_⟩
    have hp : ∀ (sw₁ : MsgSwitch) (n n' : Msg), sw₁.msgs j = some n →
        Only sw₁ (msgSwitchPushWritMsg sw₁ n') j n [] [n'.ptr] := fun sw₁ n n' hn =>
      ⟨(Only.refl hn).msgs, by simp [msgSwitchPushWritMsg], rfl, by simp [msgSwitchPushWritMsg],
        rfl, rfl, rfl⟩
    have := (ho₁.trans (Only.set sw₁ j m.upd)).trans
      (hp _ m.upd { m with status.needToSendResp := m.status.needToSendResp && !m.acks }
        (by simp [MsgSwitch.set]))
    simpa [Msg.upd, Msg.updPtrs, hst, Msg.ptr] using this

/-! ## Packets in and out of the queues -/

/-- `writ_queue` gets the incomplete packet. -/
def Msg.pushWrit (m : Msg) (p : MsgPacket) : Msg :=
  { m with
    writQueue := m.writQueue ++ [p]
    incompleteWritPacket := none
    status := { m.status with
      packetAvailToWrit := true
      spaceAvailForWrit :=
        if msgNBuffPacketsAllowed ≤ (m.writQueue ++ [p]).length then false
        else m.status.spaceAvailForWrit } }

/-- `writ_queue` without its head. -/
def Msg.popWrit (m : Msg) (rest : List MsgPacket) : Msg :=
  { m with
    writQueue := rest
    status := { m.status with
      waitingForResp := true
      writing := false
      spaceAvailForWrit :=
        if !(msgNBuffPacketsAllowed ≤ rest.length) then true else m.status.spaceAvailForWrit
      packetAvailToWrit :=
        if !(1 ≤ rest.length) then false else m.status.packetAvailToWrit } }

/-- A packet has come in. -/
def Msg.pushRead (m : Msg) (p : MsgPacket) : Msg :=
  let readQueue := if !m.status.closed then m.readQueue ++ [p] else m.readQueue
  { m with
    readQueue
    status := { m.status with
      needToSendResp := true
      packetAvailToRead := true
      spaceAvailForRead :=
        if msgNBuffPacketsAllowed ≤ readQueue.length then false else m.status.spaceAvailForRead }
    nRead := m.nRead + 1
    lastFrom := some p.owner }

/-- The head of `read_queue` is done with. -/
def Msg.popRead (m : Msg) : Msg :=
  { m with
    readQueue := m.readQueue.tail
    status := { m.status with
      spaceAvailForRead :=
        if !(msgNBuffPacketsAllowed ≤ m.readQueue.tail.length) then true
        else m.status.spaceAvailForRead
      packetAvailToRead :=
        if !(1 ≤ m.readQueue.tail.length) then false else m.status.packetAvailToRead }
    curReadPacketPos := 0 }

/-- The end the four functions share: write the object, then `msg_check_selectability`
and `msg_update_status`. -/
theorem set_check_update (sw : MsgSwitch) (j : ℕ) (m : Msg) :
    ∃ sw₁ sw₂, msgCheckSelectability (sw.set j (some m)) j = .ok sw₁ ∧
      msgUpdateStatus sw₁ j = .ok sw₂ ∧ Only sw sw₂ j m.upd m.updResps m.updPtrs := by
  obtain ⟨sw₁, h₁, o₁⟩ := msgCheckSelectability_only (Only.set sw j m).get
  obtain ⟨sw₂, h₂, o₂⟩ := msgUpdateStatus_only o₁.get
  exact ⟨sw₁, sw₂, h₁, h₂, ((Only.set sw j m).trans o₁).trans o₂⟩

theorem msgPushWritPacket_only {p : MsgPacket} (h : sw.msgs j = some m)
    (hp : m.incompleteWritPacket = some p) :
    ∃ sw', msgPushWritPacket sw j = .ok sw' ∧ Only sw sw' j (m.pushWrit p).upd
      (m.pushWrit p).updResps (m.pushWrit p).updPtrs := by
  obtain ⟨sw₁, sw₂, h₁, h₂, o⟩ := set_check_update sw j (m.pushWrit p)
  refine ⟨sw₂, ?_, o⟩
  simp only [Msg.pushWrit] at h₁
  simp only [msgPushWritPacket, MsgSwitch.assertMsg, h, bind, Except.bind, hp, h₁, h₂]

theorem msgPopWritPacket_only {p : MsgPacket} {rest : List MsgPacket} (h : sw.msgs j = some m)
    (hq : m.writQueue = p :: rest) :
    ∃ sw', msgPopWritPacket sw j = .ok (sw', p) ∧ Only sw sw' j (m.popWrit rest).upd
      (m.popWrit rest).updResps (m.popWrit rest).updPtrs := by
  obtain ⟨sw₁, sw₂, h₁, h₂, o⟩ := set_check_update sw j (m.popWrit rest)
  refine ⟨sw₂, ?_, o⟩
  simp only [Msg.popWrit] at h₁
  simp only [msgPopWritPacket, MsgSwitch.assertMsg, h, bind, Except.bind, hq, h₁, h₂, pure,
    Except.pure]

theorem msgPushReadPacket_only (p : MsgPacket) (h : sw.msgs j = some m) :
    ∃ sw', msgPushReadPacket sw j p = .ok sw' ∧ Only sw sw' j (m.pushRead p).upd
      (m.pushRead p).updResps (m.pushRead p).updPtrs := by
  obtain ⟨sw₁, sw₂, h₁, h₂, o⟩ := set_check_update sw j (m.pushRead p)
  refine ⟨sw₂, ?_, o⟩
  simp only [Msg.pushRead] at h₁
  simp only [msgPushReadPacket, MsgSwitch.assertMsg, h, bind, Except.bind, h₁, h₂]

theorem msgPopReadPacket_only (h : sw.msgs j = some m) :
    ∃ sw', msgPopReadPacket sw j = .ok sw' ∧ Only sw sw' j m.popRead.upd
      m.popRead.updResps m.popRead.updPtrs := by
  obtain ⟨sw₁, sw₂, h₁, h₂, o⟩ := set_check_update sw j m.popRead
  refine ⟨sw₂, ?_, o⟩
  simp only [Msg.popRead] at h₁
  simp only [msgPopReadPacket, MsgSwitch.assertMsg, h, bind, Except.bind, h₁, h₂]

/-! ## Clearing and freeing -/

/-- The object `msg_clear` leaves. -/
def Msg.cleared (m : Msg) : Msg :=
  { m with
    writQueue := []
    readQueue := []
    status := { m.status with
      packetAvailToRead := false
      packetAvailToWrit := false
      spaceAvailForRead := false
      spaceAvailForWrit := false
      waitingForResp := false
      writing := false
      needToSendResp := false } }

/-- The queue of pointers without the msg, if it was being written. -/
def Msg.unqueue (m : Msg) (ps : List MsgPtr) : List MsgPtr :=
  if m.status.writing then ps.erase m.ptr else ps

/-- From `sw` to `sw'` slot `j` became `o`, the msg `m` left the queue of pointers, and
nothing was queued. -/
structure Clears (sw sw' : MsgSwitch) (j : ℕ) (m : Msg) (o : Option Msg) (map : ℕ → ℕ) :
    Prop where
  msgs : sw'.msgs = Function.update sw.msgs j o
  resps : sw'.pendingResps = sw.pendingResps
  pend : sw'.pendingMsgs = m.unqueue sw.pendingMsgs
  armed : sw.writeArmed = msgSwitchHasAvailWrits sw → sw'.writeArmed = msgSwitchHasAvailWrits sw'
  map : sw'.imsgidMap = map
  next : sw'.nextAddr = sw.nextAddr
  conn : sw'.connected = sw.connected

theorem msgClear_clears (h : sw.msgs j = some m) :
    ∃ sw', msgClear sw j = .ok sw' ∧ Clears sw sw' j m (some m.cleared) sw.imsgidMap := by
  -- the switch with the pointer taken out
  have hq : ∃ sw₁ : MsgSwitch, (if m.status.writing && sw.pendingMsgs.contains m.ptr then
        if !msgSwitchHasAvailWrits { sw with pendingMsgs := sw.pendingMsgs.erase m.ptr } then
          { sw with pendingMsgs := sw.pendingMsgs.erase m.ptr, writeArmed := false }
        else { sw with pendingMsgs := sw.pendingMsgs.erase m.ptr }
      else sw) = sw₁ ∧ Clears sw sw₁ j m (some m) sw.imsgidMap := by
    refine ⟨_, rfl, ?_⟩
    have hmsgs := (Only.refl h).msgs
    split_ifs with hc ha
    · have hw : m.status.writing = true := by
        rw [Bool.and_eq_true] at hc; exact hc.1
      exact ⟨hmsgs, rfl, by simp [Msg.unqueue, hw],
        fun _ => by simpa [msgSwitchHasAvailWrits] using ha, rfl, rfl, rfl⟩
    · have hw : m.status.writing = true ∧ m.ptr ∈ sw.pendingMsgs := by simpa using hc
      refine ⟨hmsgs, rfl, by simp [Msg.unqueue, hw], fun hav => ?_, rfl, rfl, rfl⟩
      have hne : sw.pendingMsgs ≠ [] := List.ne_nil_of_mem hw.2
      have : sw.writeArmed = true := by rw [hav]; simp [msgSwitchHasAvailWrits, hne]
      simpa [this] using ha
    · have hun : m.unqueue sw.pendingMsgs = sw.pendingMsgs := by
        simp only [Bool.and_eq_true, List.contains_iff_mem, not_and] at hc
        unfold Msg.unqueue
        split_ifs with hw
        · exact List.erase_of_not_mem (hc hw)
        · rfl
      exact ⟨hmsgs, rfl, hun.symm, fun hav => hav, rfl, rfl, rfl⟩
  obtain ⟨sw₁, h₁, c₁⟩ := hq
  obtain ⟨sw₂, h₂, o₂⟩ := msgCheckSelectability_only (Only.set sw₁ j m.cleared).get
  have o := (Only.set sw₁ j m.cleared).trans o₂
  refine ⟨sw₂, ?_, ?_⟩
  · simp only [Msg.cleared] at h₂
    simp only [msgClear, MsgSwitch.assertMsg, h, bind, Except.bind, h₁, h₂]
  · refine ⟨?_, ?_, ?_, fun hav => ?_, ?_, ?_, ?_⟩
    · rw [o.msgs, c₁.msgs, Function.update_idem]
    · rw [o.resps, c₁.resps]; simp
    · rw [o.pend, c₁.pend]; simp
    · have := c₁.armed hav
      simpa [o.armed, msgSwitchHasAvailWrits, o.resps, o.pend] using this
    · rw [o.map, c₁.map]
    · rw [o.next, c₁.next]
    · rw [o.conn, c₁.conn]

/-- The map without the msg's entry. -/
def Msg.unmap (m : Msg) (map : ℕ → ℕ) : ℕ → ℕ :=
  if m.imsgid ≠ 0 then Function.update map m.imsgid 0 else map

theorem msgFree_clears (h : sw.msgs j = some m) :
    ∃ sw', msgFree sw j = .ok sw' ∧ Clears sw sw' j m none (m.unmap sw.imsgidMap) := by
  obtain ⟨sw₁, h₁, c⟩ := msgClear_clears h
  have hg : sw₁.msgs j = some m.cleared := by rw [c.msgs]; simp
  have him : m.cleared.imsgid = m.imsgid := rfl
  simp only [msgFree, bind, Except.bind, h₁, MsgSwitch.assertMsg, hg, pure, Except.pure, him]
  refine ⟨_, rfl, ?_⟩
  -- the counter and the map do not touch the queues
  refine ⟨?_, ?_, ?_, ?_, ?_, ?_, ?_⟩
  · have hms : Function.update sw₁.msgs j none = Function.update sw.msgs j none := by
      rw [c.msgs, Function.update_idem]
    rw [← hms]; simp only [MsgSwitch.set]; split_ifs <;> rfl
  · rw [← c.resps]; simp only [MsgSwitch.set]; split_ifs <;> rfl
  · rw [← c.pend]; simp only [MsgSwitch.set]; split_ifs <;> rfl
  · intro hav
    have := c.armed hav
    simp only [MsgSwitch.set, msgSwitchHasAvailWrits] at this ⊢
    split_ifs <;> exact this
  · rw [← c.map]; simp only [MsgSwitch.set, Msg.unmap]; split_ifs <;> rfl
  · rw [← c.next]; simp only [MsgSwitch.set]; split_ifs <;> rfl
  · rw [← c.conn]; simp only [MsgSwitch.set]; split_ifs <;> rfl

end Zimr
