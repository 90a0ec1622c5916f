import Zimr.Spec.Net

/-!
# Corner cases

Five kinds of steps at which an endpoint leaves what its peer relies on. Each is a
decidable condition on the state before the step.

* `flushesLate` — `msg_flush` on a msg whose peer has disconnected, with an incomplete
  packet left, which then goes out after the disconnect
* `acksLate` — an accepted msg queues an acknowledgement after its disconnect
* `queuesBlank` — a packet without data is queued by a msg that is not closed
* `dropsWriting` — a disconnect comes to a msg that is being written and has unread
  data: its packets are popped, and its entry of `pending_msgs` is left
* `crossesClose` — a disconnect comes to a msg that is closed and still has packets to
  write
-/

namespace Zimr

/-- The incomplete packet is without data. -/
def Msg.blank (msg : Msg) : Bool := (msg.incompleteWritPacket.map (·.data.isEmpty)).getD false

namespace MsgSwitch

/-- `msg_flush` queues a packet of a disconnected msg and hands it, or leaves it, to the
switch. -/
def flushesLate (sw : MsgSwitch) : Op → Bool
  | .flush msgid =>
    match sw.msgs msgid with
    | some msg => !msg.status.closed && msg.status.disconnected && msg.incompleteWritPacket.isSome
        && (!msg.status.waitingForResp || sw.pendingMsgs.contains msg.ptr)
    | none => false
  | _ => false

/-- `msg_close` sends the disconnect at once and then acknowledges. -/
def closesOwing (sw : MsgSwitch) : Op → Bool
  | .close msgid =>
    match sw.msgs msgid with
    | some msg => !msg.status.closed && !msg.status.disconnected && msg.status.needToSendResp
        && !msg.status.packetAvailToWrit && msg.incompleteWritPacket.isNone && msg.imsgid != 0
    | none => false
  | _ => false

/-- A packet comes to a msg that has sent its disconnect, and is acknowledged. -/
def acksLate (sw : MsgSwitch) : Frame → Bool
  | .pack packet =>
    match msgGet sw packet.msgid with
    | some msg => msg.status.sentDisconnect && !msg.status.disconnected && msg.imsgid != 0
    | none => false
  | .resp _ => false

/-- `msg_flush` queues a packet without data. -/
def flushesBlank (sw : MsgSwitch) : Op → Bool
  | .flush msgid =>
    match sw.msgs msgid with
    | some msg => !msg.status.closed && !msg.status.disconnected && msg.blank
    | none => false
  | _ => false

/-- The flush after an acknowledgement queues a packet without data. -/
def acksBlank (sw : MsgSwitch) : Frame → Bool
  | .resp resp =>
    match msgGet sw resp.msgid with
    | some msg => resp.status == .ok && !msg.status.sentDisconnect && !msg.status.closed
        && !msg.status.packetAvailToWrit && msg.blank
    | none => false
  | .pack _ => false

/-- The disconnect of a msg that is being written and has unread data. -/
def dropsWriting (sw : MsgSwitch) : Frame → Bool
  | .resp resp =>
    match msgGet sw resp.msgid with
    | some msg => resp.status == .discon && !msg.status.sentDisconnect
        && msg.status.packetAvailToRead && msg.status.writing
    | none => false
  | .pack _ => false

/-- The disconnect of a msg that is closed and has not sent its own. -/
def crossesClose (sw : MsgSwitch) : Frame → Bool
  | .resp resp =>
    match msgGet sw resp.msgid with
    | some msg => resp.status == .discon && !msg.status.sentDisconnect && msg.status.closed
    | none => false
  | .pack _ => false

/-- `dropsWriting`, for an event. -/
def dropsWritingAt (sw : MsgSwitch) : Event → Bool
  | .recv frame => sw.dropsWriting frame
  | _ => false

end MsgSwitch

namespace Net

/-- The frame side `s` reads next, tested by `f`. -/
def next (σ : Net) (s : Side) (f : MsgSwitch → Frame → Bool) : Bool :=
  match σ.chan s.other with
  | [] => false
  | frame :: _ => f (σ.ep s) frame

def flushesLate (σ : Net) : Act → Bool
  | .call s op => (σ.ep s).flushesLate op
  | _ => false

def acksLate (σ : Net) : Act → Bool
  | .call s op => (σ.ep s).closesOwing op
  | .readReady s => σ.next s MsgSwitch.acksLate
  | .writeReady _ => false

def queuesBlank (σ : Net) : Act → Bool
  | .call s op => (σ.ep s).flushesBlank op
  | .readReady s => σ.next s MsgSwitch.acksBlank
  | .writeReady _ => false

def crossesClose (σ : Net) : Act → Bool
  | .readReady s => σ.next s MsgSwitch.crossesClose
  | _ => false

end Net

end Zimr
