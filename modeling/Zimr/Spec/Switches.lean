import Zimr.Spec.Net

/-!
# Several switches and the ready counter

The file's `n_selectable` counts the msgs of every switch. `Switches` is the state of
the layer: the switch of each socket and the counter, which a step of one switch is
handed and hands back.

`Msg.ready` is what the counter is meant to count. `MsgSwitch.rechecks` says that a step
calls `msg_check_selectability` on a msg that is marked selectable and is still ready:
the last test of that function does not look at readiness, and the mark is taken off.
-/

namespace Zimr

/-! ## A switch whose socket may fail -/

/-- `msg_switch_failed`, before the handler is called. -/
def msgSwitchFailed (sw : MsgSwitch) : MsgSwitch := { sw with connected := false, writeArmed := false }

/-- A step of one switch, or a failed read or write of its socket. -/
inductive SockEvent
  | event (e : Event)
  | failed
  deriving DecidableEq, Repr

def MsgSwitch.sockStep (sw : MsgSwitch) : SockEvent → Except Fault MsgSwitch
  | .event e => sw.step e
  | .failed => .ok (msgSwitchFailed sw)

/-- The loop of `msg_switch_destroy`: every msg is freed. -/
def msgFreeAll : List ℕ → MsgSwitch → Except Fault MsgSwitch
  | [], sw => .ok sw
  | i :: is, sw => do
    let sw ← (if (sw.msgs i).isSome then msgFree sw i else pure sw)
    msgFreeAll is sw

/-- `msg_switch_destroy`. -/
def msgSwitchDestroy (sw : MsgSwitch) : Except Fault MsgSwitch :=
  msgFreeAll (List.range fdSetSize) sw

/-! ## Readiness -/

/-- Not yet accepted, or armed for something the msg has or will not get any more. -/
def Msg.ready (msg : Msg) (rd wr : Bool) : Bool :=
  !msg.status.connected
    || (rd && (msg.status.packetAvailToRead || msg.status.disconnected))
    || (wr && (msg.status.spaceAvailForWrit || msg.status.disconnected))

namespace MsgSwitch

/-- The msg in slot `j` is live and ready. -/
def ready (sw : MsgSwitch) (j : ℕ) : Bool :=
  match sw.msgs j with
  | some msg => msg.ready (sw.activeReadFdSet j) (sw.activeWriteFdSet j)
  | none => false

/-- The msg in slot `j` is live and marked. -/
def marked (sw : MsgSwitch) (j : ℕ) : Bool := (sw.msgs j).isSome && sw.selectable j

/-- The object after one more packet is queued for writing. -/
def fuller (msg : Msg) : Msg :=
  { msg with status.spaceAvailForWrit :=
      if msgNBuffPacketsAllowed ≤ msg.writQueue.length + 1 then false
      else msg.status.spaceAvailForWrit }

/-- The object after the head of `read_queue` is popped. -/
def emptier (msg : Msg) : Msg :=
  { msg with status.packetAvailToRead :=
      if msg.readQueue.length ≤ 1 then false else msg.status.packetAvailToRead }

/-- The check that follows a push finds the msg still ready. -/
def stillReady (sw : MsgSwitch) (msg : Msg) : Bool :=
  msg.ready (sw.activeReadFdSet msg.msgid) (sw.activeWriteFdSet msg.msgid)

/-- The calls that check a msg which is marked and stays ready. -/
def rechecksCall (sw : MsgSwitch) : Op → Bool
  | .open _ =>
    match msgGetAvailMsgid sw with
    | some j => sw.activeWriteFdSet j
    | none => false
  | .accept j =>
    match sw.msgs j with
    | some msg => !msg.status.closed && !msg.status.connected && !msg.status.disconnected
        && sw.stillReady { msg with status.connected := true }
    | none => false
  | .write j buf =>
    match sw.msgs j with
    | some msg => !msg.status.closed && !msg.status.disconnected && msg.status.spaceAvailForWrit
        && decide (packDataSize <
          (msg.incompleteWritPacket.map MsgPacket.size).getD 0 + buf.length)
        && sw.stillReady (fuller msg)
    | none => false
  | .flush j =>
    match sw.msgs j with
    | some msg => !msg.status.closed && msg.incompleteWritPacket.isSome && sw.stillReady (fuller msg)
    | none => false
  | .read j size =>
    match sw.msgs j with
    | some msg => !msg.status.closed && msg.status.packetAvailToRead && decide (0 < size)
        && (msg.readQueue.head?.map fun p => decide (p.size - msg.curReadPacketPos ≤ size)).getD false
        && sw.stillReady (emptier msg)
    | none => false
  | .close j =>
    match sw.msgs j with
    | some msg => !msg.status.closed && msg.ready false (sw.activeWriteFdSet j)
    | none => false
  | .setRead j => sw.ready j
  | .setWrite j => sw.ready j
  | .clrRead j =>
    match sw.msgs j with
    | some msg => msg.ready false (sw.activeWriteFdSet j)
    | none => false
  | .clrWrite j =>
    match sw.msgs j with
    | some msg => msg.ready (sw.activeReadFdSet j) false
    | none => false

/-- The frames that do. One that creates a msg checks it twice. -/
def rechecksFrame (sw : MsgSwitch) : Frame → Bool
  | .pack packet =>
    match msgGet sw packet.msgid with
    | some msg => sw.stillReady msg
    | none => true
  | .resp resp =>
    match msgGet sw resp.msgid, resp.status with
    | some msg, .ok => !msg.status.sentDisconnect && msg.status.waitingForResp
        && (if !msg.status.packetAvailToWrit && !msg.status.closed
              && msg.incompleteWritPacket.isSome then sw.stillReady (fuller msg)
            else sw.stillReady msg)
    | some msg, .discon => !msg.status.sentDisconnect
        && (if !msg.status.packetAvailToRead then sw.stillReady msg
            else match msg.writQueue with
              | [] => false
              | [_] => sw.stillReady msg
              | _ => sw.stillReady { msg with status.disconnected := true })
    | none, _ => false

/-- The steps that do. A write event pops a packet of the first pending msg. -/
def rechecks (sw : MsgSwitch) : SockEvent → Bool
  | .event (.call op) => sw.rechecksCall op
  | .event .writeReady =>
    match sw.pendingResps, sw.pendingMsgs with
    | [], ptr :: _ => sw.writeArmed && sw.ready ptr.msgid
    | _, _ => false
  | .event (.recv frame) => sw.rechecksFrame frame
  | .failed => false

end MsgSwitch

/-! ## The layer -/

/-- The switch of each socket, and `n_selectable`. -/
structure Switches where
  sw : ℕ → Option MsgSwitch
  nSelectable : ℤ

/-- No switch yet. -/
def Switches.init : Switches := ⟨fun _ => none, 0⟩

/-- `msg_switch_need_select`. -/
def msgSwitchNeedSelect (σ : Switches) : Bool := decide (σ.nSelectable ≠ 0)

/-- A step of the layer. -/
inductive SwAct
  | create (fd : ℕ)
  | destroy (fd : ℕ)
  | event (fd : ℕ) (e : SockEvent)
  deriving DecidableEq, Repr

/-- The switch of `fd`, with the counter. -/
def Switches.get (σ : Switches) (fd : ℕ) : Option MsgSwitch :=
  (σ.sw fd).map fun sw => { sw with nSelectable := σ.nSelectable }

/-- A socket that has no switch has no msgs to step, and gets none twice. -/
def Switches.step (σ : Switches) : SwAct → Except Fault Switches
  | .create fd =>
    if fd < fdSetSize && (σ.sw fd).isNone then
      .ok { σ with sw := Function.update σ.sw fd (some msgSwitchCreate) }
    else .ok σ
  | .destroy fd =>
    match σ.get fd with
    | some sw => do
      let sw ← msgSwitchDestroy sw
      return ⟨Function.update σ.sw fd none, sw.nSelectable⟩
    | none => .ok σ
  | .event fd e =>
    match σ.get fd with
    | some sw => do
      let sw ← sw.sockStep e
      return ⟨Function.update σ.sw fd (some sw), sw.nSelectable⟩
    | none => .ok σ

/-- `rechecks`, for the layer. -/
def Switches.rechecks (σ : Switches) : SwAct → Bool
  | .event fd e =>
    match σ.sw fd with
    | some sw => sw.rechecks e
    | none => false
  | _ => false

end Zimr
