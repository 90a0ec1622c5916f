import Mathlib.Data.Int.Notation
import Zimr.Spec.FdHash

/-!
# The message switch (`msg_switch.c`)

One endpoint: many msgs share one socket. Each function takes the switch and
returns the new one; the C functions reach it through `msg_switch_get_by_fd`, and
here it is an argument.

* A failed `assert`, a dereference of `NULL` or of a freed object, and an index
  outside a table are a `Fault`; the run stops there.
* `msg_t` objects are heap objects. `Msg.addr` is the address, fresh for every
  `msg_create`, and an entry of `pending_msgs` is such a pointer (`MsgPtr`).
* `owner`, `ackOf` and `lastFrom` are ghost fields: they record which object a
  frame was made by or for. No function looks at them.
-/

namespace Zimr

/-- `MSG_N_BUFF_PACKETS_ALLOWED`. -/
def msgNBuffPacketsAllowed : ℕ := 2

/-- `PACK_DATA_SIZE`, with `sizeof( msg_packet_header_t )` the three ints. -/
def packDataSize : ℕ := 8 * 1024 - 12

/-- Where an endpoint stops. The first five are the asserts of the source. -/
inductive Fault
  /-- `assert( msg = msg_get( ... ) )`. -/
  | noMsg
  /-- `assert( msg->incomplete_writ_packet )`. -/
  | noIncomplete
  /-- `assert( status != MSG_RESP_OK || NEED_TO_SEND_RESP )` in `msg_send_resp`. -/
  | noNeedResp
  /-- `assert( WAITING_FOR_RESP )` in `msg_recv_resp`. -/
  | notWaiting
  /-- `assert( header.msgid < 0 )` in `msg_switch_read`. -/
  | badMsgid
  | nullDeref
  | useAfterFree
  | outOfBounds
  deriving DecidableEq, Repr

/-- The `errno` values the external functions set. -/
inductive Errno
  | ebadmsg | epipe | eagain | eexist | econnaborted
  deriving DecidableEq, Repr

/-- The `MSG_STAT_*` bits. -/
structure MsgStat where
  connected : Bool := false
  packetAvailToRead : Bool := false
  packetAvailToWrit : Bool := false
  spaceAvailForRead : Bool := false
  spaceAvailForWrit : Bool := false
  waitingForResp : Bool := false
  needToSendResp : Bool := false
  writing : Bool := false
  closed : Bool := false
  sentDisconnect : Bool := false
  disconnected : Bool := false
  deriving DecidableEq, Repr

/-- `MSG_RESP_OK`, `MSG_RESP_DISCON`. -/
inductive RespStatus
  | ok | discon
  deriving DecidableEq, Repr

/-- `msg_resp_t`. -/
structure MsgResp where
  msgid : ℤ
  status : RespStatus
  owner : ℕ
  ackOf : Option ℕ
  deriving DecidableEq, Repr

/-- `msg_packet_t`; `data` is the part in use, `header.size` bytes of it. -/
structure MsgPacket where
  msgid : ℤ
  type : ℤ
  data : List UInt8
  owner : ℕ
  deriving DecidableEq, Repr

/-- `header.size`. -/
def MsgPacket.size (packet : MsgPacket) : ℕ := packet.data.length

/-- A pointer to a `msg_t`, with the `msgid` the object was created with. -/
structure MsgPtr where
  addr : ℕ
  msgid : ℕ
  deriving DecidableEq, Repr

/-- `msg_t`. -/
structure Msg where
  addr : ℕ
  msgid : ℕ
  imsgid : ℕ := 0
  type : ℤ
  status : MsgStat
  nWrit : ℕ := 0
  nRead : ℕ := 0
  incompleteWritPacket : Option MsgPacket := none
  curReadPacketPos : ℕ := 0
  readQueue : List MsgPacket := []
  writQueue : List MsgPacket := []
  lastFrom : Option ℕ := none
  deriving DecidableEq, Repr

/-- The pointer to this object. -/
def Msg.ptr (msg : Msg) : MsgPtr := ⟨msg.addr, msg.msgid⟩

/-- `msg->imsgid ? msg->imsgid : -msg->msgid`. -/
def Msg.wireId (msg : Msg) : ℤ := if msg.imsgid ≠ 0 then (msg.imsgid : ℤ) else -(msg.msgid : ℤ)

/-- `msg_switch_t`. `selectable` holds that field of the `msg_t` in each slot,
`writeArmed` is the socket's write interest (`zs_isset_write`), `nSelectable` this
switch's part of the file's counter, `nextAddr` the next address `malloc` returns for
a `msg_t`. -/
structure MsgSwitch where
  connected : Bool
  pendingResps : List MsgResp
  pendingMsgs : List MsgPtr
  msgs : ℕ → Option Msg
  imsgidMap : ℕ → ℕ
  activeReadFdSet : ℕ → Bool
  activeWriteFdSet : ℕ → Bool
  activeHash : FdHash
  selectable : ℕ → Bool
  writeArmed : Bool
  nSelectable : ℤ
  nextAddr : ℕ

/-- What `msg_switch_write` writes: `MSG_TYPE_RESP` or `MSG_TYPE_PACK`. -/
inductive Frame
  | resp (resp : MsgResp)
  | pack (packet : MsgPacket)
  deriving DecidableEq, Repr

/-- `msg_switch_create`. -/
def msgSwitchCreate : MsgSwitch where
  connected := true
  pendingResps := []
  pendingMsgs := []
  msgs := fun _ => none
  imsgidMap := fun _ => 0
  activeReadFdSet := fun _ => false
  activeWriteFdSet := fun _ => false
  activeHash := fdHashInit
  selectable := fun _ => false
  writeArmed := false
  nSelectable := 0
  nextAddr := 0

/-! ## Tables and queues -/

/-- `msg_get`: a positive id is a slot, a negative one goes through `imsgid_map`. -/
def msgGet (sw : MsgSwitch) (msgid : ℤ) : Option Msg :=
  if msgid = 0 then none
  else if 0 < msgid then sw.msgs msgid.toNat
  else if sw.imsgidMap msgid.natAbs ≠ 0 then sw.msgs (sw.imsgidMap msgid.natAbs)
  else none

/-- `msg_set`; also a write through a pointer to the object in that slot. -/
def MsgSwitch.set (sw : MsgSwitch) (msgid : ℕ) (msg : Option Msg) : MsgSwitch :=
  { sw with msgs := Function.update sw.msgs msgid msg }

/-- `assert( msg = msg_get( msg_switch, msgid ) )`. -/
def MsgSwitch.assertMsg (sw : MsgSwitch) (msgid : ℕ) : Except Fault Msg :=
  match sw.msgs msgid with
  | some msg => .ok msg
  | none => .error .noMsg

/-- `msg_get_avail_msgid`: the first free slot, `none` for the `-1`. -/
def msgGetAvailMsgid (sw : MsgSwitch) : Option ℕ :=
  (List.range' 1 (fdSetSize - 1)).find? (fun i => (sw.msgs i).isNone)

/-- `msg_switch_has_avail_writs`. -/
def msgSwitchHasAvailWrits (sw : MsgSwitch) : Bool :=
  !sw.pendingMsgs.isEmpty || !sw.pendingResps.isEmpty

/-- `msg_switch_push_resp`. -/
def msgSwitchPushResp (sw : MsgSwitch) (resp : MsgResp) : MsgSwitch :=
  { sw with pendingResps := sw.pendingResps ++ [resp], writeArmed := true }

/-- `msg_switch_push_writ_msg`. -/
def msgSwitchPushWritMsg (sw : MsgSwitch) (msg : Msg) : MsgSwitch :=
  { sw with pendingMsgs := sw.pendingMsgs ++ [msg.ptr], writeArmed := true }

/-! ## Internal functions -/

/-- `msg->selectable = b`, with the counter one up or down. -/
def MsgSwitch.select (sw : MsgSwitch) (msgid : ℕ) (b : Bool) : MsgSwitch :=
  { sw with
    selectable := Function.update sw.selectable msgid b
    nSelectable := if b then sw.nSelectable + 1 else sw.nSelectable - 1 }

/-- `msg_check_selectability`. -/
def msgCheckSelectability (sw : MsgSwitch) (msgid : ℕ) : Except Fault MsgSwitch := do
  let msg ← sw.assertMsg msgid
  if !sw.selectable msgid && !msg.status.connected then
    return sw.select msgid true
  if !sw.selectable msgid && sw.activeReadFdSet msgid
      && (msg.status.packetAvailToRead || msg.status.disconnected) then
    return sw.select msgid true
  if !sw.selectable msgid && sw.activeWriteFdSet msgid
      && (msg.status.spaceAvailForWrit || msg.status.disconnected) then
    return sw.select msgid true
  if sw.selectable msgid then
    return sw.select msgid false
  return sw

/-- `msg_create`. With every slot taken `msg_get_avail_msgid` is `-1`, and the
source writes `msgs[ -1 ]`. -/
def msgCreate (sw : MsgSwitch) (type : ℤ) : Except Fault (MsgSwitch × ℕ) := do
  match msgGetAvailMsgid sw with
  | none => throw .outOfBounds
  | some msgid =>
    let msg : Msg :=
      { addr := sw.nextAddr, msgid, type
        status := { spaceAvailForRead := true, spaceAvailForWrit := true } }
    let sw := { sw with
      nextAddr := sw.nextAddr + 1
      selectable := Function.update sw.selectable msgid false }
    let sw ← msgCheckSelectability (sw.set msgid (some msg)) msgid
    return (sw, msgid)

/-- `msg_send_resp`. -/
def msgSendResp (sw : MsgSwitch) (msgid : ℕ) (status : RespStatus) : Except Fault MsgSwitch := do
  let msg ← sw.assertMsg msgid
  if status = .ok && !msg.status.needToSendResp then
    throw .noNeedResp
  let sw := msgSwitchPushResp sw
    { msgid := msg.wireId, status, owner := msg.addr, ackOf := msg.lastFrom }
  if status = .ok then
    return sw.set msgid (some { msg with status.needToSendResp := false })
  return sw

/-- `msg_update_status`. -/
def msgUpdateStatus (sw : MsgSwitch) (msgid : ℕ) : Except Fault MsgSwitch := do
  let msg ← sw.assertMsg msgid
  let sw ← (if msg.status.needToSendResp && msg.status.spaceAvailForRead
      && !msg.status.disconnected then msgSendResp sw msgid .ok else pure sw)
  let msg ← sw.assertMsg msgid
  if msg.status.packetAvailToWrit && !(msg.status.waitingForResp || msg.status.writing) then
    return msgSwitchPushWritMsg (sw.set msgid (some { msg with status.writing := true })) msg
  return sw

/-- `msg_clear`. -/
def msgClear (sw : MsgSwitch) (msgid : ℕ) : Except Fault MsgSwitch := do
  let msg ← sw.assertMsg msgid
  let sw :=
    if msg.status.writing && sw.pendingMsgs.contains msg.ptr then
      let sw := { sw with pendingMsgs := sw.pendingMsgs.erase msg.ptr }
      if !msgSwitchHasAvailWrits sw then { sw with writeArmed := false } else sw
    else sw
  let status := { msg.status with
    packetAvailToRead := false
    packetAvailToWrit := false
    spaceAvailForRead := false
    spaceAvailForWrit := false
    waitingForResp := false
    writing := false
    needToSendResp := false }
  msgCheckSelectability
    (sw.set msgid (some { msg with writQueue := [], readQueue := [], status })) msgid

/-- `msg_free`. -/
def msgFree (sw : MsgSwitch) (msgid : ℕ) : Except Fault MsgSwitch := do
  let sw ← msgClear sw msgid
  let msg ← sw.assertMsg msgid
  let sw := if sw.selectable msgid then { sw with nSelectable := sw.nSelectable - 1 } else sw
  let sw :=
    if msg.imsgid ≠ 0 then { sw with imsgidMap := Function.update sw.imsgidMap msg.imsgid 0 }
    else sw
  return sw.set msgid none

/-- `msg_push_writ_packet`. -/
def msgPushWritPacket (sw : MsgSwitch) (msgid : ℕ) : Except Fault MsgSwitch := do
  let msg ← sw.assertMsg msgid
  match msg.incompleteWritPacket with
  | none => throw .noIncomplete
  | some packet =>
    let writQueue := msg.writQueue ++ [packet]
    let status := { msg.status with
      packetAvailToWrit := true
      spaceAvailForWrit :=
        if msgNBuffPacketsAllowed ≤ writQueue.length then false else msg.status.spaceAvailForWrit }
    let sw := sw.set msgid (some { msg with writQueue, incompleteWritPacket := none, status })
    let sw ← msgCheckSelectability sw msgid
    msgUpdateStatus sw msgid

/-- `msg_pop_writ_packet`. `list_get_at` returns `NULL` on an empty queue. -/
def msgPopWritPacket (sw : MsgSwitch) (msgid : ℕ) : Except Fault (MsgSwitch × MsgPacket) := do
  let msg ← sw.assertMsg msgid
  match msg.writQueue with
  | [] => throw .nullDeref
  | packet :: writQueue =>
    let status := { msg.status with
      waitingForResp := true
      writing := false
      spaceAvailForWrit :=
        if !(msgNBuffPacketsAllowed ≤ writQueue.length) then true else msg.status.spaceAvailForWrit
      packetAvailToWrit :=
        if !(1 ≤ writQueue.length) then false else msg.status.packetAvailToWrit }
    let sw := sw.set msgid (some { msg with writQueue, status })
    let sw ← msgCheckSelectability sw msgid
    let sw ← msgUpdateStatus sw msgid
    return (sw, packet)

/-- `msg_push_read_packet`. -/
def msgPushReadPacket (sw : MsgSwitch) (msgid : ℕ) (packet : MsgPacket) :
    Except Fault MsgSwitch := do
  let msg ← sw.assertMsg msgid
  let readQueue := if !msg.status.closed then msg.readQueue ++ [packet] else msg.readQueue
  let status := { msg.status with
    needToSendResp := true
    packetAvailToRead := true
    spaceAvailForRead :=
      if msgNBuffPacketsAllowed ≤ readQueue.length then false else msg.status.spaceAvailForRead }
  let sw := sw.set msgid (some { msg with
    readQueue, status, nRead := msg.nRead + 1, lastFrom := some packet.owner })
  let sw ← msgCheckSelectability sw msgid
  msgUpdateStatus sw msgid

/-- `msg_pop_read_packet`; `list_fetch` on an empty queue is `NULL`, which `free` takes. -/
def msgPopReadPacket (sw : MsgSwitch) (msgid : ℕ) : Except Fault MsgSwitch := do
  let msg ← sw.assertMsg msgid
  let readQueue := msg.readQueue.tail
  let status := { msg.status with
    spaceAvailForRead :=
      if !(msgNBuffPacketsAllowed ≤ readQueue.length) then true else msg.status.spaceAvailForRead
    packetAvailToRead :=
      if !(1 ≤ readQueue.length) then false else msg.status.packetAvailToRead }
  let sw := sw.set msgid (some { msg with readQueue, status, curReadPacketPos := 0 })
  let sw ← msgCheckSelectability sw msgid
  msgUpdateStatus sw msgid

/-- `msg_packet_new`. -/
def msgPacketNew (sw : MsgSwitch) (msgid : ℕ) : Except Fault MsgSwitch := do
  let msg ← sw.assertMsg msgid
  let sw ← (if msg.incompleteWritPacket.isSome then msgPushWritPacket sw msgid else pure sw)
  let msg ← sw.assertMsg msgid
  let packet : MsgPacket := { msgid := msg.wireId, type := msg.type, data := [], owner := msg.addr }
  return sw.set msgid (some { msg with
    incompleteWritPacket := some packet, nWrit := msg.nWrit + 1 })

/-- `msg_flush`. The zeroing of the unused part of the packet is left to the wire. -/
def msgFlush (sw : MsgSwitch) (msgid : ℕ) : Except Fault (MsgSwitch × Except Errno ℕ) := do
  match sw.msgs msgid with
  | none => return (sw, .error .ebadmsg)
  | some msg =>
    if msg.status.closed then
      return (sw, .error .ebadmsg)
    if msg.incompleteWritPacket.isSome then
      return (← msgPushWritPacket sw msgid, .ok 0)
    return (sw, .ok 0)

/-- `while ( PACKET_AVAIL_TO_WRIT ) msg_pop_writ_packet( ... )`, the queue's length
in rounds. -/
def msgDrainWrit : ℕ → MsgSwitch → ℕ → Except Fault MsgSwitch
  | 0, sw, _ => .ok sw
  | n + 1, sw, msgid => do
    let msg ← sw.assertMsg msgid
    if msg.status.packetAvailToWrit then
      let (sw, _) ← msgPopWritPacket sw msgid
      msgDrainWrit n sw msgid
    else return sw

/-- `while ( PACKET_AVAIL_TO_READ ) msg_pop_read_packet( ... )`. -/
def msgDrainRead : ℕ → MsgSwitch → ℕ → Except Fault MsgSwitch
  | 0, sw, _ => .ok sw
  | n + 1, sw, msgid => do
    let msg ← sw.assertMsg msgid
    if msg.status.packetAvailToRead then
      let sw ← msgPopReadPacket sw msgid
      msgDrainRead n sw msgid
    else return sw

/-- `msg_recv_resp` for the msg in slot `msgid`. -/
def msgRecvResp (sw : MsgSwitch) (msgid : ℕ) (resp : MsgResp) : Except Fault MsgSwitch := do
  let msg ← sw.assertMsg msgid
  match resp.status with
  | .discon =>
    if !msg.status.sentDisconnect then
      -- not the sender of the disconnect: return one
      let sw ← msgSendResp sw msgid .discon
      let sw := { sw with imsgidMap := Function.update sw.imsgidMap msg.imsgid 0 }
      let msg := { msg with
        status.sentDisconnect := true, status.disconnected := true, imsgid := 0 }
      let sw := sw.set msgid (some msg)
      if !msg.status.packetAvailToRead then
        msgClear sw msgid
      else
        msgDrainWrit (msg.writQueue.length + 1) sw msgid
    else
      msgFree sw msgid
  | .ok =>
    if msg.status.sentDisconnect then
      return sw
    if !msg.status.waitingForResp then
      throw .notWaiting
    let sw := sw.set msgid (some { msg with status.waitingForResp := false })
    let sw ← (if !msg.status.packetAvailToWrit then do
        -- nothing has become available since the last write: flush whatever there is
        let (sw, _) ← msgFlush sw msgid
        let msg ← sw.assertMsg msgid
        if !msg.status.packetAvailToWrit && msg.status.closed then
          let sw ← msgSendResp sw msgid .discon
          return sw.set msgid (some { msg with status.sentDisconnect := true })
        return sw
      else pure sw)
    let sw ← msgCheckSelectability sw msgid
    msgUpdateStatus sw msgid

/-! ## External msg functions -/

/-- `msg_set_read`. -/
def msgSetRead (sw : MsgSwitch) (msgid : ℕ) : Except Fault MsgSwitch := do
  let _ ← sw.assertMsg msgid
  msgCheckSelectability { sw with
    activeReadFdSet := Function.update sw.activeReadFdSet msgid true
    activeHash := fdHashAdd sw.activeHash msgid } msgid

/-- `msg_clr_read`. -/
def msgClrRead (sw : MsgSwitch) (msgid : ℕ) : Except Fault MsgSwitch := do
  let _ ← sw.assertMsg msgid
  msgCheckSelectability { sw with
    activeReadFdSet := Function.update sw.activeReadFdSet msgid false
    activeHash :=
      if !sw.activeWriteFdSet msgid then fdHashRemove sw.activeHash msgid else sw.activeHash } msgid

/-- `msg_set_write`. -/
def msgSetWrite (sw : MsgSwitch) (msgid : ℕ) : Except Fault MsgSwitch := do
  let _ ← sw.assertMsg msgid
  msgCheckSelectability { sw with
    activeWriteFdSet := Function.update sw.activeWriteFdSet msgid true
    activeHash := fdHashAdd sw.activeHash msgid } msgid

/-- `msg_clr_write`. -/
def msgClrWrite (sw : MsgSwitch) (msgid : ℕ) : Except Fault MsgSwitch := do
  let _ ← sw.assertMsg msgid
  msgCheckSelectability { sw with
    activeWriteFdSet := Function.update sw.activeWriteFdSet msgid false
    activeHash :=
      if !sw.activeReadFdSet msgid then fdHashRemove sw.activeHash msgid else sw.activeHash } msgid

/-- `msg_open`. -/
def msgOpen (sw : MsgSwitch) (type : ℤ) : Except Fault (MsgSwitch × ℕ) := do
  let (sw, msgid) ← msgCreate sw type
  let msg ← sw.assertMsg msgid
  let sw := sw.set msgid (some { msg with status.connected := true })
  let sw ← msgCheckSelectability sw msgid
  return (sw, msgid)

/-- `msg_accept`. -/
def msgAccept (sw : MsgSwitch) (msgid : ℕ) : Except Fault (MsgSwitch × Except Errno ℕ) := do
  match sw.msgs msgid with
  | none => return (sw, .error .ebadmsg)
  | some msg =>
    if msg.status.closed then
      return (sw, .error .ebadmsg)
    if msg.status.connected then
      return (sw, .error .eexist)
    if msg.status.disconnected then
      return (← msgFree sw msgid, .error .econnaborted)
    let sw := sw.set msgid (some { msg with status.connected := true })
    let sw := { sw with activeHash := fdHashRemove sw.activeHash msgid }
    return (← msgCheckSelectability sw msgid, .ok msgid)

/-- `msg_close`. After `msg_free` the source still reads `msg->status`: the freed
object as `msg_clear` left it, with nothing to read, so the loop does not run. -/
def msgClose (sw : MsgSwitch) (msgid : ℕ) : Except Fault (MsgSwitch × Except Errno ℕ) := do
  match sw.msgs msgid with
  | none => return (sw, .error .ebadmsg)
  | some msg =>
    if msg.status.closed then
      return (sw, .error .ebadmsg)
    let sw ← msgClrRead sw msgid
    let sw ← msgClrWrite sw msgid
    if msg.status.disconnected || !sw.connected then
      return (← msgFree sw msgid, .ok 0)
    let (sw, _) ← msgFlush sw msgid
    let msg ← sw.assertMsg msgid
    let msg := { msg with status.closed := true }
    let sw := sw.set msgid (some msg)
    if !msg.status.packetAvailToWrit then
      if msg.nWrit = 0 && msg.nRead = 0 then
        return (← msgFree sw msgid, .ok 0)
      let sw ← msgSendResp sw msgid .discon
      let sw := sw.set msgid (some { msg with status.sentDisconnect := true })
      return (← msgDrainRead (msg.readQueue.length + 1) sw msgid, .ok 0)
    return (← msgDrainRead (msg.readQueue.length + 1) sw msgid, .ok 0)

/-- The copy loop of `msg_write`. Every round takes at least one byte. -/
def msgWriteLoop : ℕ → MsgSwitch → ℕ → List UInt8 → Except Fault MsgSwitch
  | 0, sw, _, _ => .ok sw
  | n + 1, sw, msgid, data =>
    if data.isEmpty then .ok sw
    else do
      let msg ← sw.assertMsg msgid
      let sw ← (if msg.incompleteWritPacket.map MsgPacket.size = some packDataSize then
        msgPacketNew sw msgid else pure sw)
      let msg ← sw.assertMsg msgid
      match msg.incompleteWritPacket with
      | none => throw .nullDeref
      | some packet =>
        let chunk :=
          if packDataSize - packet.size < data.length then packDataSize - packet.size
          else data.length
        let packet := { packet with data := packet.data ++ data.take chunk }
        let sw := sw.set msgid (some { msg with incompleteWritPacket := some packet })
        msgWriteLoop n sw msgid (data.drop chunk)

/-- `msg_write`. -/
def msgWrite (sw : MsgSwitch) (msgid : ℕ) (buf : List UInt8) :
    Except Fault (MsgSwitch × Except Errno ℕ) := do
  match sw.msgs msgid with
  | none => return (sw, .error .ebadmsg)
  | some msg =>
    if msg.status.closed then
      return (sw, .error .ebadmsg)
    if msg.status.disconnected then
      return (sw, .error .epipe)
    if !msg.status.spaceAvailForWrit then
      return (sw, .error .eagain)
    let sw ← (if msg.incompleteWritPacket.isNone then msgPacketNew sw msgid else pure sw)
    return (← msgWriteLoop buf.length sw msgid buf, .ok buf.length)

/-- The copy loop of `msg_read`: `size` bytes still wanted, `buf` those already
copied. Every round but the last one pops a packet. -/
def msgReadLoop : ℕ → MsgSwitch → ℕ → ℕ → List UInt8 → Except Fault (MsgSwitch × List UInt8)
  | 0, sw, _, _, buf => .ok (sw, buf)
  | n + 1, sw, msgid, size, buf =>
    if size = 0 then .ok (sw, buf)
    else do
      let msg ← sw.assertMsg msgid
      match msg.readQueue with
      | [] => throw .nullDeref
      | packet :: _ =>
        let chunk :=
          if size < packet.size - msg.curReadPacketPos then size
          else packet.size - msg.curReadPacketPos
        let buf := buf ++ (packet.data.drop msg.curReadPacketPos).take chunk
        let pos := msg.curReadPacketPos + chunk
        let sw := sw.set msgid (some { msg with curReadPacketPos := pos })
        if pos = packet.size then
          let sw ← msgPopReadPacket sw msgid
          let msg ← sw.assertMsg msgid
          if !msg.status.packetAvailToRead then
            return (sw, buf)
          msgReadLoop n sw msgid (size - chunk) buf
        else
          msgReadLoop n sw msgid (size - chunk) buf

/-- `msg_read`; the bytes are returned, their number is the C result. -/
def msgRead (sw : MsgSwitch) (msgid : ℕ) (size : ℕ) :
    Except Fault (MsgSwitch × Except Errno (List UInt8)) := do
  match sw.msgs msgid with
  | none => return (sw, .error .ebadmsg)
  | some msg =>
    if msg.status.closed then
      return (sw, .error .ebadmsg)
    if msg.status.disconnected && !msg.status.packetAvailToRead then
      return (sw, .ok [])
    if !msg.status.packetAvailToRead then
      return (sw, .error .eagain)
    let (sw, buf) ← msgReadLoop (msg.readQueue.length + 1) sw msgid size []
    return (sw, .ok buf)

/-! ## Socket events -/

/-- `msg_switch_pop_writ_packet`. The pointer is followed: a freed object is a fault. -/
def msgSwitchPopWritPacket (sw : MsgSwitch) : Except Fault (MsgSwitch × MsgPacket) :=
  match sw.pendingMsgs with
  | [] => throw .nullDeref
  | ptr :: rest =>
    match sw.msgs ptr.msgid with
    | none => throw .useAfterFree
    | some msg =>
      if msg.addr = ptr.addr then
        msgPopWritPacket { sw with pendingMsgs := rest } ptr.msgid
      else throw .useAfterFree

/-- `msg_switch_write`, with the frame it hands to `zs_write`. -/
def msgSwitchWrite (sw : MsgSwitch) : Except Fault (MsgSwitch × Frame) := do
  let (sw, frame) ← (match sw.pendingResps with
    | resp :: rest => pure ({ sw with pendingResps := rest }, Frame.resp resp)
    | [] => do
      let (sw, packet) ← msgSwitchPopWritPacket sw
      return (sw, Frame.pack packet))
  let sw := if !msgSwitchHasAvailWrits sw then { sw with writeArmed := false } else sw
  return (sw, frame)

/-- What `msg_switch_read` does with one complete frame. -/
def msgSwitchDispatch (sw : MsgSwitch) : Frame → Except Fault MsgSwitch
  | .resp resp =>
    match msgGet sw resp.msgid with
    | some msg => msgRecvResp sw msg.msgid resp
    | none => .ok sw
  | .pack packet =>
    match msgGet sw packet.msgid with
    | some msg => msgPushReadPacket sw msg.msgid packet
    | none => do
      if 0 ≤ packet.msgid then
        throw .badMsgid
      if fdSetSize ≤ packet.msgid.natAbs then
        throw .outOfBounds
      let (sw, msgid) ← msgCreate sw packet.type
      let msg ← sw.assertMsg msgid
      let sw := sw.set msgid (some { msg with imsgid := packet.msgid.natAbs })
      let sw := { sw with
        imsgidMap := Function.update sw.imsgidMap packet.msgid.natAbs msgid
        activeHash := fdHashAdd sw.activeHash msgid }
      msgPushReadPacket sw msgid packet

end Zimr
