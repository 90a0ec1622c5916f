import Zimr.Lib.Run
import Zimr.Spec.MsgSwitch

/-!
# Two endpoints and the link between them

`MsgSwitch.step` is one top-level step of an endpoint: a call of an external
function, a write event, or a complete frame from the socket. `Net` joins two
endpoints by a FIFO of frames in each direction; every interleaving of their steps
is a list of `Act`.

`Net.log` is ghost: for every `msg_t` an endpoint has created, the object at the
other end of the same msg, the id its frames carry, the bytes `msg_write` accepted
and `msg_read` returned, and whether `msg_close` returned 0 for it.
-/

namespace Zimr

/-- The id on the wire. -/
def Frame.msgid : Frame → ℤ
  | .resp r => r.msgid
  | .pack p => p.msgid

/-- The object the frame was made by. -/
def Frame.owner : Frame → ℕ
  | .resp r => r.owner
  | .pack p => p.owner

/-- A call of an external function. -/
inductive Op
  | open (type : ℤ)
  | accept (msgid : ℕ)
  | write (msgid : ℕ) (buf : List UInt8)
  | flush (msgid : ℕ)
  | read (msgid : ℕ) (size : ℕ)
  | close (msgid : ℕ)
  | setRead (msgid : ℕ)
  | clrRead (msgid : ℕ)
  | setWrite (msgid : ℕ)
  | clrWrite (msgid : ℕ)
  deriving DecidableEq, Repr

/-- What a call returns. -/
inductive OpRet
  | none
  | num (n : Except Errno ℕ)
  | bytes (bs : Except Errno (List UInt8))

/-- One call. -/
def MsgSwitch.call (sw : MsgSwitch) : Op → Except Fault (MsgSwitch × OpRet)
  | .open type => do let (sw, msgid) ← msgOpen sw type; return (sw, .num (.ok msgid))
  | .accept msgid => do let (sw, r) ← msgAccept sw msgid; return (sw, .num r)
  | .write msgid buf => do let (sw, r) ← msgWrite sw msgid buf; return (sw, .num r)
  | .flush msgid => do let (sw, r) ← msgFlush sw msgid; return (sw, .num r)
  | .read msgid size => do let (sw, r) ← msgRead sw msgid size; return (sw, .bytes r)
  | .close msgid => do let (sw, r) ← msgClose sw msgid; return (sw, .num r)
  | .setRead msgid => do return (← msgSetRead sw msgid, .none)
  | .clrRead msgid => do return (← msgClrRead sw msgid, .none)
  | .setWrite msgid => do return (← msgSetWrite sw msgid, .none)
  | .clrWrite msgid => do return (← msgClrWrite sw msgid, .none)

/-- A top-level step of one endpoint. -/
inductive Event
  | call (op : Op)
  | writeReady
  | recv (frame : Frame)
  deriving DecidableEq, Repr

/-- The write event fires only while the socket is write-armed. -/
def MsgSwitch.step (sw : MsgSwitch) : Event → Except Fault MsgSwitch
  | .call op => do let (sw, _) ← sw.call op; return sw
  | .writeReady =>
    if sw.writeArmed then do let (sw, _) ← msgSwitchWrite sw; return sw
    else .ok sw
  | .recv frame => msgSwitchDispatch sw frame

/-- The two ends. -/
inductive Side
  | a | b
  deriving DecidableEq, Repr

/-- The other one. -/
def Side.other : Side → Side
  | .a => .b
  | .b => .a

/-- The history of one `msg_t`. -/
structure EndLog where
  peer : Option ℕ := none
  wid : ℤ := 0
  accepted : List UInt8 := []
  got : List UInt8 := []
  closed : Bool := false
  deriving DecidableEq, Repr

/-- Two endpoints; `chan s` holds the frames `s` has written and the other side has
not read. -/
structure Net where
  ep : Side → MsgSwitch
  chan : Side → List Frame
  log : Side → ℕ → EndLog

/-- Two fresh switches. -/
def Net.init : Net := ⟨fun _ => msgSwitchCreate, fun _ => [], fun _ _ => {}⟩

def Net.setEp (σ : Net) (s : Side) (sw : MsgSwitch) : Net :=
  { σ with ep := Function.update σ.ep s sw }

def Net.setChan (σ : Net) (s : Side) (fs : List Frame) : Net :=
  { σ with chan := Function.update σ.chan s fs }

def Net.setLog (σ : Net) (s : Side) (addr : ℕ) (l : EndLog) : Net :=
  { σ with log := Function.update σ.log s (Function.update (σ.log s) addr l) }

/-- What a call adds to the history of the object it is about. -/
def EndLog.record (l : EndLog) : Op → OpRet → EndLog
  | .write _ buf, .num (.ok _) => { l with accepted := l.accepted ++ buf }
  | .read _ _, .bytes (.ok bs) => { l with got := l.got ++ bs }
  | .close _, .num (.ok _) => { l with closed := true }
  | _, _ => l

/-- The slot a call names. -/
def Op.msgid : Op → Option ℕ
  | .open _ => none
  | .accept i | .write i _ | .flush i | .read i _ | .close i
  | .setRead i | .clrRead i | .setWrite i | .clrWrite i => some i

/-- A call on side `s`. -/
def Net.call (σ : Net) (s : Side) (op : Op) : Except Fault Net := do
  let (sw, ret) ← (σ.ep s).call op
  let σ' := σ.setEp s sw
  match op.msgid, ret with
  | none, .num (.ok msgid) => return σ'.setLog s (σ.ep s).nextAddr { wid := -(msgid : ℤ) }
  | none, _ => return σ'
  | some msgid, ret =>
    match (σ.ep s).msgs msgid with
    | some msg => return σ'.setLog s msg.addr ((σ.log s msg.addr).record op ret)
    | none => return σ'

/-- A write event on side `s`. -/
def Net.writeReady (σ : Net) (s : Side) : Except Fault Net :=
  if (σ.ep s).writeArmed then do
    let (sw, frame) ← msgSwitchWrite (σ.ep s)
    return (σ.setEp s sw).setChan s (σ.chan s ++ [frame])
  else .ok σ

/-- Side `s` reads the next frame. A frame that creates a msg makes the two objects
each other's peers. -/
def Net.readReady (σ : Net) (s : Side) : Except Fault Net :=
  match σ.chan s.other with
  | [] => .ok σ
  | frame :: rest => do
    let sw ← msgSwitchDispatch (σ.ep s) frame
    let σ' := (σ.setEp s sw).setChan s.other rest
    if sw.nextAddr = (σ.ep s).nextAddr then
      return σ'
    else
      return (σ'.setLog s (σ.ep s).nextAddr { peer := some frame.owner, wid := -frame.msgid }).setLog
        s.other frame.owner { σ.log s.other frame.owner with peer := some (σ.ep s).nextAddr }

/-- One step of the system. -/
inductive Act
  | call (s : Side) (op : Op)
  | writeReady (s : Side)
  | readReady (s : Side)
  deriving DecidableEq, Repr

def Net.step (σ : Net) : Act → Except Fault Net
  | .call s op => σ.call s op
  | .writeReady s => σ.writeReady s
  | .readReady s => σ.readReady s

/-- The frames `s` has committed to the link and the other side has not read: those
in the channel, then the queued responses, which go out before any packet. -/
def Net.wire (σ : Net) (s : Side) : List Frame :=
  σ.chan s ++ (σ.ep s).pendingResps.map Frame.resp

end Zimr
