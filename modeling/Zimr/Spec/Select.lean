import Zimr.Lib.Walk
import Zimr.Lib.Chain
import Zimr.Spec.Switches
import Zimr.Spec.Zsocket

/-!
# The three select loops

`zfd_select`, `zs_select` and `msg_switch_select` walk their lists of descriptors with `fd_hash_head`
and `fd_hash_next`. What a callback does is an argument: it may leave any state behind, but it
changes a list by `fd_hash_add` and `fd_hash_remove` only. The rest of the program is a state `W`.

`Walk.walk` takes the number of rounds; a round is one pass through the body of the loop.
-/

namespace Zimr

open Walk Chain

/-! ## What a callback does to a list -/

/-- `fd_hash_add` or `fd_hash_remove`. -/
inductive HashOp
  | add (fd : Fin fdSetSize)
  | remove (fd : Fin fdSetSize)

def FdHash.op (hash : FdHash) : HashOp → FdHash
  | .add fd => fdHashAdd hash fd
  | .remove fd => fdHashRemove hash fd

def FdHash.ops (hash : FdHash) (ops : List HashOp) : FdHash := ops.foldl FdHash.op hash

/-- A list as the program leaves it. -/
def FdHash.Reached (hash : FdHash) : Prop := ∃ ops, hash = fdHashInit.ops ops

/-- At most `n` entries from one on. -/
def FdHash.entriesFrom (hash : FdHash) : ℕ → Option ℕ → List ℕ
  | _, none => []
  | 0, some _ => []
  | n + 1, some fd => fd :: hash.entriesFrom n (fdHashNext hash fd)

/-- The entries, in order. -/
def FdHash.entries (hash : FdHash) : List ℕ := hash.entriesFrom fdSetSize (fdHashHead hash)

/-- `ZFD_R`, `ZFD_W`. -/
inductive IoType
  | r | w
  deriving DecidableEq, Repr

variable {W : Type}

/-! ## `zfd_select` -/

/-- The handlers of `zfd_set`. -/
abbrev ZfdCallback (W : Type) := ZfdHdlr → ℕ → W → Zfd → W × Zfd × List HashOp

/-- A handler is called. -/
def zfdCall (handler : ZfdCallback W) (s : W × Zfd) (i : ℕ) (h : Option ZfdHdlr) :
    Except ZsFault (W × Zfd) :=
  match h with
  | none => .error .nullDeref
  | some h =>
    let left := handler h i s.1 s.2
    .ok (left.1, { left.2.1 with activeHash := s.2.activeHash.ops left.2.2 })

/-- The two tests of the loop. `FD_ISSET( i, &write_fd_set )` is commented out. -/
def zfdTest (readFdSet : ℕ → Bool) (i : ℕ) (s : W × Zfd) : IoType → Bool
  | .r => readFdSet i && s.2.activeRead i
  | .w => s.2.activeWrite i

/-- The body of the loop. -/
def zfdVisit (handler : ZfdCallback W) (readFdSet : ℕ → Bool) (s : W × Zfd) (i : ℕ) :
    Except ZsFault ((W × Zfd) × List (Check (W × Zfd) IoType) × Option ℕ) :=
  (serve (fun s d => .ok (zfdTest readFdSet i s d))
    (fun s d => zfdCall handler s i (match d with
      | .r => s.2.readHandler i
      | .w => s.2.writeHandler i)) [.r, .w] s).map
    fun res => (res.1, res.2, fdHashNext res.1.2.activeHash i)

/-- `zfd_select`, with the descriptors that `select` has found readable. -/
def zfdSelect (handler : ZfdCallback W) (readFdSet : ℕ → Bool) (n : ℕ) (s : W × Zfd) :
    List (Visit (W × Zfd) ℕ IoType) × Outcome (W × Zfd) ZsFault :=
  walk (zfdVisit handler readFdSet) n (fdHashHead s.2.activeHash) s

/-! ## `zs_select` -/

/-- `ZS_EVT_READ_READY`, `ZS_EVT_ACCEPT_READY`, `ZS_EVT_WRITE_READY`. -/
inductive ZsEvt
  | readReady | acceptReady | writeReady
  deriving DecidableEq, Repr

/-- The state in the loop: `stale` says that `zs` has been freed. -/
structure ZsSel (W : Type) where
  world : W
  zs : Zs
  stale : Bool

/-- The event handlers, with the sockets that are freed. -/
abbrev ZsCallback (W : Type) := EventHdlr → ℕ → ZsEvt → W → Zs → W × Zs × (ℕ → Bool) × List HashOp

/-- `zs->general.event_hdlr( fd, evt )`. -/
def zsCall (handler : ZsCallback W) (s : ZsSel W) (fd : ℕ) (hdlr : EventHdlr) (evt : ZsEvt) : ZsSel W :=
  let left := handler hdlr fd evt s.world s.zs
  let zs := { left.2.1 with activeHash := s.zs.activeHash.ops left.2.2.2 }
  ⟨left.1, zs, s.stale || left.2.2.1 fd || (zs.zsockets fd).isNone⟩

/-- The record that `zs` points to. -/
def ZsSel.get (s : ZsSel W) (fd : ℕ) : Except ZsFault Zsocket :=
  if s.stale then .error .nullDeref else s.zs.get fd

/-- The two tests of the loop. -/
def zsTest (readFdSet writeFdSet : ℕ → Bool) (fd : ℕ) (s : ZsSel W) : IoType → Except ZsFault Bool
  | .r =>
    if readFdSet fd && s.zs.activeRead fd then (s.get fd).map fun zs => zs.status.readable
    else .ok false
  | .w =>
    if writeFdSet fd && s.zs.activeWrite fd then (s.get fd).map fun zs => zs.status.writable
    else .ok false

/-- The body of the loop, for an open socket. -/
def zsServe (handler : ZsCallback W) (readFdSet writeFdSet : ℕ → Bool) (fd : ℕ) (s : ZsSel W) :
    Except ZsFault (ZsSel W × List (Check (ZsSel W) IoType)) :=
  serve (zsTest readFdSet writeFdSet fd)
    (fun s d => (s.get fd).bind fun zs =>
      match d with
      | .r => .ok (zsCall handler s fd zs.eventHdlr
          (if zs.type = .connect then .readReady else .acceptReady))
      | .w =>
        if zs.type = .connect then .ok (zsCall handler s fd zs.eventHdlr .writeReady)
        else .error .assertion) [.r, .w] s

/-- The body of the loop. Without a socket it goes on with the same descriptor. -/
def zsVisit (handler : ZsCallback W) (readFdSet writeFdSet : ℕ → Bool) (s : ZsSel W) (fd : ℕ) :
    Except ZsFault (ZsSel W × List (Check (ZsSel W) IoType) × Option ℕ) :=
  if (s.zs.zsockets fd).isNone then .ok (s, [], some fd)
  else (zsServe handler readFdSet writeFdSet fd { s with stale := false }).map
    fun res => (res.1, res.2, fdHashNext res.1.zs.activeHash fd)

/-- `zs_select`. -/
def zsSelect (handler : ZsCallback W) (n : ℕ) (w : W) (zs : Zs) :
    List (Visit (ZsSel W) ℕ IoType) × Outcome (ZsSel W) ZsFault :=
  walk (zsVisit handler zs.activeRead zs.activeWrite) n (fdHashHead zs.activeHash) ⟨w, zs, false⟩

/-! ## `msg_switch_select` -/

/-- `MSG_EVT_ACCEPT_READY`, `MSG_EVT_READ_READY`, `MSG_EVT_WRITE_READY`. -/
inductive MsgEvt
  | acceptReady | readReady | writeReady
  deriving DecidableEq, Repr

/-- Where the two loops are: at the start of the outer body, or in the inner one. -/
inductive MsgPos
  | turn (fd : ℕ)
  | msg (fd msgid : ℕ)
  deriving DecidableEq, Repr

/-- The state in the loops. `sw` holds the switches that are allocated; `opened` says that
`msg_switch_get_by_fd` finds one. `readFdSet` and `writeFdSet` are the copies for the switch whose
turn it is, and `msg` is the address of the msg. -/
structure MsgSel (W : Type) where
  world : W
  sw : ℕ → Option MsgSwitch
  opened : ℕ → Bool
  active : FdHash
  readFdSet : ℕ → Bool
  writeFdSet : ℕ → Bool
  msg : Option ℕ

/-- What `msg_switch.c` does to its lists: `msg_switch_create`, `msg_switch_destroy`, and a change of
the list of one switch. -/
inductive SwitchOp
  | create (fd : Fin fdSetSize)
  | destroy (fd : Fin fdSetSize)
  | hash (fd : ℕ) (op : HashOp)

/-- The lists, and the switches that were freed. -/
structure SwitchLists where
  active : FdHash
  hashes : ℕ → FdHash
  freed : ℕ → Bool

def SwitchLists.op (l : SwitchLists) : SwitchOp → SwitchLists
  | .create fd => { l with
      active := fdHashAdd l.active fd, hashes := Function.update l.hashes fd fdHashInit }
  | .destroy fd => { l with
      active := fdHashRemove l.active fd, freed := Function.update l.freed fd true }
  | .hash fd op => { l with hashes := Function.update l.hashes fd ((l.hashes fd).op op) }

/-- The lists of a state. -/
def MsgSel.lists (s : MsgSel W) : SwitchLists :=
  ⟨s.active, fun fd => ((s.sw fd).map MsgSwitch.activeHash).getD fdHashInit, fun _ => false⟩

/-- The event handlers of the switches. -/
abbrev MsgCallback (W : Type) :=
  ℕ → ℕ → MsgEvt → MsgSel W → W × (ℕ → Option MsgSwitch) × (ℕ → Bool) × List SwitchOp

/-- `msg_switch->evt_hdlr( msg_switch->sockfd, msgid, evt )`. The switch is read afterwards. -/
def msgCall (handler : MsgCallback W) (fd msgid : ℕ) (s : MsgSel W) (evt : MsgEvt) :
    Except Fault (MsgSel W) :=
  let left := handler fd msgid evt s
  let lists := left.2.2.2.foldl SwitchLists.op s.lists
  if lists.freed fd then .error .useAfterFree
  else .ok { s with
    world := left.1
    sw := fun i => (left.2.1 i).map fun sw => { sw with activeHash := lists.hashes i }
    opened := left.2.2.1
    active := lists.active }

/-- The switch whose turn it is. -/
def MsgSel.switch (s : MsgSel W) (fd : ℕ) : Except Fault MsgSwitch :=
  match s.sw fd with
  | some sw => .ok sw
  | none => .error .useAfterFree

/-- `msg->status`; `none` when `msg` is `NULL`. -/
def MsgSel.status (s : MsgSel W) (fd msgid : ℕ) : Except Fault (Option MsgStat) :=
  match s.msg with
  | none => .ok none
  | some addr => (s.switch fd).bind fun sw =>
    match sw.msgs msgid with
    | some msg => if msg.addr = addr then .ok (some msg.status) else .error .useAfterFree
    | none => .error .useAfterFree

/-- The three tests of the inner loop. -/
def msgTest (fd msgid : ℕ) (s : MsgSel W) : MsgEvt → Except Fault Bool
  | .acceptReady => (s.status fd msgid).map fun st => st.any fun st => !st.connected
  | .readReady => (s.switch fd).bind fun sw =>
    if s.readFdSet msgid && sw.activeReadFdSet msgid then
      (s.status fd msgid).map fun st => st.all fun st => st.packetAvailToRead || st.disconnected
    else .ok false
  | .writeReady => (s.switch fd).bind fun sw =>
    if s.writeFdSet msgid && sw.activeWriteFdSet msgid then
      (s.status fd msgid).map fun st => st.all fun st => st.spaceAvailForWrit || st.disconnected
    else .ok false

/-- The next round: of the inner loop, or of the outer one. -/
def MsgSel.goOn (s : MsgSel W) (fd : ℕ) : Option ℕ → Option MsgPos
  | some msgid => some (.msg fd msgid)
  | none => (fdHashNext s.active fd).map .turn

/-- The body of the outer loop up to the inner one, and that of the inner one. Without a switch the
outer loop goes on with the same descriptor. -/
def msgVisit (handler : MsgCallback W) (s : MsgSel W) :
    MsgPos → Except Fault (MsgSel W × List (Check (MsgSel W) MsgEvt) × Option MsgPos)
  | .turn fd =>
    match if s.opened fd then s.sw fd else none with
    | none => .ok (s, [], some (.turn fd))
    | some sw => .ok ({ s with readFdSet := sw.activeReadFdSet, writeFdSet := sw.activeWriteFdSet }, [],
        s.goOn fd (fdHashHead sw.activeHash))
  | .msg fd msgid => (s.switch fd).bind fun sw =>
    (serve (msgTest fd msgid) (msgCall handler fd msgid) [.acceptReady, .readReady, .writeReady]
      { s with msg := (msgGet sw msgid).map Msg.addr }).bind fun res =>
    (res.1.switch fd).map fun sw => (res.1, res.2, res.1.goOn fd (fdHashNext sw.activeHash msgid))

/-- `msg_switch_select`. -/
def msgSwitchSelect (handler : MsgCallback W) (n : ℕ) (s : MsgSel W) :
    List (Visit (MsgSel W) MsgPos MsgEvt) × Outcome (MsgSel W) Fault :=
  walk (msgVisit handler) n ((fdHashHead s.active).map .turn) s

/-! ## What lies ahead, and what is due -/

/-- The pass of `zfd_select` leaves what waits alone. -/
def zfdSteady (visits : List (Visit (W × Zfd) ℕ IoType)) : Prop :=
  Steady (fun s => s.2.activeHash.entries) (fun s => after s.2.activeHash.entries)
    (fun _ _ => True) [] visits

/-- What `select` has found, and is armed, is called. -/
def zfdDue (readFdSet : ℕ → Bool) (i : ℕ) (s : W × Zfd) : IoType → Prop
  | .r => readFdSet i = true ∧ s.2.activeRead i = true
  | .w => s.2.activeWrite i = true

/-- The same for `zs_select`; the socket whose turn comes is there. -/
def zsSteady (visits : List (Visit (ZsSel W) ℕ IoType)) : Prop :=
  Steady (fun s => s.zs.activeHash.entries) (fun s => after s.zs.activeHash.entries)
    (fun s fd => (s.zs.zsockets fd).isSome) [] visits

/-- A socket that was armed at the start, is armed and is ready. -/
def zsDue (zs₀ : Zs) (fd : ℕ) (s : ZsSel W) : IoType → Prop
  | .r => zs₀.activeRead fd = true ∧ s.zs.activeRead fd = true ∧
    ∃ zs, s.zs.zsockets fd = some zs ∧ zs.status.readable = true
  | .w => zs₀.activeWrite fd = true ∧ s.zs.activeWrite fd = true ∧
    ∃ zs, s.zs.zsockets fd = some zs ∧ zs.status.writable = true

/-- The msgs on the list of a switch. -/
def MsgSel.msgsOf (s : MsgSel W) (fd : ℕ) : List ℕ :=
  ((s.sw fd).map fun sw => sw.activeHash.entries).getD []

/-- The rounds for one switch. -/
def MsgSel.roundsOf (s : MsgSel W) (fd : ℕ) : List MsgPos := .turn fd :: (s.msgsOf fd).map (.msg fd)

/-- The rounds for all of them. -/
def MsgSel.rounds (s : MsgSel W) : List MsgPos := s.active.entries.flatMap s.roundsOf

/-- The rounds for msgs. -/
def MsgSel.msgRounds (s : MsgSel W) : List MsgPos :=
  s.active.entries.flatMap fun fd => (s.msgsOf fd).map (.msg fd)

/-- The rounds after one. -/
def MsgSel.ahead (s : MsgSel W) : MsgPos → List MsgPos
  | .turn fd => (s.msgsOf fd).map (.msg fd) ++ (after s.active.entries fd).flatMap s.roundsOf
  | .msg fd msgid =>
    (after (s.msgsOf fd) msgid).map (.msg fd) ++ (after s.active.entries fd).flatMap s.roundsOf

/-- The switch whose turn comes is there. -/
def MsgSel.fine (s : MsgSel W) : MsgPos → Prop
  | .turn fd => s.opened fd = true ∧ (s.sw fd).isSome
  | .msg _ _ => True

instance (s : MsgSel W) : ∀ a, Decidable (s.fine a)
  | .turn fd => inferInstanceAs (Decidable (s.opened fd = true ∧ (s.sw fd).isSome = true))
  | .msg _ _ => isTrue trivial

/-- The same for `msg_switch_select`. -/
def msgSteady (visits : List (Visit (MsgSel W) MsgPos MsgEvt)) : Prop :=
  Steady MsgSel.rounds MsgSel.ahead MsgSel.fine [] visits

/-- A msg that was armed when the turn of its switch came, is armed and is ready; one that is gone
counts as ready. -/
def msgDue (a : MsgPos) (s : MsgSel W) (d : MsgEvt) : Prop :=
  match a with
  | .turn _ => False
  | .msg fd msgid => ∃ sw, s.sw fd = some sw ∧
    match d with
    | .acceptReady => ∃ msg, sw.msgs msgid = some msg ∧ s.msg = some msg.addr ∧
      msg.status.connected = false
    | .readReady => s.readFdSet msgid = true ∧ sw.activeReadFdSet msgid = true ∧
      (s.msg = none ∨ ∃ msg, sw.msgs msgid = some msg ∧ s.msg = some msg.addr ∧
        (msg.status.packetAvailToRead || msg.status.disconnected) = true)
    | .writeReady => s.writeFdSet msgid = true ∧ sw.activeWriteFdSet msgid = true ∧
      (s.msg = none ∨ ∃ msg, sw.msgs msgid = some msg ∧ s.msg = some msg.addr ∧
        (msg.status.spaceAvailForWrit || msg.status.disconnected) = true)

end Zimr
