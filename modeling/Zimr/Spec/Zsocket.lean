import Mathlib.Data.Int.Notation
import Zimr.Spec.FdHash

/-!
# Descriptors and sockets (`zfildes.c`, `zsocket.c`)

`Zfd` is the state of `zfildes.c`: the descriptors registered for `select()`, with the
handler of each direction. `Zs` is the state of `zsocket.c` above it.

* What the kernel or the SSL library answers is an argument of the function that asks.
  `RwRes` is the answer to one `read`, `write`, `SSL_read`, `SSL_write`, `SSL_accept` or
  `SSL_connect`.
* A failed `assert`, a dereference of `NULL` and an index outside a table are a `ZsFault`.
* `zsocket_t` is a union; `Zsocket` has the fields of both its variants. `n_open` of a
  listener and `parent_fd` of a connection are the same word.
-/

namespace Zimr

/-! ## `zfildes.c` -/

/-- The functions that `zsocket.c` registers with `zfd_set`. -/
inductive ZfdHdlr
  | internalRead | internalWrite | internalAccept
  deriving DecidableEq, Repr

/-- `active_read_fd_set`, `active_write_fd_set`, `fd_data` and `active_hash`. -/
structure Zfd where
  activeRead : ℕ → Bool
  activeWrite : ℕ → Bool
  readHandler : ℕ → Option ZfdHdlr
  writeHandler : ℕ → Option ZfdHdlr
  activeHash : FdHash

def zfdInit : Zfd := ⟨fun _ => false, fun _ => false, fun _ => none, fun _ => none, fdHashInit⟩

/-- `zfd_set( fd, ZFD_R, handler, udata )`. -/
def zfdSetR (z : Zfd) (fd : ℕ) (handler : ZfdHdlr) : Zfd :=
  { z with
    readHandler := Function.update z.readHandler fd (some handler)
    activeRead := Function.update z.activeRead fd true
    activeHash := fdHashAdd z.activeHash fd }

/-- `zfd_set( fd, ZFD_W, handler, udata )`. -/
def zfdSetW (z : Zfd) (fd : ℕ) (handler : ZfdHdlr) : Zfd :=
  { z with
    writeHandler := Function.update z.writeHandler fd (some handler)
    activeWrite := Function.update z.activeWrite fd true
    activeHash := fdHashAdd z.activeHash fd }

/-- `zfd_clr( fd, ZFD_R )`. -/
def zfdClrR (z : Zfd) (fd : ℕ) : Zfd :=
  { z with
    activeRead := Function.update z.activeRead fd false
    activeHash := if !z.activeWrite fd then fdHashRemove z.activeHash fd else z.activeHash }

/-- `zfd_clr( fd, ZFD_W )`. -/
def zfdClrW (z : Zfd) (fd : ℕ) : Zfd :=
  { z with
    activeWrite := Function.update z.activeWrite fd false
    activeHash := if !z.activeRead fd then fdHashRemove z.activeHash fd else z.activeHash }

/-! ## The data of `zsocket.c` -/

/-- Where the program stops. -/
inductive ZsFault
  | assertion | nullDeref | outOfBounds
  /-- The kernel never returns a descriptor that is open. -/
  | notFresh
  deriving DecidableEq, Repr

/-- The `errno` values that matter, and the others. -/
inductive SockErrno
  | eagain | ebadf | einval | eproto
  | other (n : ℕ)
  deriving DecidableEq, Repr

/-- The answer to a call that moves bytes. `EAGAIN` of a plain `read` or `write` is
`wantRead` or `wantWrite`; `fail k e` returns `-( k + 1 )`. The length of `bytes` is what
a write returns. -/
inductive RwRes
  | bytes (bs : List UInt8)
  | wantRead
  | wantWrite
  | fail (k : ℕ) (e : SockErrno)
  deriving DecidableEq, Repr

/-- `ZSOCK_LISTEN`, `ZSOCK_CONNECT`. -/
inductive ZsType
  | listen | connect
  deriving DecidableEq, Repr

/-- The event handlers that the program gives to its sockets. -/
inductive EventHdlr
  | insock | exsock | msgZsocket
  deriving DecidableEq, Repr

/-- The `ZS_STAT_*` bits. -/
structure ZsStat where
  connected : Bool := false
  wantReadFromRead : Bool := false
  wantReadFromWrite : Bool := false
  wantWriteFromWrite : Bool := false
  wantWriteFromRead : Bool := false
  wantReadFromAccept : Bool := false
  wantWriteFromAccept : Bool := false
  wantReadFromConnect : Bool := false
  wantWriteFromConnect : Bool := false
  readable : Bool := false
  writable : Bool := false
  accepting : Bool := false
  connecting : Bool := false
  reading : Bool := false
  writing : Bool := false
  eof : Bool := false
  closed : Bool := false
  deriving DecidableEq, Repr

/-- One of the `WANT_READ_*` bits is set. -/
def ZsStat.wantsRead (s : ZsStat) : Bool :=
  s.wantReadFromRead || s.wantReadFromWrite || s.wantReadFromConnect || s.wantReadFromAccept

/-- One of the `WANT_WRITE_*` bits is set. -/
def ZsStat.wantsWrite (s : ZsStat) : Bool :=
  s.wantWriteFromRead || s.wantWriteFromWrite || s.wantWriteFromConnect || s.wantWriteFromAccept

/-- One of the eight is. -/
def ZsStat.wants (s : ZsStat) : Bool := s.wantsRead || s.wantsWrite

/-- The read buffer's size. -/
def zsReadSize : ℕ := 2048

/-- `zsock_rw_data_t` of the reading side. -/
structure ZsRead where
  buffer : List UInt8 := List.replicate zsReadSize 0
  used : ℤ := 0
  pos : ℕ := 0
  rwErrno : Option SockErrno := none
  deriving DecidableEq, Repr

/-- `zsock_rw_data_t` of the writing side. -/
structure ZsWrite where
  buffer : Option (List UInt8) := none
  used : ℕ := 0
  pos : ℕ := 0
  rwErrno : Option SockErrno := none
  deriving DecidableEq, Repr

/-- `zsocket_t`. `nOpen` is also `parent_fd`; `ssl` says that `ssl_ctx` or `ssl` is set. -/
structure Zsocket where
  type : ZsType
  addr : ℕ
  portno : ℤ
  eventHdlr : EventHdlr
  ssl : Bool
  status : ZsStat := {}
  nOpen : ℤ
  acceptedFd : Option ℕ := none
  acceptedErrno : Option SockErrno := none
  read : ZsRead := {}
  write : ZsWrite := {}
  deriving DecidableEq, Repr

/-- `zsockets`, `n_selectable`, the interest of each socket, and the layer below. -/
structure Zs where
  zsockets : ℕ → Option Zsocket
  nSelectable : ℤ
  activeRead : ℕ → Bool
  activeWrite : ℕ → Bool
  activeHash : FdHash
  zfd : Zfd

/-- `zs_init`. -/
def zsInit : Zs := ⟨fun _ => none, 0, fun _ => false, fun _ => false, fdHashInit, zfdInit⟩

/-- A pointer from `zs_get_by_fd` is followed. -/
def Zs.get (σ : Zs) (fd : ℕ) : Except ZsFault Zsocket :=
  match σ.zsockets fd with
  | some zs => .ok zs
  | none => .error .nullDeref

/-- The same with `assert( zs->type == ZSOCK_CONNECT )`. -/
def Zs.getConnect (σ : Zs) (fd : ℕ) : Except ZsFault Zsocket := do
  let zs ← σ.get fd
  if zs.type = .connect then .ok zs else .error .assertion

/-- `assert( zs = zs_get_by_fd( fd ) )`. -/
def Zs.assertSock (σ : Zs) (fd : ℕ) : Except ZsFault Zsocket :=
  match σ.zsockets fd with
  | some zs => .ok zs
  | none => .error .assertion

/-- A write through the pointer to the socket `fd`. -/
def Zs.set (σ : Zs) (fd : ℕ) (zs : Zsocket) : Zs :=
  { σ with zsockets := Function.update σ.zsockets fd (some zs) }

/-- `n_selectable++` under a condition. -/
def Zs.countUp (σ : Zs) (b : Bool) : Zs :=
  { σ with nSelectable := if b then σ.nSelectable + 1 else σ.nSelectable }

/-- `n_selectable--` under a condition. -/
def Zs.countDown (σ : Zs) (b : Bool) : Zs :=
  { σ with nSelectable := if b then σ.nSelectable - 1 else σ.nSelectable }

/-- `zs_need_select`. -/
def zsNeedSelect (σ : Zs) : Bool := decide (σ.nSelectable ≠ 0)

/-! ## The interest in a socket -/

/-- `zs_update_fd_state`. -/
def zsUpdateFdState (σ : Zs) (fd : ℕ) : Except ZsFault Zs := do
  let zs ← σ.assertSock fd
  match zs.type with
  | .connect =>
    let zfd :=
      if (σ.activeWrite fd && !(zs.status.writing || zs.status.writable)) || zs.status.wantsWrite
      then zfdSetW σ.zfd fd .internalWrite
      else zfdClrW σ.zfd fd
    let zfd :=
      if (σ.activeRead fd && !(zs.status.reading || zs.status.readable)) || zs.status.wantsRead
      then zfdSetR zfd fd .internalRead
      else zfdClrR zfd fd
    return { σ with zfd }
  | .listen =>
    let zfd :=
      if σ.activeRead fd && !(zs.status.accepting || zs.status.readable)
      then zfdSetR σ.zfd fd .internalAccept
      else zfdClrR σ.zfd fd
    return { σ with zfd }

/-- `zs_set_read`. -/
def zsSetRead (σ : Zs) (fd : ℕ) : Except ZsFault Zs := do
  let zs ← σ.assertSock fd
  let σ := σ.countUp (!σ.activeRead fd && zs.status.readable)
  zsUpdateFdState { σ with
    activeRead := Function.update σ.activeRead fd true
    activeHash := fdHashAdd σ.activeHash fd } fd

/-- `zs_clr_read`. -/
def zsClrRead (σ : Zs) (fd : ℕ) : Except ZsFault Zs := do
  let zs ← σ.assertSock fd
  let σ := σ.countDown (σ.activeRead fd && zs.status.readable)
  zsUpdateFdState { σ with
    activeRead := Function.update σ.activeRead fd false
    activeHash := if !σ.activeWrite fd then fdHashRemove σ.activeHash fd else σ.activeHash } fd

/-- `zs_set_write`. -/
def zsSetWrite (σ : Zs) (fd : ℕ) : Except ZsFault Zs := do
  let zs ← σ.assertSock fd
  let σ := σ.countUp (!σ.activeWrite fd && zs.status.writable)
  zsUpdateFdState { σ with
    activeWrite := Function.update σ.activeWrite fd true
    activeHash := fdHashAdd σ.activeHash fd } fd

/-- `zs_clr_write`. -/
def zsClrWrite (σ : Zs) (fd : ℕ) : Except ZsFault Zs := do
  let zs ← σ.assertSock fd
  let σ := σ.countDown (σ.activeWrite fd && zs.status.writable)
  zsUpdateFdState { σ with
    activeWrite := Function.update σ.activeWrite fd false
    activeHash := if !σ.activeRead fd then fdHashRemove σ.activeHash fd else σ.activeHash } fd

/-! ## Closing -/

/-- The second half of `zs_close`: the socket is really closed. -/
def zsShut (σ : Zs) (fd : ℕ) : Except ZsFault Zs := do
  let σ := { σ with zfd := zfdClrW (zfdClrR σ.zfd fd) fd }
  let σ ← zsClrRead σ fd
  let σ ← zsClrWrite σ fd
  return { σ with zsockets := Function.update σ.zsockets fd none }

/-- `zs_close`. -/
def zsClose (σ : Zs) (fd : ℕ) : Except ZsFault (Zs × Except SockErrno ℕ) := do
  match σ.zsockets fd with
  | none => return (σ, .error .ebadf)
  | some p =>
    match p.type with
    | .listen =>
      let σ := σ.set fd { p with nOpen := p.nOpen - 1 }
      if 0 < p.nOpen - 1 then
        return (σ, .ok 0)
      return (← zsShut σ fd, .ok 0)
    | .connect =>
      if p.status.writing then
        let σ ← zsClrRead σ fd
        let σ ← zsClrWrite σ fd
        return (σ.set fd { p with status.closed := true }, .ok 0)
      return (← zsShut σ fd, .ok 0)

/-! ## The callbacks -/

/-- `zs_connecter`. -/
def zsConnecter (σ : Zs) (fd : ℕ) (r : RwRes) : Except ZsFault Zs := do
  let zs ← σ.get fd
  -- what follows a connection that does not wait
  let finish (zs : Zsocket) : Zs :=
    (σ.countUp (σ.activeWrite fd && !zs.status.writable)).set fd { zs with
      status.connected := true, status.writable := true, status.connecting := false }
  if zs.ssl then
    match r with
    | .wantRead => return σ.set fd { zs with status.wantReadFromConnect := true }
    | .wantWrite => return σ.set fd { zs with status.wantWriteFromConnect := true }
    | .fail _ _ =>
      return finish { zs with read.rwErrno := some .eproto, write.rwErrno := some .eproto }
    | .bytes _ => return finish zs
  else
    return finish zs

/-- The end of `SSL_accept` in `zs_writer` and `zs_reader`. -/
def Zsocket.accepted (zs : Zsocket) : Zsocket :=
  if zs.status.reading then
    { zs with status.accepting := false, status.wantReadFromRead := true }
  else if zs.status.writing then
    { zs with status.accepting := false, status.wantWriteFromWrite := true }
  else { zs with status.accepting := false }

/-- The end of `zs_writer`: the buffer is freed, and a socket that `zs_close` left to
finish its write is closed. -/
def zsWritten (σ : Zs) (fd : ℕ) (zs : Zsocket) : Except ZsFault Zs := do
  let σ := σ.countUp (σ.activeWrite fd && !zs.status.writable)
  let σ := σ.set fd { zs with
    write.buffer := none, status.writable := true, status.writing := false }
  if zs.status.closed then do
    let (σ, _) ← zsClose σ fd
    return σ
  return σ

/-- `zs_writer`. -/
def zsWriter (σ : Zs) (fd : ℕ) (r : RwRes) : Except ZsFault Zs := do
  let zs ← σ.get fd
  match r with
  | .wantRead =>
    if zs.ssl then return σ.set fd { zs with status.wantReadFromWrite := true }
    return σ.set fd { zs with status.wantWriteFromWrite := true }
  | .wantWrite => return σ.set fd { zs with status.wantWriteFromWrite := true }
  | .fail _ e =>
    let zs := { zs with write.rwErrno := some (if zs.ssl then .eproto else e) }
    if zs.ssl && zs.status.accepting then return σ.set fd zs.accepted
    zsWritten σ fd zs
  | .bytes bs =>
    if zs.ssl && zs.status.accepting then return σ.set fd zs.accepted
    -- no more is written than was asked for
    let n := min bs.length (zs.write.used - zs.write.pos)
    let zs := { zs with write.pos := zs.write.pos + n }
    if 0 < n && zs.write.used - zs.write.pos ≠ 0 then
      return σ.set fd { zs with status.wantWriteFromWrite := true }
    zsWritten σ fd zs

/-- The answer with which `zs_writer` is done, and not only with the handshake. -/
def Zsocket.finishes (zs : Zsocket) : RwRes → Bool
  | .wantRead => false
  | .wantWrite => false
  | .fail _ _ => !(zs.ssl && zs.status.accepting)
  | .bytes bs => !(zs.ssl && zs.status.accepting)
      && (bs.isEmpty || decide (zs.write.used ≤ zs.write.pos + bs.length))

/-- The end of `zs_reader`. -/
def zsGot (σ : Zs) (fd : ℕ) (zs : Zsocket) : Zs :=
  (σ.countUp (σ.activeRead fd && !zs.status.readable)).set fd { zs with
    status.readable := true, status.reading := false }

/-- `zs_reader`. The bytes go behind the `used` ones, whatever `pos` is. -/
def zsReader (σ : Zs) (fd : ℕ) (r : RwRes) : Except ZsFault Zs := do
  let zs ← σ.get fd
  match r with
  | .wantRead => return σ.set fd { zs with status.wantReadFromRead := true }
  | .wantWrite =>
    if zs.ssl then return σ.set fd { zs with status.wantWriteFromRead := true }
    return σ.set fd { zs with status.wantReadFromRead := true }
  | .fail k e =>
    let zs := { zs with read.rwErrno := some (if zs.ssl then .eproto else e) }
    if zs.ssl && zs.status.accepting then return σ.set fd zs.accepted
    if !zs.ssl || k = 0 then return zsGot σ fd { zs with read.used := -1 }
    return zsGot σ fd { zs with status.eof := true }
  | .bytes bs =>
    if zs.ssl && zs.status.accepting then return σ.set fd zs.accepted
    -- no more is read than was asked for
    let bs := bs.take (zsReadSize - zs.read.used).toNat
    if bs = [] then return zsGot σ fd { zs with status.eof := true }
    if zs.read.used < 0 then throw .outOfBounds
    return zsGot σ fd { zs with read := { zs.read with
      buffer := zs.read.buffer.take zs.read.used.toNat ++ bs ++
        zs.read.buffer.drop (zs.read.used.toNat + bs.length)
      used := zs.read.used + bs.length } }

/-- `zs_accepter`. -/
def zsAccepter (σ : Zs) (fd : ℕ) : Except ZsFault Zs := do
  let zs ← σ.get fd
  if zs.nOpen < 0 then throw .outOfBounds
  let parent := zs.nOpen.toNat
  let p ← σ.get parent
  let σ := σ.countUp (σ.activeRead parent && !p.status.readable)
  let σ := σ.set parent { p with status.readable := true, status.accepting := false }
  let σ ← (if p.acceptedFd.isSome then do
      let zs ← σ.get fd
      let σ := σ.countUp (σ.activeWrite fd && !zs.status.writable)
      return σ.set fd { zs with
        status.connected := true, status.writable := true
        status.accepting := if zs.ssl then true else zs.status.accepting }
    else pure σ)
  zsUpdateFdState σ parent

/-- `zs_type_init` for a descriptor that the kernel has just returned. -/
def zsTypeInit (σ : Zs) (fd : ℕ) (type : ZsType) (addr : ℕ) (portno : ℤ) (eventHdlr : EventHdlr)
    (ssl : Bool) : Except ZsFault Zs :=
  if fdSetSize ≤ fd then throw .outOfBounds
  else if (σ.zsockets fd).isSome then throw .notFresh
  else return σ.set fd { type, addr, portno, eventHdlr, ssl, nOpen := if type = .listen then 1 else -1 }

/-- `zs_internal_accept`, with what `accept` returns. -/
def zsInternalAccept (σ : Zs) (fd : ℕ) (accept : Except SockErrno (ℕ × ℕ)) : Except ZsFault Zs := do
  let zs ← σ.get fd
  match accept with
  | .error e =>
    zsUpdateFdState (σ.set fd { zs with
      status.accepting := false, acceptedFd := none, acceptedErrno := some e }) fd
  | .ok (newsockfd, cliAddr) =>
    let σ := σ.set fd { zs with status.accepting := true }
    let σ ← zsTypeInit σ newsockfd .connect cliAddr zs.portno zs.eventHdlr zs.ssl
    let σ := σ.set fd { zs with status.accepting := true, acceptedFd := some newsockfd }
    let child ← σ.get newsockfd
    let σ := σ.set newsockfd { child with nOpen := fd }
    let σ ← zsAccepter σ newsockfd
    let σ ← (if (σ.zsockets newsockfd).isSome then zsUpdateFdState σ newsockfd else pure σ)
    zsUpdateFdState σ fd

/-- The branches of `zs_internal_write` and `zs_internal_read` for a socket that is not
connected. -/
def zsUnconnected (σ : Zs) (fd : ℕ) (zs : Zsocket) (r : RwRes) : Except ZsFault Zs := do
  if zs.status.connecting then zsConnecter (σ.set fd zs) fd r
  else zsAccepter (σ.set fd zs) fd

/-- `zs_internal_write`: `r₁` answers the writer (or the connecter), `r₂` the reader. -/
def zsInternalWrite (σ : Zs) (fd : ℕ) (r₁ r₂ : RwRes) : Except ZsFault Zs := do
  let zs ← σ.getConnect fd
  if zs.status.connected then
    let σ ← (if zs.status.wantWriteFromWrite then
      zsWriter (σ.set fd { zs with status.wantWriteFromWrite := false }) fd r₁ else pure σ)
    -- `zs_writer` sometimes will call `zs_close`
    match σ.zsockets fd with
    | none => return σ
    | some zs =>
      let σ ← (if zs.status.wantWriteFromRead then
        zsReader (σ.set fd { zs with status.wantWriteFromRead := false }) fd r₂ else pure σ)
      zsUpdateFdState σ fd
  else
    let σ ← zsUnconnected σ fd (if zs.status.connecting then
      { zs with status.wantWriteFromConnect := false }
      else { zs with status.wantWriteFromAccept := false }) r₁
    zsUpdateFdState σ fd

/-- The first branch of `zs_internal_read`: nothing waits, so a read is started. -/
def Zsocket.startRead (zs : Zsocket) : Zsocket :=
  if !(zs.status.wantReadFromRead || zs.status.wantReadFromWrite) then
    { zs with status.reading := true, status.wantReadFromRead := true }
  else zs

/-- `zs_internal_read`: `r₁` answers the reader (or the connecter), `r₂` the writer. -/
def zsInternalRead (σ : Zs) (fd : ℕ) (r₁ r₂ : RwRes) : Except ZsFault Zs := do
  let zs ← σ.getConnect fd
  if zs.status.connected then
    let zs := zs.startRead
    let σ ← (if zs.status.wantReadFromRead then
      zsReader (σ.set fd { zs with status.wantReadFromRead := false }) fd r₁ else pure (σ.set fd zs))
    let zs ← σ.get fd
    let σ ← (if zs.status.wantReadFromWrite then
      zsWriter (σ.set fd { zs with status.wantReadFromWrite := false }) fd r₂ else pure σ)
    match σ.zsockets fd with
    | none => return σ
    | some _ => zsUpdateFdState σ fd
  else
    let σ ← zsUnconnected σ fd (if zs.status.connecting then
      { zs with status.wantReadFromConnect := false }
      else { zs with status.wantReadFromAccept := false }) r₁
    zsUpdateFdState σ fd

/-! ## External functions -/

/-- `zs_get_by_info`: the first socket with this address and port, of either type. -/
def zsGetByInfo (σ : Zs) (addr : ℕ) (portno : ℤ) : Option ℕ :=
  (List.range fdSetSize).find? fun fd =>
    match σ.zsockets fd with
    | some p => decide (p.portno = portno) && decide (p.addr = addr)
    | none => false

/-- What `zs_new` and `zs_type_init` answer: the new descriptor, or a failure. -/
structure SockRes where
  fd : Except SockErrno ℕ
  /-- The certificate and the key are in order. -/
  cert : Bool := true
  /-- The first `SSL_connect`. -/
  connect : RwRes := .bytes []

/-- `zsocket`. `SSL_CTX_new` is taken never to answer `NULL`. -/
def zsocket (σ : Zs) (addr : ℕ) (portno : ℤ) (type : ZsType) (eventHdlr : EventHdlr) (ssl : Bool)
    (k : SockRes) : Except ZsFault (Zs × Except SockErrno ℕ) := do
  let found := if type = .listen then zsGetByInfo σ addr portno else none
  match found with
  | some fd =>
    -- `p->listen.n_open++`, whatever the type of `p`
    let p ← σ.get fd
    return (σ.set fd { p with nOpen := p.nOpen + 1 }, .ok fd)
  | none =>
    match k.fd with
    | .error e => return (σ, .error e)
    | .ok sockfd =>
      if type = .listen && ssl && !k.cert then
        return (σ, .error .eproto)
      let σ ← zsTypeInit σ sockfd type addr portno eventHdlr ssl
      match type with
      | .listen => return (σ, .ok sockfd)
      | .connect =>
        let zs ← σ.get sockfd
        let σ ← zsConnecter (σ.set sockfd { zs with status.connecting := true }) sockfd k.connect
        return (← zsUpdateFdState σ sockfd, .ok sockfd)

/-- `zs_set_event_hdlr`. -/
def zsSetEventHdlr (σ : Zs) (fd : ℕ) (eventHdlr : EventHdlr) : Except ZsFault Zs := do
  let zs ← σ.assertSock fd
  return σ.set fd { zs with eventHdlr }

/-- `zs_accept`; `none` is the `-1` of a failed accept. -/
def zsAccept (σ : Zs) (fd : ℕ) : Except ZsFault (Zs × Except SockErrno (Option ℕ)) := do
  match σ.zsockets fd with
  | none => return (σ, .error .ebadf)
  | some zs =>
    if zs.status.closed then return (σ, .error .ebadf)
    if zs.type ≠ .listen then return (σ, .error .einval)
    if !zs.status.readable then return (σ, .error .eagain)
    let σ := σ.countDown (σ.activeRead fd && zs.status.readable)
    let σ ← zsUpdateFdState (σ.set fd { zs with status.readable := false }) fd
    if zs.acceptedErrno.isNone && zs.acceptedFd.isNone then throw .assertion
    return (σ.set fd { zs with
      status.readable := false, acceptedErrno := none, acceptedFd := none }, .ok zs.acceptedFd)

/-- The end of `zs_read`: with nothing left the socket is read again at once, and the
two bits the reader may set are put back. -/
def zsRefill (σ : Zs) (fd : ℕ) (r : RwRes) : Except ZsFault Zs := do
  let zs ← σ.get fd
  if zs.read.used = 0 && !zs.status.eof then
    let σ := σ.countDown (σ.activeRead fd && zs.status.readable)
    let σ := σ.set fd { zs with read.pos := 0, read.used := 0, status.readable := false }
    let wantRead := zs.status.wantReadFromRead
    let wantWrite := zs.status.wantWriteFromRead
    let σ ← zsReader σ fd r
    let zs ← σ.get fd
    zsUpdateFdState (σ.set fd { zs with
      status.wantReadFromRead := wantRead, status.wantWriteFromRead := wantWrite }) fd
  else return σ

/-- `zs_read`; the bytes are returned, their number is the C result. -/
def zsRead (σ : Zs) (fd : ℕ) (nbyte : ℕ) (r : RwRes) :
    Except ZsFault (Zs × Except SockErrno (List UInt8)) := do
  match σ.zsockets fd with
  | none => return (σ, .error .ebadf)
  | some zs =>
    if zs.type ≠ .connect || zs.status.closed then return (σ, .error .ebadf)
    if !zs.status.readable then return (σ, .error .eagain)
    let used : ℤ := min zs.read.used nbyte
    match zs.read.rwErrno with
    | some e =>
      -- `used` is returned: without bytes copied, unless it is the `-1` of a failed read
      let σ ← zsRefill σ fd r
      return (σ, if used < 0 then .error e else .ok (List.replicate used.toNat 0))
    | none =>
      if zs.read.used = 0 then
        if !zs.status.eof then throw .assertion
        return (← zsRefill σ fd r, .ok [])
      if used < 0 then throw .outOfBounds
      let buf := (zs.read.buffer.drop zs.read.pos).take used.toNat
      let σ := σ.set fd { zs with
        read.pos := zs.read.pos + used.toNat, read.used := zs.read.used - used }
      return (← zsRefill σ fd r, .ok buf)

/-- `zs_write`. The message for a bad descriptor dereferences it. -/
def zsWrite (σ : Zs) (fd : ℕ) (buf : List UInt8) : Except ZsFault (Zs × Except SockErrno ℕ) := do
  match σ.zsockets fd with
  | none => throw .nullDeref
  | some zs =>
    if zs.type ≠ .connect || zs.status.closed then return (σ, .error .ebadf)
    if !zs.status.writable then return (σ, .error .eagain)
    if zs.write.buffer.isSome then throw .assertion
    let σ := σ.countDown (σ.activeWrite fd && zs.status.writable)
    match zs.write.rwErrno with
    | some _ =>
      let σ ← zsUpdateFdState (σ.set fd { zs with
        status.writable := false, write.rwErrno := none }) fd
      -- `errno` is the truth value of the two error numbers
      return (σ, .error (.other 1))
    | none =>
      let σ ← zsUpdateFdState (σ.set fd { zs with
        status.writable := false, status.writing := true, status.wantWriteFromWrite := true
        write.buffer := some buf, write.used := buf.length, write.pos := 0 }) fd
      return (σ, .ok buf.length)

/-! ## Steps -/

/-- A call of an external function, or a callback of `zfd_select` with the answers it gets. -/
inductive ZsAct
  | zsocket (addr : ℕ) (portno : ℤ) (type : ZsType) (eventHdlr : EventHdlr) (ssl : Bool) (k : SockRes)
  | accept (fd : ℕ)
  | read (fd : ℕ) (nbyte : ℕ) (r : RwRes)
  | write (fd : ℕ) (buf : List UInt8)
  | setRead (fd : ℕ)
  | clrRead (fd : ℕ)
  | setWrite (fd : ℕ)
  | clrWrite (fd : ℕ)
  | close (fd : ℕ)
  | zfdRead (fd : ℕ) (accept : Except SockErrno (ℕ × ℕ)) (r₁ r₂ : RwRes)
  | zfdWrite (fd : ℕ) (r₁ r₂ : RwRes)

/-- A handler is called only while its descriptor is registered. -/
def Zs.step (σ : Zs) : ZsAct → Except ZsFault Zs
  | .zsocket addr portno type eventHdlr ssl k => do
    let (σ, _) ← Zimr.zsocket σ addr portno type eventHdlr ssl k; return σ
  | .accept fd => do let (σ, _) ← zsAccept σ fd; return σ
  | .read fd nbyte r => do let (σ, _) ← zsRead σ fd nbyte r; return σ
  | .write fd buf => do let (σ, _) ← zsWrite σ fd buf; return σ
  | .setRead fd => zsSetRead σ fd
  | .clrRead fd => zsClrRead σ fd
  | .setWrite fd => zsSetWrite σ fd
  | .clrWrite fd => zsClrWrite σ fd
  | .close fd => do let (σ, _) ← zsClose σ fd; return σ
  | .zfdRead fd accept r₁ r₂ =>
    if σ.zfd.activeRead fd then
      match σ.zfd.readHandler fd with
      | some .internalAccept => zsInternalAccept σ fd accept
      | some .internalRead => zsInternalRead σ fd r₁ r₂
      | _ => .error .nullDeref
    else .ok σ
  | .zfdWrite fd r₁ r₂ =>
    if σ.zfd.activeWrite fd then
      match σ.zfd.writeHandler fd with
      | some .internalWrite => zsInternalWrite σ fd r₁ r₂
      | _ => .error .nullDeref
    else .ok σ

/-! ## Closes that leave a registration behind -/

/-- The record of `fd` when `zs_internal_read` comes to its writer. -/
def Zs.afterReader (σ : Zs) (fd : ℕ) (zs : Zsocket) (r : RwRes) : Option Zsocket :=
  if zs.status.wantReadFromRead then
    match zsReader (σ.set fd { zs with status.wantReadFromRead := false }) fd r with
    | .ok σ => σ.zsockets fd
    | .error _ => none
  else some zs

/-- The step really closes a connection while it waits for something: by `zs_close`, or by
the end of the write for which an earlier `zs_close` was put off. -/
def Zs.shutsWanting (σ : Zs) : ZsAct → Bool
  | .close fd =>
    match σ.zsockets fd with
    | some p => decide (p.type = .connect) && !p.status.writing && p.status.wants
    | none => false
  | .zfdWrite fd r₁ _ =>
    match σ.zsockets fd with
    | some zs => zs.status.connected && zs.status.wantWriteFromWrite && zs.status.closed
        && zs.finishes r₁ && { zs.status with wantWriteFromWrite := false }.wants
    | none => false
  | .zfdRead fd _ r₁ r₂ =>
    match σ.zsockets fd with
    | some zs => zs.status.connected && zs.status.wantReadFromWrite && zs.status.closed
        && ((σ.afterReader fd zs r₁).map fun zs =>
          zs.finishes r₂ && { zs.status with wantReadFromWrite := false }.wants).getD false
    | none => false
  | _ => false

end Zimr
