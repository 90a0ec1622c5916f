import Zimr.Spec.Transfer

/-!
# One socket

What a step does to the record of one socket, to the interest in it and to its registration:
`Cell.Move` lists the moves of a connection without SSL.
-/

namespace Zimr

/-- A socket with the interest in it, and the handlers it is registered with. -/
structure Cell where
  sock : Zsocket
  armR : Bool
  armW : Bool
  regR : Option ZfdHdlr
  regW : Option ZfdHdlr
  deriving DecidableEq, Repr

/-- The handler that `fd` is registered with for reading. -/
def Zfd.regR (z : Zfd) (fd : ℕ) : Option ZfdHdlr := if z.activeRead fd then z.readHandler fd else none

/-- The handler that `fd` is registered with for writing. -/
def Zfd.regW (z : Zfd) (fd : ℕ) : Option ZfdHdlr := if z.activeWrite fd then z.writeHandler fd else none

/-- The cell of `fd` with the given record. -/
def Zs.cellOf (σ : Zs) (fd : ℕ) (zs : Zsocket) : Cell where
  sock := zs
  armR := σ.activeRead fd
  armW := σ.activeWrite fd
  regR := σ.zfd.regR fd
  regW := σ.zfd.regW fd

/-- The cell of an open descriptor. -/
def Zs.cell (σ : Zs) (fd : ℕ) : Option Cell := (σ.zsockets fd).map (σ.cellOf fd)

/-- `zs_update_fd_state`: the registration follows the record and the interest. -/
def Cell.update (c : Cell) : Cell :=
  match c.sock.type with
  | .connect =>
    { c with
      regR :=
        if (c.armR && !(c.sock.status.reading || c.sock.status.readable)) || c.sock.status.wantsRead
        then some .internalRead else none
      regW :=
        if (c.armW && !(c.sock.status.writing || c.sock.status.writable)) || c.sock.status.wantsWrite
        then some .internalWrite else none }
  | .listen =>
    { c with
      regR :=
        if c.armR && !(c.sock.status.accepting || c.sock.status.readable)
        then some .internalAccept else none }

/-! ## The reader and the writer of a connection without SSL -/

/-- The end of `zs_reader`. -/
def Zsocket.got (zs : Zsocket) : Zsocket := { zs with status.readable := true, status.reading := false }

/-- `zs_reader`. -/
def Zsocket.readPlain (zs : Zsocket) : RwRes → Zsocket
  | .wantRead => { zs with status.wantReadFromRead := true }
  | .wantWrite => { zs with status.wantReadFromRead := true }
  | .fail _ e => { zs with read.rwErrno := some e, read.used := -1 }.got
  | .bytes bs =>
    let bs := bs.take (zsReadSize - zs.read.used).toNat
    if bs = [] then { zs with status.eof := true }.got
    else { zs with read := { zs.read with
      buffer := zs.read.buffer.take zs.read.used.toNat ++ bs ++
        zs.read.buffer.drop (zs.read.used.toNat + bs.length)
      used := zs.read.used + bs.length } }.got

/-- The end of `zs_writer`. -/
def Zsocket.written (zs : Zsocket) : Zsocket :=
  { zs with write.buffer := none, status.writable := true, status.writing := false }

/-- `zs_writer`, up to the close that may follow. -/
def Zsocket.writePlain (zs : Zsocket) : RwRes → Zsocket
  | .wantRead => { zs with status.wantWriteFromWrite := true }
  | .wantWrite => { zs with status.wantWriteFromWrite := true }
  | .fail _ e => { zs with write.rwErrno := some e }.written
  | .bytes bs =>
    let n := min bs.length (zs.write.used - zs.write.pos)
    let zs := { zs with write.pos := zs.write.pos + n }
    if 0 < n && zs.write.used - zs.write.pos ≠ 0 then { zs with status.wantWriteFromWrite := true }
    else zs.written

/-- The record before the reader of `zs_internal_read`. -/
def Zsocket.toRead (zs : Zsocket) : Zsocket := { zs.startRead with status.wantReadFromRead := false }

/-- The record before the writer of `zs_internal_write`. -/
def Zsocket.toWrite (zs : Zsocket) : Zsocket := { zs with status.wantWriteFromWrite := false }

/-- What `zs_read` takes out of the buffer. -/
def Zsocket.taken (zs : Zsocket) (n : ℕ) : List UInt8 :=
  (zs.read.buffer.drop zs.read.pos).take (min zs.read.used n).toNat

/-- What `zs_read` leaves. -/
def Zsocket.take (zs : Zsocket) (n : ℕ) : Zsocket :=
  { zs with
    read.pos := zs.read.pos + (min zs.read.used n).toNat
    read.used := zs.read.used - min zs.read.used n }

/-- The record before the reader of `zs_read`. -/
def Zsocket.drained (zs : Zsocket) : Zsocket :=
  { zs with read.pos := 0, read.used := 0, status.readable := false }

/-- The end of `zs_read`. -/
def Cell.refill (c : Cell) (r : RwRes) : Cell :=
  if c.sock.read.used = 0 && !c.sock.status.eof then
    { c with sock := { c.sock.drained.readPlain r with
      status.wantReadFromRead := c.sock.status.wantReadFromRead
      status.wantWriteFromRead := c.sock.status.wantWriteFromRead } }.update
  else c

/-- The record of it. -/
def SockLog.refill (l : SockLog) (zs : Zsocket) (r : RwRes) : SockLog :=
  if zs.read.used = 0 && !zs.status.eof then l.read zs.drained r else l

/-! ## What can happen to a connection without SSL -/

/-- The moves of a cell and of its record. -/
inductive Cell.Move (c : Cell) (l : SockLog) : Option Cell → SockLog → Prop
  /-- `zs_set_read`, `zs_clr_read`, `zs_set_write` or `zs_clr_write`. -/
  | arm (r w : Bool) : Move c l (some { c with armR := r, armW := w }.update) l
  /-- `zsocket` takes it for a listener. -/
  | share : Move c l (some { c with sock := { c.sock with nOpen := c.sock.nOpen + 1 } }) l
  /-- `zs_close` waits for the write. -/
  | defer (h : c.sock.status.writing = true) : Move c l (some { { c with
      armR := false, armW := false }.update with
        sock := { c.sock with status.closed := true } }) l
  /-- `zs_close`. -/
  | shut (h : c.sock.status.writing = false) : Move c l none l
  /-- `zs_internal_read`. -/
  | readEvent (r : RwRes) (h : c.regR = some .internalRead)
      (hr : c.sock.startRead.status.wantReadFromRead = true) :
      Move c l (some { c with sock := c.sock.toRead.readPlain r }.update) (l.read c.sock r)
  /-- `zs_internal_write`. -/
  | writeEvent (r : RwRes) (h : c.sock.status.wantWriteFromWrite = true)
      (hc : c.sock.finishes r = true → c.sock.status.closed = false) :
      Move c l (some { c with sock := c.sock.toWrite.writePlain r }.update) (l.write c.sock r)
  /-- The end of the write that `zs_close` waited for. -/
  | writeShut (r : RwRes) (h : c.sock.status.wantWriteFromWrite = true)
      (hc : c.sock.finishes r = true) : Move c l none (l.write c.sock r)
  /-- `zs_read` with nothing in the buffer. -/
  | readEnd (r : RwRes) (h : c.sock.status.readable = true)
      (hn : c.sock.read.rwErrno = none → c.sock.read.used = 0) (bs : List UInt8)
      (hb : c.sock.read.used ≤ 0 → bs = []) :
      Move c l (some (c.refill r))
        { l.refill c.sock r with returned := (l.refill c.sock r).returned ++ bs }
  /-- `zs_read`. -/
  | readSome (n : ℕ) (r : RwRes) (h : c.sock.status.readable = true)
      (he : c.sock.read.rwErrno = none) (hu : c.sock.read.used ≠ 0)
      (hn : 0 ≤ min c.sock.read.used n) :
      Move c l (some ({ c with sock := c.sock.take n }.refill r))
        { l.refill (c.sock.take n) r with
          returned := (l.refill (c.sock.take n) r).returned ++ c.sock.taken n }
  /-- `zs_write`. -/
  | write (buf : List UInt8) (h : c.sock.status.writable = true) (hb : c.sock.write.buffer = none)
      (he : c.sock.write.rwErrno = none) :
      Move c l (some { c with sock := { c.sock with
        status.writable := false, status.writing := true, status.wantWriteFromWrite := true
        write.buffer := some buf, write.used := buf.length, write.pos := 0 } }.update)
        { l with accepted := l.accepted ++ buf }
  /-- `zs_write` after a `write` that failed. -/
  | writeError (h : c.sock.status.writable = true) (he : c.sock.write.rwErrno ≠ none) :
      Move c l (some { c with sock := { c.sock with
        status.writable := false, write.rwErrno := none } }.update) l

/-! ## What can happen to a descriptor -/

/-- A connection with SSL, between two calls. -/
structure Cell.Secure (c : Cell) : Prop where
  type : c.sock.type = .connect
  ssl : c.sock.ssl = true
  live : c.sock.status.connected = true ∨ c.sock.status.connecting = true
  reg : c.update = c

/-- A connection without SSL that has just been opened. -/
structure Cell.Fresh (c : Cell) : Prop where
  type : c.sock.type = .connect
  ssl : c.sock.ssl = false
  status : c.sock.status = { connected := true, writable := true }
  read : c.sock.read = {}
  write : c.sock.write = {}
  reg : c.update = c

/-- The moves of a listener, with the count of its uses. -/
inductive Cell.ListenMove (c : Cell) (u : SockUses) : Option Cell → SockUses → Prop
  /-- `zs_set_read`, `zs_clr_read`, `zs_set_write` or `zs_clr_write`. -/
  | arm (r w : Bool) : ListenMove c u (some { c with armR := r, armW := w }.update) u
  /-- `zsocket`. -/
  | share : ListenMove c u (some { c with sock := { c.sock with nOpen := c.sock.nOpen + 1 } })
      { u with listens := u.listens + 1 }
  /-- `zs_close`. -/
  | close (h : 0 < c.sock.nOpen - 1) :
      ListenMove c u (some { c with sock := { c.sock with nOpen := c.sock.nOpen - 1 } })
        { u with closes := u.closes + 1 }
  /-- The last `zs_close`. -/
  | shut (h : ¬0 < c.sock.nOpen - 1) : ListenMove c u none { u with closes := u.closes + 1 }
  /-- `zs_internal_accept` or `zs_accept`. -/
  | accept (zs : Zsocket) (ht : zs.type = c.sock.type) (ha : zs.addr = c.sock.addr)
      (hp : zs.portno = c.sock.portno) (hs : zs.ssl = c.sock.ssl) (hn : zs.nOpen = c.sock.nOpen)
      (hi : c.sock.status.accepting = false → zs.status.accepting = false) :
      ListenMove c u (some { c with sock := zs }.update) u

/-- A step, as one descriptor sees it. -/
inductive CellStep : Option Cell → SockLog → SockUses → Option Cell → SockLog → SockUses → Prop
  | same (x : Option Cell) (l : SockLog) (u : SockUses) : CellStep x l u x l u
  /-- `zs_close` of a descriptor that is not open. -/
  | gone (l : SockLog) (u u' : SockUses) : CellStep none l u none l u'
  | plain {c : Cell} {l l' : SockLog} {y : Option Cell} (u u' : SockUses)
      (ht : c.sock.type = .connect) (hs : c.sock.ssl = false) (h : c.Move l y l') :
      CellStep (some c) l u y l' u'
  | secure {c : Cell} {y : Option Cell} (l l' : SockLog) (u u' : SockUses)
      (ht : c.sock.type = .connect) (hs : c.sock.ssl = true) (h : ∀ c', y = some c' → c'.Secure) :
      CellStep (some c) l u y l' u'
  | listen {c : Cell} {u u' : SockUses} {y : Option Cell} (l l' : SockLog)
      (ht : c.sock.type = .listen) (h : c.ListenMove u y u') : CellStep (some c) l u y l' u'
  /-- `zsocket` opens a listener. -/
  | listens (c : Cell) (l : SockLog) (u : SockUses) (ht : c.sock.type = .listen)
      (hs : c.sock.status = {}) (hn : c.sock.nOpen = 1) (hr : c.armR = false) :
      CellStep none l u (some c) {} { listens := 1 }
  /-- `zsocket` or `zs_internal_accept` opens a connection. -/
  | connects (c : Cell) (l : SockLog) (u u' : SockUses) (h : c.Fresh) : CellStep none l u (some c) {} u'
  | connectsSecure (c : Cell) (l l' : SockLog) (u u' : SockUses) (h : c.Secure) :
      CellStep none l u (some c) l' u'

/-- What the invariant says of a connection without SSL. -/
structure Zsocket.Plain (zs : Zsocket) : Prop where
  connected : zs.status.connected = true
  wantReadFromWrite : zs.status.wantReadFromWrite = false
  wantReadFromConnect : zs.status.wantReadFromConnect = false
  wantReadFromAccept : zs.status.wantReadFromAccept = false
  wantWriteFromRead : zs.status.wantWriteFromRead = false
  reading : zs.status.reading = zs.status.wantReadFromRead
  readable : zs.status.readable = true → zs.status.wantReadFromRead = false
  writing : zs.status.writing = zs.status.wantWriteFromWrite
  writable : zs.status.writable = true → zs.status.writing = false

/-- The invariant of an open descriptor: what is registered is what `zs_update_fd_state`
registers. A listener that is not armed may be registered from an earlier use. -/
structure Cell.OK (c : Cell) : Prop where
  live : c.sock.type = .connect → c.sock.status.connected = true ∨ c.sock.status.connecting = true
  reg : c.sock.type = .connect → c.update = c
  plain : c.sock.type = .connect → c.sock.ssl = false → c.sock.Plain
  idle : c.sock.type = .listen → c.sock.status.accepting = false
  listened : c.sock.type = .listen → c.armR = true → c.update = c

/-! ## Looking for a listener -/

/-- The first socket with this address and port, if there is one, is a listener with this
mode. -/
def Zs.Shares (σ : Zs) (addr : ℕ) (portno : ℤ) (ssl : Bool) : Prop :=
  ∀ i p, i < fdSetSize → σ.zsockets i = some p → p.addr = addr → p.portno = portno →
    (∀ j < i, ∀ q, σ.zsockets j = some q → q.addr = addr → q.portno ≠ portno) →
    p.type = .listen ∧ p.ssl = ssl

/-- The count of a listener: it was handed out more often than it was closed. -/
structure Cell.Counted (c : Cell) (u : SockUses) : Prop where
  count : c.sock.nOpen = (u.listens : ℤ) - u.closes
  held : u.closes < u.listens

end Zimr
