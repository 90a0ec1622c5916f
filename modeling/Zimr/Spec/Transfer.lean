import Zimr.Spec.Zsocket

/-!
# What passes through the sockets

The functions of `zsocket.c` that read or write a descriptor, with a record of the bytes that
went in and out of each socket since it was opened. `Traced.step` is `Zs.step` with that record
and changes nothing else.
-/

namespace Zimr

/-- What went through a socket since it was opened. -/
structure SockLog where
  /-- What `read` put into the buffer. -/
  delivered : List UInt8 := []
  /-- `read` has answered 0. -/
  ended : Bool := false
  /-- The error of the last `read` that failed. -/
  readErrno : Option SockErrno := none
  /-- What `zs_read` returned. -/
  returned : List UInt8 := []
  /-- The buffers that `zs_write` took. -/
  accepted : List UInt8 := []
  /-- What `write` took. -/
  handed : List UInt8 := []
  /-- A `write` has failed. -/
  writeFailed : Bool := false
  /-- A `write` of some bytes has been answered with 0. -/
  zeroWrite : Bool := false
  deriving DecidableEq, Repr

/-- How often a descriptor was handed out as a listener and closed, since it was opened. -/
structure SockUses where
  listens : ℕ := 0
  closes : ℕ := 0
  deriving DecidableEq, Repr

/-- The sockets and the record of each. -/
structure Traced where
  zs : Zs
  log : ℕ → SockLog
  uses : ℕ → SockUses

def Traced.init : Traced := ⟨zsInit, fun _ => {}, fun _ => {}⟩

/-- The answer to a `read` into what is free of the buffer. -/
def SockLog.read (l : SockLog) (zs : Zsocket) : RwRes → SockLog
  | .bytes bs =>
    let bs := bs.take (zsReadSize - zs.read.used).toNat
    { l with delivered := l.delivered ++ bs, ended := l.ended || bs.isEmpty }
  | .fail _ e => { l with readErrno := some e }
  | .wantRead => l
  | .wantWrite => l

/-- The answer to a `write` of what is left of the buffer. -/
def SockLog.write (l : SockLog) (zs : Zsocket) : RwRes → SockLog
  | .bytes bs =>
    let n := min bs.length (zs.write.used - zs.write.pos)
    { l with
      handed := l.handed ++ ((zs.write.buffer.getD []).drop zs.write.pos).take n
      zeroWrite := l.zeroWrite || (bs.isEmpty && decide (zs.write.pos < zs.write.used)) }
  | .fail _ _ => { l with writeFailed := true }
  | .wantRead => l
  | .wantWrite => l

/-- `zs_reader`. -/
def zsReaderT (t : Traced) (fd : ℕ) (r : RwRes) : Except ZsFault Traced := do
  let zs ← t.zs.get fd
  let σ ← zsReader t.zs fd r
  return { t with zs := σ, log := Function.update t.log fd ((t.log fd).read zs r) }

/-- `zs_writer`. -/
def zsWriterT (t : Traced) (fd : ℕ) (r : RwRes) : Except ZsFault Traced := do
  let zs ← t.zs.get fd
  let σ ← zsWriter t.zs fd r
  return { t with zs := σ, log := Function.update t.log fd ((t.log fd).write zs r) }

/-- `zs_internal_write`. -/
def zsInternalWriteT (t : Traced) (fd : ℕ) (r₁ r₂ : RwRes) : Except ZsFault Traced := do
  let zs ← t.zs.getConnect fd
  if zs.status.connected then
    let t ← (if zs.status.wantWriteFromWrite then
      zsWriterT { t with zs := t.zs.set fd { zs with status.wantWriteFromWrite := false } } fd r₁
      else pure t)
    match t.zs.zsockets fd with
    | none => return t
    | some zs =>
      let t ← (if zs.status.wantWriteFromRead then
        zsReaderT { t with zs := t.zs.set fd { zs with status.wantWriteFromRead := false } } fd r₂
        else pure t)
      return { t with zs := ← zsUpdateFdState t.zs fd }
  else
    let σ ← zsUnconnected t.zs fd (if zs.status.connecting then
      { zs with status.wantWriteFromConnect := false }
      else { zs with status.wantWriteFromAccept := false }) r₁
    return { t with zs := ← zsUpdateFdState σ fd }

/-- `zs_internal_read`. -/
def zsInternalReadT (t : Traced) (fd : ℕ) (r₁ r₂ : RwRes) : Except ZsFault Traced := do
  let zs ← t.zs.getConnect fd
  if zs.status.connected then
    let zs := zs.startRead
    let t ← (if zs.status.wantReadFromRead then
      zsReaderT { t with zs := t.zs.set fd { zs with status.wantReadFromRead := false } } fd r₁
      else pure { t with zs := t.zs.set fd zs })
    let zs ← t.zs.get fd
    let t ← (if zs.status.wantReadFromWrite then
      zsWriterT { t with zs := t.zs.set fd { zs with status.wantReadFromWrite := false } } fd r₂
      else pure t)
    match t.zs.zsockets fd with
    | none => return t
    | some _ => return { t with zs := ← zsUpdateFdState t.zs fd }
  else
    let σ ← zsUnconnected t.zs fd (if zs.status.connecting then
      { zs with status.wantReadFromConnect := false }
      else { zs with status.wantReadFromAccept := false }) r₁
    return { t with zs := ← zsUpdateFdState σ fd }

/-- The end of `zs_read`. -/
def zsRefillT (t : Traced) (fd : ℕ) (r : RwRes) : Except ZsFault Traced := do
  let zs ← t.zs.get fd
  if zs.read.used = 0 && !zs.status.eof then
    let σ := t.zs.countDown (t.zs.activeRead fd && zs.status.readable)
    let σ := σ.set fd { zs with read.pos := 0, read.used := 0, status.readable := false }
    let wantRead := zs.status.wantReadFromRead
    let wantWrite := zs.status.wantWriteFromRead
    let t ← zsReaderT { t with zs := σ } fd r
    let zs ← t.zs.get fd
    return { t with zs := ← zsUpdateFdState (t.zs.set fd { zs with
      status.wantReadFromRead := wantRead, status.wantWriteFromRead := wantWrite }) fd }
  else return t

/-- `zs_read`. -/
def zsReadT (t : Traced) (fd : ℕ) (nbyte : ℕ) (r : RwRes) :
    Except ZsFault (Traced × Except SockErrno (List UInt8)) := do
  match t.zs.zsockets fd with
  | none => return (t, .error .ebadf)
  | some zs =>
    if zs.type ≠ .connect || zs.status.closed then return (t, .error .ebadf)
    if !zs.status.readable then return (t, .error .eagain)
    let used : ℤ := min zs.read.used nbyte
    match zs.read.rwErrno with
    | some e =>
      let t ← zsRefillT t fd r
      return (t, if used < 0 then .error e else .ok (List.replicate used.toNat 0))
    | none =>
      if zs.read.used = 0 then
        if !zs.status.eof then throw .assertion
        return (← zsRefillT t fd r, .ok [])
      if used < 0 then throw .outOfBounds
      let buf := (zs.read.buffer.drop zs.read.pos).take used.toNat
      let σ := t.zs.set fd { zs with
        read.pos := zs.read.pos + used.toNat, read.used := zs.read.used - used }
      return (← zsRefillT { t with zs := σ } fd r, .ok buf)

/-- `Zs.step`. A descriptor that is opened starts with an empty record. -/
def Traced.step (t : Traced) : ZsAct → Except ZsFault Traced
  | .zsocket addr portno type eventHdlr ssl k => do
    let (σ, res) ← zsocket t.zs addr portno type eventHdlr ssl k
    match res with
    | .error _ => return { t with zs := σ }
    | .ok fd =>
      let t := if (t.zs.zsockets fd).isSome then t else
        { t with log := Function.update t.log fd {}, uses := Function.update t.uses fd {} }
      let u := t.uses fd
      return { t with
        zs := σ
        uses := if type = .listen then
          Function.update t.uses fd { u with listens := u.listens + 1 } else t.uses }
  | .accept fd => do let (σ, _) ← zsAccept t.zs fd; return { t with zs := σ }
  | .read fd nbyte r => do
    let (t, res) ← zsReadT t fd nbyte r
    match res with
    | .error _ => return t
    | .ok bs =>
      let l := t.log fd
      return { t with log := Function.update t.log fd { l with returned := l.returned ++ bs } }
  | .write fd buf => do
    let (σ, res) ← zsWrite t.zs fd buf
    match res with
    | .error _ => return { t with zs := σ }
    | .ok _ =>
      let l := t.log fd
      return { t with
        zs := σ, log := Function.update t.log fd { l with accepted := l.accepted ++ buf } }
  | .setRead fd => do return { t with zs := ← zsSetRead t.zs fd }
  | .clrRead fd => do return { t with zs := ← zsClrRead t.zs fd }
  | .setWrite fd => do return { t with zs := ← zsSetWrite t.zs fd }
  | .clrWrite fd => do return { t with zs := ← zsClrWrite t.zs fd }
  | .close fd => do
    let (σ, _) ← zsClose t.zs fd
    let u := t.uses fd
    return { t with zs := σ, uses := Function.update t.uses fd { u with closes := u.closes + 1 } }
  | .zfdRead fd accept r₁ r₂ =>
    if t.zs.zfd.activeRead fd then
      match t.zs.zfd.readHandler fd with
      | some .internalAccept => do
        let σ ← zsInternalAccept t.zs fd accept
        match accept with
        | .error _ => return { t with zs := σ }
        | .ok (newsockfd, _) =>
          return ⟨σ, Function.update t.log newsockfd {}, Function.update t.uses newsockfd {}⟩
      | some .internalRead => zsInternalReadT t fd r₁ r₂
      | _ => .error .nullDeref
    else .ok t
  | .zfdWrite fd r₁ r₂ =>
    if t.zs.zfd.activeWrite fd then
      match t.zs.zfd.writeHandler fd with
      | some .internalWrite => zsInternalWriteT t fd r₁ r₂
      | _ => .error .nullDeref
    else .ok t

end Zimr
