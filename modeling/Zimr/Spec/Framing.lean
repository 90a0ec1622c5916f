import Zimr.Spec.Zimrd

/-!
# The framing of a request

`exreadT` is `exread` with a record of what it reads and of what it passes to `msg_write`,
and `stepT` is `step` with such a record for every connection. `Request` is a request as a
client sends it.
-/

namespace Zimr

/-- What went through a connection since its accept: the bytes of each read, and all the
bytes that `exread` passed to `msg_write`. -/
structure Tape where
  chunks : List (List UInt8) := []
  out : List UInt8 := []
  deriving DecidableEq, Repr

namespace Daemon

/-- `msgWrites`, with the bytes passed. -/
def msgWritesT (d : Daemon) (fd msgid : ℕ) :
    List (List UInt8) → Except DFault (Daemon × Bool × List UInt8)
  | [] => .ok (d, true, [])
  | buf :: bufs => do
    let (d, n) ← d.tryMsg fd fun sw => msgWrite sw msgid buf
    match n with
    | none => return (d, false, buf)
    | some _ => do
      let (d, ok, out) ← d.msgWritesT fd msgid bufs
      return (d, ok, buf ++ out)

/-- `exreadBody`, with the bytes passed. -/
def exreadBodyT (d : Daemon) (sockfd : ℕ) (w : ℕ) (conn : ConnData) (rest : List UInt8) :
    Except DFault (Daemon × List UInt8) := do
  let (d, ok, out) ← d.msgWritesT w conn.msgid (bodyWrites conn rest)
  if !ok then do
    let d ← d.refuse sockfd .p502
    return (d, out)
  else if bodyLeft conn rest = 0 then do
    let (d, _) ← d.tryMsg w fun sw => msgFlush sw conn.msgid
    let d ← d.callZs' (zsSetRead d.zs sockfd)
    return (d.setConn sockfd { conn with postlen := allReceived, buffer := none }, out)
  else do
    let d ← d.assertMsg' w fun sw => msgSetWrite sw conn.msgid
    return (d.setConn sockfd { conn with postlen := bodyLeft conn rest, buffer := none }, out)

/-- `exreadOpen`, with the bytes passed. -/
def exreadOpenT (d : Daemon) (sockfd : ℕ) (website : Website) (conn : ConnData) (type : ReqType)
    (buffer : List UInt8) (hdrlen : ℕ) : Except DFault (Daemon × List UInt8) := do
  let (d, msgid) ← d.assertMsg website.sockfd fun sw => msgOpen sw sockfd
  let conn := { conn with msgid }
  let d := d.setConn sockfd conn
  let d ← d.callZs' (zsSetWrite d.zs sockfd)
  let postlen ← requestPostlen type buffer
  match postlen with
  | none => do
    let d ← d.refuse sockfd .p400
    return (d, [])
  | some postlen => do
    let conn := { conn with postlen }
    let d := d.setConn sockfd conn
    let (d, ok, out) ←
      d.msgWritesT website.sockfd msgid (headWrites conn.addr buffer hdrlen postlen)
    if !ok then do
      let d ← d.refuse sockfd .p502
      return (d, out)
    else do
      let (d, body) ← d.exreadBodyT sockfd website.sockfd conn (buffer.drop hdrlen)
      return (d, out ++ body)

/-- `exreadHeader`, with the bytes passed. -/
def exreadHeaderT (d : Daemon) (sockfd : ℕ) (conn : ConnData) (buffer : List UInt8) :
    Except DFault (Daemon × List UInt8) :=
  match endOfHeaders buffer with
  | none => do
    let d ← (if buffer.length = packDataSize then d.refuse sockfd .p414
      else d.callZs' (zsSetRead d.zs sockfd))
    return (d, [])
  | some hdrlen =>
    match requestType buffer with
    | none => do
      let d ← d.refuse sockfd .p400
      return (d, [])
    | some type => do
      let conn := { conn with requestType := some type }
      let d := d.setConn sockfd conn
      let url ← getUrlFromHttpHeader buffer packDataSize
      match url with
      | none => do
        let d ← d.refuse sockfd .p400
        return (d, [])
      | some url =>
        match d.zs.zsockets conn.exlisnfd with
        | none => .error .nullDeref
        | some exlisn =>
          match websiteFind d.websites url (ascii (if conn.isHttps then "https://" else "http://"))
              (inetNtoa exlisn.addr) with
          | none => do
            let d ← d.refuse sockfd .p404
            return (d, [])
          | some website =>
            let conn := { conn with websiteSockfd := some website.sockfd }
            let d := d.setConn sockfd conn
            if website.exlisnfd ≠ conn.exlisnfd then do
              let d ← d.refuse sockfd .p404
              return (d, [])
            else d.exreadOpenT sockfd website conn type buffer hdrlen

/-- `exread`, with the bytes it reads and those it passes. -/
def exreadT (d : Daemon) (sockfd : ℕ) (r : RwRes) :
    Except DFault (Daemon × List UInt8 × List UInt8) := do
  let conn ← d.getConn sockfd
  let buffer := conn.buffer.getD []
  let d := d.setConn sockfd { conn with buffer := some buffer }
  let (d, got) ← d.callZs (zsRead d.zs sockfd (packDataSize - buffer.length) r)
  match got with
  | .error _ => do
    let d ← d.cleanupConnection sockfd
    return (d, [], [])
  | .ok bytes =>
    if bytes = [] then do
      let d ← d.cleanupConnection sockfd
      return (d, [], [])
    else if conn.postlen = allReceived then return (d, bytes, [])
    else
      let buffer := buffer ++ bytes
      let conn := { conn with buffer := some buffer }
      let d := d.setConn sockfd conn
      match conn.websiteSockfd with
      | none => do
        let (d, out) ← d.exreadHeaderT sockfd conn buffer
        return (d, bytes, out)
      | some w =>
        match websiteGetBySockfd d.websites w with
        | none => do
          let d ← d.refuse sockfd .p502
          return (d, bytes, [])
        | some website => do
          let (d, out) ← d.exreadBodyT sockfd website.sockfd conn buffer
          return (d, bytes, out)

/-- The callback is `ZS_EVT_READ_READY` for the socket of a client. -/
def exsockReads (d : Daemon) : Callback → Option (ℕ × RwRes)
  | .zsRead fd r _ =>
    match d.zs.zsockets fd with
    | some zs =>
      if d.zs.activeRead fd && zs.status.readable && decide (zs.eventHdlr = .exsock)
          && decide (zs.type = .connect) then some (fd, r) else none
    | none => none
  | _ => none

/-- `step`, with a tape for every connection. A tape starts when there is none. -/
def stepT (s : Daemon × (ℕ → Tape)) (a : Callback) : Except DFault (Daemon × (ℕ → Tape)) :=
  let tapes := fun i => if (s.1.connections i).isNone then {} else s.2 i
  match s.1.exsockReads a with
  | some (fd, r) => do
    let d ← s.1.callZs' (zsClrRead s.1.zs fd)
    let (d, bytes, out) ← d.exreadT fd r
    return (d, Function.update tapes fd
      { chunks := (tapes fd).chunks ++ [bytes], out := (tapes fd).out ++ out })
  | none => do
    let d ← s.1.step a
    return (d, tapes)

end Daemon

/-! ## Requests -/

open Daemon

/-- The header block has a field `Content-Length` of `n`, in decimal. -/
def DeclaresLength (head : List UInt8) (n : ℕ) : Prop :=
  ∃ before digs after, head = before ++ ascii "\r\nContent-Length: " ++ digs ++ ascii "\r\n" ++ after ∧
    digs ≠ [] ∧ (∀ c ∈ digs, 48 ≤ c ∧ c ≤ 57) ∧ numOf 10 digs = n

/-- A `GET` or `POST` request, small enough for `size_t`. The header block ends at the first
empty line. -/
structure Request where
  type : ReqType
  head : List UInt8
  body : List UInt8
  starts : requestType head = some type
  ends : endOfHeaders head = some head.length
  get_body : type = .get → body = []
  post_length : type = .post → DeclaresLength head body.length
  small : head.length + body.length + 5 < sizeMod

/-- What the webapp should receive after the length: the address, the empty host name, the
header block and the body. -/
def Request.payload (q : Request) (addr : ℕ) : List UInt8 :=
  leBytes 4 addr ++ [0] ++ q.head ++ q.body

/-- What was passed on so far is the length of the payload and the start of it, and all of
it once `postlen` is `-1`. -/
def Request.Framed (q : Request) (conn : ConnData) (out : List UInt8) : Prop :=
  (out = [] ∨ ∃ data, out = leBytes 8 (q.payload conn.addr).length ++ data ∧
      data <+: q.payload conn.addr) ∧
    (conn.postlen = allReceived →
      out = leBytes 8 (q.payload conn.addr).length ++ q.payload conn.addr)

/-- The text that follows the first `Content-Length: `, up to the end of the line. -/
def lengthText (head : List UInt8) : List UInt8 :=
  let text := head.drop ((strnstr head (ascii "Content-Length: ") head.length).getD 0 + 16)
  text.take ((strnstr text (ascii "\r\n") text.length).getD 0)

/-- No read runs over the first `n` bytes of the stream. -/
def NoneOver (chunks : List (List UInt8)) (n : ℕ) : Prop :=
  ∀ k, (chunks.take k).flatten.length < n → (chunks.take (k + 1)).flatten.length ≤ n

/-- When the framing is exact: the header block is not complete, it is a `GET`, or the length
fits the 32 bytes of `postlenbuf`, reads as what it is, and no read ran over the end of the
body. -/
def Request.Exact (q : Request) (chunks : List (List UInt8)) : Prop :=
  chunks.flatten.length < q.head.length ∨ q.type = .get ∨
    (lengthText q.head).length < 32 ∧ strtoumax (lengthText q.head) = q.body.length ∧
      (q.body = [] ∨ NoneOver chunks (q.head.length + q.body.length))

/-- A `POST` whose length does not fit `postlenbuf`. -/
def Request.Overlong (q : Request) : Prop := q.type = .post ∧ 32 ≤ (lengthText q.head).length

end Zimr
