import Zimr.Spec.Reply

/-!
# Files (`zimr_connection_default_page_handler` and `zimr_file_handler` of `lib/zimr.c`)

The page handler writes the headers and leaves the file to the other one, which is called
whenever the msg has room again, and each time reads up to 2048 bytes and passes them to
`msg_write`.
-/

namespace Zimr

/-- A regular file: its bytes, its type as `mime_get_type` gives it, the time of its last change
as text, and its tag (`etag_gen`). -/
structure PageFile where
  content : List UInt8
  mimeType : List UInt8
  mtime : List UInt8
  etag : List UInt8
  mime_short : mimeType.length < 40
  mtime_short : mtime.length < 80
  etag_length : etag.length = 34

/-- What `stat`, `opendir` and `open` find at a path. -/
inductive PageStat
  | missing
  | dir (entries : Option (List DirEntry))
  | file (file : PageFile) (opens : Bool)

/-- `fileread_data_t` with the file that is open at `fd` and its offset. -/
structure FileRead where
  content : List UInt8
  pos : ℕ
  rangeStart : ℤ
  rangeEnd : ℤ
  deriving DecidableEq, Repr

/-- The client has this file: what it sends back is what the headers of the reply say. -/
def notModified (request reply : Headers) : Bool :=
  let value (hs : Headers) (name : String) := (headersGetHeader hs (ascii name)).map (·.value)
  let fresh (cacheControl : List UInt8) :=
    (strstr cacheControl (ascii "max-age=0")).isNone && (strstr cacheControl (ascii "no-cache")).isNone
  ((value request "Cache-Control").map fresh).getD true
    && (value request "If-Modified-Since").isSome
    && value request "If-Modified-Since" = value reply "Last-Modified"
    && (value request "If-None-Match").isSome
    && value request "If-None-Match" = value reply "ETag"

/-- The part of the file that is sent, from the `Range` of the request; `size` is that of the
file. -/
def pageRange (request : Headers) (reply : Reply) (size : ℤ) : Except BufFault (Reply × ℤ × ℤ) :=
  match headersGetHeader request (ascii "Range") with
  | none => .ok (reply, 0, size)
  | some range =>
    let reply := { reply with httpStatus := 206 }
    let (tmpStart, tmpEnd) := headersHeaderRangeParse range
    let tmpEnd := if tmpEnd = -1 then size else tmpEnd
    if 0 ≤ tmpStart ∧ tmpEnd ≤ size ∧ tmpStart ≤ tmpEnd then
      (reply.set "Content-Range" (ascii "bytes " ++ intText tmpStart ++ ascii "-" ++
        intText tmpEnd ++ ascii "/" ++ intText size)).map fun reply => (reply, tmpStart, tmpEnd)
    else .ok (reply, 0, size)

/-- The headers of a reply with a file that do not depend on the request. -/
def pageHeaders (reply : Reply) (file : PageFile) : Except BufFault Reply := do
  let reply ← reply.default "Content-Type" file.mimeType
  let reply ← reply.default "Accept-Ranges" (ascii "bytes")
  let reply ← reply.default "Last-Modified" file.mtime
  reply.default "ETag" file.etag

/-- `zimr_connection_default_page_handler`: the buffers it passes to `msg_write`, and the file
that it leaves to `zimr_file_handler`. -/
def zimrDefaultPageHandler (env : ServeEnv) (reply : Reply) (ignored : List UInt8 → Bool)
    (stat : PageStat) : Except BufFault (Reply × List (List UInt8) × Option FileRead) :=
  match stat with
  | .missing => (zimrConnectionSendError env reply 404 []).map fun r => (r.1, r.2, none)
  | .dir entries => (zimrConnectionSendDir env reply ignored entries).map fun r => (r.1, r.2, none)
  | .file _ false => (zimrConnectionSendError env reply 404 []).map fun r => (r.1, r.2, none)
  | .file file true => do
    let size := intOf file.content.length
    let reply ← pageHeaders reply file
    if notModified env.request reply.headers then
      let (reply, writes) ← zimrConnectionSend env { reply with httpStatus := 304 } []
      return (reply, writes, none)
    let (reply, rangeStart, rangeEnd) ← pageRange env.request reply size
    let reply ← reply.set "Content-Length" (intText (rangeEnd - rangeStart))
    let (reply, head) ← sendHead env reply
    return (reply, head,
      some { content := file.content, pos := rangeStart.toNat, rangeStart, rangeEnd })

/-! ## The file handler -/

/-- `sizeof( buffer )`. -/
def fileBuffer : ℕ := 2048

/-- `n`, how much `zimr_file_handler` asks for. The comparison is one of unsigned numbers. -/
def FileRead.asked (file : FileRead) : ℤ :=
  if file.rangeEnd % (sizeMod : ℤ) < file.pos + fileBuffer then
    intOf (fileBuffer - (file.pos + fileBuffer - file.rangeEnd))
  else fileBuffer

/-- What `read` may return for an unchanged regular file: some of what is asked for and there,
and something when there is something. -/
structure FileRead.Reads (file : FileRead) (got : ℕ) : Prop where
  asked : (got : ℤ) ≤ file.asked
  there : got ≤ file.content.length - file.pos
  some : 0 < file.asked → file.pos < file.content.length → 0 < got

/-- `zimr_file_handler`, when `read` returns `got`: the bytes that `msg_write` has taken, and
whether it calls `cleanup_connection`. -/
def zimrFileHandler (sw : MsgSwitch) (msgid : ℕ) (file : FileRead) (got : ℕ) :
    Except Fault (MsgSwitch × FileRead × List UInt8 × Bool) := do
  let sw ← msgSetWrite sw msgid
  let bytes := (file.content.drop file.pos).take got
  let file := { file with pos := file.pos + got }
  if got = 0 then return (sw, file, [], true)
  let (sw, result) ← msgWrite sw msgid bytes
  match result with
  | .error _ => return (sw, file, [], true)
  | .ok _ => return (sw, file, bytes, false)

/-- A call of `zimr_file_handler`: the switch as it is then, and what `read` returns. -/
structure PumpCall where
  sw : MsgSwitch
  got : ℕ

/-- The calls of `zimr_file_handler` for a connection, until one closes it: what is sent, and
whether it is closed. -/
def pumpFile (msgid : ℕ) : FileRead → List PumpCall → Except Fault (List UInt8 × Bool)
  | _, [] => .ok ([], false)
  | file, call :: calls => do
    let (_, file, bytes, closed) ← zimrFileHandler call.sw msgid file call.got
    if closed then return (bytes, true)
    let (rest, closed) ← pumpFile msgid file calls
    return (bytes ++ rest, closed)

/-! ## What a range asks for -/

/-- Decimal digits, at least one. -/
structure Decimal (s : List UInt8) : Prop where
  digits : ∀ c ∈ s, 48 ≤ c ∧ c ≤ 57
  ne : s ≠ []

/-- A single range that a file of `size` bytes can satisfy, and the first and the last byte it
asks for: from one to another, from one on, or the last ones. -/
inductive RangeText (size : ℕ) : List UInt8 → ℕ → ℕ → Prop
  | both {a b : List UInt8} : Decimal a → Decimal b → numOf 10 a ≤ numOf 10 b →
      numOf 10 b < size →
      RangeText size (ascii "bytes=" ++ (a ++ 45 :: b)) (numOf 10 a) (numOf 10 b)
  | onwards {a : List UInt8} : Decimal a → numOf 10 a < size →
      RangeText size (ascii "bytes=" ++ (a ++ [45])) (numOf 10 a) (size - 1)
  | last {n : List UInt8} : Decimal n → 0 < numOf 10 n → numOf 10 n ≤ size →
      RangeText size (ascii "bytes=" ++ 45 :: n) (size - numOf 10 n) (size - 1)

end Zimr
