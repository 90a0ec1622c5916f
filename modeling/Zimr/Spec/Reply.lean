import Zimr.Spec.Connection
import Zimr.Spec.Headers
import Zimr.Spec.MsgSwitch

/-!
# Replies (`lib/zimr.c`)

What a webapp sends for a connection: the status, the headers, and an error page, a directory
or a file; with the headers goes a line of the log (`zimr_log_request`). The results of the calls
of `msg_write` are not looked at, except for those of `zimr_file_handler`; a function here gives
the buffers that it passes to `msg_write`, in order, and `msgWrites` passes them.
-/

namespace Zimr

/-- `%d` for a number that is not negative, and for any. -/
def decText (n : ℕ) : List UInt8 := (Nat.toDigits 10 n).map fun c => UInt8.ofNat c.toNat
def intText (n : ℤ) : List UInt8 := if n < 0 then 45 :: decText n.natAbs else decText n.toNat

/-- `httpstatus`. -/
def httpstatus : List (List UInt8) :=
  ["100 Continue", "101 Switching Protocols", "200 OK", "201 Created", "202 Accepted",
    "203 Non-Authoritative Information", "204 No Content", "205 Reset Content",
    "206 Partial Content", "300 Multiple Choices", "301 Moved Permanently", "302 Found",
    "303 See Other", "304 Not Modified", "305 Use Proxy", "307 Temporary Redirect",
    "400 Bad Request", "401 Unauthorized", "403 Forbidden", "404 Not Found",
    "405 Method Not Allowed", "406 Not Acceptable", "407 Proxy Authentication Required",
    "408 Request Timeout", "409 Conflict", "410 Gone", "411 Length Required",
    "412 Precondition Failed", "413 Request Entity Too Large", "414 Request-URI Too Long",
    "415 Unsupported Media Type", "416 Requested Range Not Satisfiable",
    "417 Expectation Failed", "500 Internal Server Error", "501 Not Implemented",
    "502 Bad Gateway", "503 Service Unavailable", "504 Gateway Timeout",
    "505 HTTP Version Not Supported"].map ascii

/-- `response_status`. -/
def responseStatus (c : ℕ) : Option (List UInt8) :=
  httpstatus.find? fun s => startswith s (decText c)

/-- `connection_t`, what a reply uses of it. -/
structure Reply where
  httpVersion : List UInt8
  httpStatus : ℕ
  headers : Headers
  sendingError : Bool

/-- The reply that `zimr_connection_handler` starts with: optimistically, and with two headers to
ensure their position at the top. -/
def freshReply (httpVersion : List UInt8) : Reply where
  httpVersion
  httpStatus := 200
  headers := [⟨ascii "Date", []⟩, ⟨ascii "Server", []⟩]
  sendingError := false

/-- What a reply gets from elsewhere: the connection with the headers of its request, the time
(`now_str`, and as it is for the log), `ZIMR_VERSION`, what `cookies_to_string` writes, and an
`error_handler`, which may change the reply, write something and say that it has answered. -/
structure ServeEnv where
  connection : Connection
  request : Headers
  now : List UInt8
  logNow : List UInt8
  version : List UInt8
  cookies : List UInt8
  errorHandler : Option (Reply → Reply × List (List UInt8) × Bool)
  now_short : now.length < 80
  version_short : version.length < 256

/-- `zimr_connection_send_status`. -/
def sendStatus (reply : Reply) : Except BufFault (List UInt8) :=
  match responseStatus reply.httpStatus with
  | none => .error .nullDeref
  | some status =>
    let line := ascii "HTTP/" ++ reply.httpVersion ++ ascii " " ++ status ++ crlf
    if 100 ≤ line.length then .error .outOfBounds else .ok line

/-- `HTTP_TYPE`. -/
def httpType : ReqType → List UInt8
  | .get => ascii "GET"
  | .post => ascii "POST"

/-- The value of a header of the request, or nothing. -/
def headerText (headers : Headers) (name : String) : List UInt8 :=
  ((headersGetHeader headers (ascii name)).map Header.value).getD []

/-- `zimr_log_request`: the line, in a buffer of 1024 bytes. `now` is the time as text. -/
def zimrLogRequest (now : List UInt8) (connection : Connection) (headers : Headers)
    (httpStatus : ℕ) : Except BufFault (List UInt8) :=
  let buffer := (ascii ", ").intercalate [
    now,
    inetNtoa (leNum connection.ip),
    connection.hostname,
    httpType connection.type,
    connection.website.fullUrl ++ connection.urlText,
    decText httpStatus,
    headerText headers "User-Agent",
    headerText headers "Referer"] ++ [10]
  if 1024 ≤ buffer.length then .error .outOfBounds else .ok buffer

/-- The headers of a response as `zimr_connection_send_headers` completes them. -/
def responseHeaders (env : ServeEnv) (reply : Reply) : Except BufFault Headers := do
  let headers ← headersSetHeader reply.headers (ascii "Date") env.now
  let headers ← headersSetHeader headers (ascii "Server") (ascii "Zimr/" ++ env.version)
  if env.cookies ≠ [] then headersSetHeader headers (ascii "Set-Cookie") env.cookies else pure headers

/-- `zimr_connection_send_headers`. The text goes into a buffer of 1024 bytes, and then a line into
the log. -/
def sendHeaders (env : ServeEnv) (reply : Reply) : Except BufFault (Reply × List UInt8) := do
  let headers ← responseHeaders env reply
  let text := headersToString headers
  if 1024 ≤ text.length then throw .outOfBounds
  let _ ← zimrLogRequest env.logNow env.connection env.request reply.httpStatus
  return ({ reply with headers }, text)

/-- The status and the headers. -/
def sendHead (env : ServeEnv) (reply : Reply) : Except BufFault (Reply × List (List UInt8)) := do
  let status ← sendStatus reply
  let (reply, text) ← sendHeaders env reply
  return (reply, [status, text])

/-- `mime_get_type( ".html" )`. -/
def mimeHtml : List UInt8 := ascii "text/html"

/-- `headers_set_header( &connection->response.headers, ... )`. -/
def Reply.set (reply : Reply) (name : String) (value : List UInt8) : Except BufFault Reply :=
  (headersSetHeader reply.headers (ascii name) value).map fun headers => { reply with headers }

/-- The same when there is no such header. -/
def Reply.default (reply : Reply) (name : String) (value : List UInt8) : Except BufFault Reply :=
  if (headersGetHeader reply.headers (ascii name)).isSome then .ok reply else reply.set name value

/-- `zimr_connection_send`. -/
def zimrConnectionSend (env : ServeEnv) (reply : Reply) (message : List UInt8) :
    Except BufFault (Reply × List (List UInt8)) := do
  let reply ← reply.default "Content-Type" mimeHtml
  let reply ← reply.set "Content-Length" (intText message.length)
  let (reply, head) ← sendHead env reply
  return (reply, head ++ [message])

/-! ## Error pages -/

def errorMsgTop : List UInt8 := ascii "<!doctype html><html><body><h1>"
def errorMsgMiddle : List UInt8 := ascii "</h1><pre>"
def errorMsgBottom : List UInt8 := ascii "</pre></body></html>"

/-- `sprintf( sizebuf, ... )` into ten bytes. -/
def sizebuf (n : ℕ) : Except BufFault (List UInt8) :=
  if 10 ≤ (decText n).length then .error .outOfBounds else .ok (decText n)

/-- `zimr_connection_send_error`. -/
def zimrConnectionSendError (env : ServeEnv) (reply : Reply) (code : ℕ) (message : List UInt8) :
    Except BufFault (Reply × List (List UInt8)) := do
  let (reply, written, sent) :=
    match if reply.sendingError then none else env.errorHandler with
    | some handler => handler { reply with sendingError := true }
    | none => (reply, [], false)
  if sent then return (reply, written)
  let reply := { reply with httpStatus := code }
  let reply ← reply.set "Content-Type" mimeHtml
  match responseStatus code with
  | none => throw .nullDeref
  | some status =>
    -- each `sizeof` counts a NUL
    let size := status.length + message.length + (errorMsgTop.length + 1)
      + (errorMsgMiddle.length + 1) + (errorMsgBottom.length + 1) - 3
    let reply ← reply.set "Content-Length" (← sizebuf size)
    let (reply, head) ← sendHead env reply
    return (reply, written ++ head ++ [errorMsgTop, status, errorMsgMiddle, message, errorMsgBottom])

/-! ## Directories -/

/-- An entry that `readdir` gives: its name, and what `stat` says (`none` when it fails). -/
structure DirEntry where
  name : List UInt8
  isDir : Option Bool

/-- A `char`, which has a sign. -/
def schar (c : UInt8) : ℤ := if c < 128 then (c.toNat : ℤ) else (c.toNat : ℤ) - 256

/-- `directory_sort`. -/
def directorySort : List UInt8 → List UInt8 → ℤ
  | [], [] => 0
  | [], d :: _ => if schar d < 0 then -1 else 1
  | c :: _, [] => if 0 < schar c then -1 else 1
  | c :: s, d :: t => if c = d then directorySort s t else if schar d < schar c then -1 else 1

/-- `html_header`, `html_file_fmt`, `html_dir_fmt` and `html_footer`. -/
def htmlHeader (url : List UInt8) : List UInt8 :=
  ascii "<html><style type=\"text/css\">html, body \x7b font-family: sans-serif; \x7d</style><body>\n<h1>"
    ++ url ++ ascii "</h1>\n"
def htmlFile (name : List UInt8) : List UInt8 :=
  ascii "<a href=\"" ++ name ++ ascii "\">" ++ name ++ ascii "</a><br/>\n"
def htmlDir (name : List UInt8) : List UInt8 :=
  ascii "<a href=\"" ++ name ++ ascii "/\">" ++ name ++ ascii "/</a><br/>\n"
def htmlFooter (env : ServeEnv) : List UInt8 :=
  ascii "<br/>Zimr/" ++ env.version ++ ascii "\n</body></html>"

/-- The line of an entry, if it has one. -/
def dirLine (ignored : List UInt8 → Bool) (url : List UInt8) (entry : DirEntry) :
    Option (List UInt8) :=
  match entry.isDir with
  | none => none
  | some isDir =>
    if ignored (url ++ entry.name) || entry.name = ascii "." then none
    else some (if isDir then htmlDir entry.name else htmlFile entry.name)

/-- The lines of a directory; `size` is summed up over them as they are read. -/
def dirLines (ignored : List UInt8 → Bool) (url : List UInt8) (entries : List DirEntry) :
    List (List UInt8) :=
  entries.filterMap (dirLine ignored url)

/-- `zimr_connection_send_dir`; `entries` is `none` when `opendir` fails. -/
def zimrConnectionSendDir (env : ServeEnv) (reply : Reply) (ignored : List UInt8 → Bool)
    (entries : Option (List DirEntry)) : Except BufFault (Reply × List (List UInt8)) :=
  match entries with
  | none => zimrConnectionSendError env reply 404 []
  | some entries => do
    let url := env.connection.urlText
    let files := dirLines ignored url entries
    let size := files.foldl (fun size file => size + file.length)
      ((htmlHeader url).length + (htmlFooter env).length)
    let reply := { reply with httpStatus := 200 }
    let reply ← reply.set "Content-Type" mimeHtml
    let reply ← reply.set "Content-Length" (← sizebuf size)
    let (reply, head) ← sendHead env reply
    let files := files.mergeSort fun a b => directorySort a b ≠ -1
    return (reply, head ++ [htmlHeader url] ++ files ++ [htmlFooter env])

/-! ## What is passed on -/

/-- The calls of `msg_write` for these buffers, and what they return. -/
def msgWrites (sw : MsgSwitch) (msgid : ℕ) :
    List (List UInt8) → Except Fault (MsgSwitch × List (Except Errno ℕ))
  | [] => .ok (sw, [])
  | buf :: bufs => do
    let (sw, result) ← msgWrite sw msgid buf
    let (sw, results) ← msgWrites sw msgid bufs
    return (sw, result :: results)

/-- The bytes that calls have taken. -/
def bytesTaken : List (Except Errno ℕ) → ℕ
  | [] => 0
  | .ok n :: results => n + bytesTaken results
  | .error _ :: results => bytesTaken results

end Zimr
