import Zimr.Spec.Body

/-!
# Requests from the daemon (`zimr_connection_handler` of `lib/zimr.c`)

The request comes in as the reads of a msg: a `size_t` with its size and the bytes, cut
anywhere. When all of it is there `connection_create` is called, then the modules, the redirect
or the handler of the website.
-/

namespace Zimr

/-- `conn_data_t` of the webapp, what the handler uses of it. -/
structure WebConnData where
  data : List UInt8
  sizeReceived : ℕ
  size : ℕ
  connection : Option ConnRequest

/-- The website of a webapp with its `website_data_t`: whether `WS_OPTION_PARSE_MULTIPARTS` is
set, and the `modzimr_connection_new` of each module, which may change the connection and say
that it is answered. -/
structure WebappSite where
  website : Website
  parseMultiparts : Bool
  modules : List (ConnRequest → ConnRequest × Bool)
  redirectUrl : Option (List UInt8)

/-- How a request goes on: `connection_create` gives `NULL`, a module answers, the client is
sent somewhere else, or the handler of the website is called. -/
inductive Answer
  | refused
  | byModule (conn : ConnRequest)
  | redirect (conn : ConnRequest) (location : List UInt8)
  | byHandler (conn : ConnRequest)

/-- What a call of `zimr_connection_handler` does: it waits for more, returns `false`, or calls
`connection_create` with this `data` and `size` and goes on. -/
inductive Handled
  | waiting
  | refused
  | created (data : List UInt8) (size : ℕ) (answer : Except CreateFault Answer)

/-- The text for the `Location` of a redirected website, in its buffer. -/
def redirectLocation (redirectUrl url : List UInt8) (params : List Param) :
    Except CreateFault (List UInt8) :=
  let urlLen := redirectUrl.length + url.length
  let qsLen := paramsQsLen params
  if qsLen = 0 then .ok (redirectUrl ++ url)
  else if urlLen + qsLen + 9 < urlLen + 1 + (paramsGenQs params).length + 1 then
    .error (.body .outOfBounds)
  else .ok (redirectUrl ++ url ++ ascii "?" ++ paramsGenQs params)

/-- The modules, one after the other until one has answered. -/
def runModules : List (ConnRequest → ConnRequest × Bool) → ConnRequest → ConnRequest × Bool
  | [], conn => (conn, false)
  | m :: ms, conn => if (m conn).2 then m conn else runModules ms (m conn).1

/-- From the call of `connection_create` on. -/
def answerRequest (site : WebappSite) (msgid : ℕ) (data : List UInt8) (size : ℕ) :
    Except CreateFault Answer := do
  match ← connectionCreateAll site.website site.parseMultiparts msgid data size with
  | none => return .refused
  | some conn =>
    let (conn, sent) := runModules site.modules conn
    if sent then return .byModule conn
    else
      match site.redirectUrl with
      | some url => return .redirect conn (← redirectLocation url conn.conn.urlText conn.params)
      | none => return .byHandler conn

/-- The connection that an answer is for. -/
def Answer.conn : Answer → Option ConnRequest
  | .refused => none
  | .byModule conn => some conn
  | .redirect conn _ => some conn
  | .byHandler conn => some conn

/-- `zimr_connection_handler`, with the table `connections` as it is before the answer. -/
def zimrConnectionHandler (site : WebappSite) (msgid : ℕ) (connections : ℕ → Option WebConnData)
    (buf : List UInt8) : Except BufFault ((ℕ → Option WebConnData) × Handled) := do
  let (conn, buf) ← (match connections msgid with
    | some conn => pure (conn, buf)
    | none =>
      if buf.length < 8 then throw .outOfBounds
      else
        let size := leNum (buf.take 8)
        let conn : WebConnData := { data := [], sizeReceived := 0, size, connection := none }
        pure (conn, buf.drop 8))
  let set (conn : WebConnData) := Function.update connections msgid (some conn)
  if conn.size ≤ conn.sizeReceived then return (set conn, .refused)
  let conn := { conn with
    data := conn.data.take conn.sizeReceived ++ buf
    sizeReceived := conn.sizeReceived + buf.length }
  if conn.size < conn.sizeReceived then return (set conn, .refused)
  if conn.sizeReceived = conn.size then
    let answer := answerRequest site msgid conn.data conn.size
    let connection := (answer.toOption.bind Answer.conn)
    return (set { conn with connection }, .created conn.data conn.size answer)
  return (set conn, .waiting)

/-- The chunks one after the other. -/
def feedChunks (site : WebappSite) (msgid : ℕ) : (ℕ → Option WebConnData) → List (List UInt8) →
    Except BufFault ((ℕ → Option WebConnData) × List Handled)
  | connections, [] => .ok (connections, [])
  | connections, buf :: bufs => do
    let (connections, handled) ← zimrConnectionHandler site msgid connections buf
    let (connections, rest) ← feedChunks site msgid connections bufs
    return (connections, handled :: rest)

end Zimr
