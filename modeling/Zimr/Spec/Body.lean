import Zimr.Spec.Connection
import Zimr.Spec.Headers

/-!
# Headers and body of a request (`connection_create` of `connection.c`, from the headers on)

`connectionBody` goes on where `connectionCreate` has stopped. A `strcpy` of a `charset` that
does not fit runs over the headers behind it (`none` there); nothing else of the loop depends
on them, so it goes on, and whoever reads them later stops.
-/

namespace Zimr

/-- `CONN_MAX_HTTP_MULTIPART`. -/
def connMaxHttpMultipart : ℕ := 100

/-- `sizeof( charset )`. -/
def charsetLen : ℕ := 100

/-- Where the rest of `connection_create` stops: at `parts[ i ]` with `i` too large, with a
`post_body_len` below zero, at headers that are overwritten, outside of another buffer, or in
`params_parse_qs`. -/
inductive BodyFault
  | partIndex | negativeLen | headersGone | outOfBounds
  | qs (f : QsFault)
  deriving DecidableEq, Repr

/-- An entry of `request.parts`; `postBody` is `post_body` without the last NUL. -/
structure Part where
  headers : Option Headers
  postBody : Option (List UInt8)
  postBodyLen : ℕ
  charset : List UInt8
  deriving DecidableEq, Repr

/-- `connection_t` with what comes behind the request line. -/
structure ConnRequest where
  conn : Connection
  headers : Option Headers
  params : List Param
  postBody : Option (List UInt8)
  postBodyLen : ℕ
  charset : List UInt8
  parts : List Part

/-- `HTTP_HDR_ENDL HTTP_HDR_ENDL`. -/
def blankLine : List UInt8 := crlf ++ crlf

/-- `malloc( n + 1 )`, `memset` and `strncpy`: the `n` bytes. -/
def strncpyZero (src : List UInt8) (n : ℕ) : List UInt8 :=
  (cstr src).take n ++ List.replicate (n - (cstr src).length) 0

/-- The charset that `Content-Type` names. ISO-8859-1 is the default for http. -/
def charsetOf (header : Option Header) : List UInt8 :=
  (header.bind fun h => headersGetHeaderAttr h (some (ascii "charset"))).getD (ascii "ISO-8859-1")

/-- The headers in front of which `strcpy( charset, ... )` writes. -/
def keptBy (charset : List UInt8) (headers : Headers) : Option Headers :=
  if charset.length < charsetLen then some headers else none

/-- What the variable `header` stands for after that. -/
def headerBy (charset : List UInt8) (header : Option Header) : Except BodyFault (Option Header) :=
  if charset.length < charsetLen then .ok header else .error .headersGone

/-- `while ( ( boundary_ptr = strstr( ptr, boundary ) ) )`: the parts, and the variable `header`.
Every round moves `ptr` over a delimiter. -/
def multipartLoop (boundary : List UInt8) : ℕ → List Part → Except BodyFault (Option Header) →
    List UInt8 → Except BodyFault (List Part × Except BodyFault (Option Header))
  | 0, parts, header, _ => .ok (parts, header)
  | fuel + 1, parts, header, ptr =>
    match strstr ptr boundary with
    | none => .ok (parts, header)
    | some b =>
      if connMaxHttpMultipart ≤ parts.length then .error .partIndex
      else
        let headers := headersParse ptr
        match strstr ptr blankLine with
        | none =>
          let part : Part :=
            { headers := some headers, postBody := none, postBodyLen := 0, charset := [] }
          .ok (parts ++ [part], header)
        | some k =>
          if b < k + 4 + 2 then .error .negativeLen
          else
            let postBodyLen := b - (k + 4) - 2
            let header := headersGetHeader headers (ascii "Content-Type")
            let charset := charsetOf header
            let part : Part :=
              { headers := keptBy charset headers
                postBody := some (strncpyZero (ptr.drop (k + 4)) postBodyLen)
                postBodyLen, charset }
            let next := ptr.drop (b + boundary.length)
            if startswith next (ascii "--" ++ crlf) || connMaxHttpMultipart ≤ parts.length then
              .ok (parts ++ [part], headerBy charset header)
            else if next.length < 2 then .error .outOfBounds
            else
              multipartLoop boundary fuel (parts ++ [part]) (headerBy charset header) (next.drop 2)

/-- `params_parse_multiparts`. A part without a body has `NULL` for its value, here nothing. -/
def paramsParseMultiparts : List Param → List Part → ℕ → Except BodyFault (List Param)
  | params, [], _ => .ok params
  | params, part :: parts, type =>
    match part.headers with
    | none => .error .headersGone
    | some headers =>
      match headersGetHeader headers (ascii "Content-Disposition") with
      | none => paramsParseMultiparts params parts type
      | some header =>
        if headersGetHeaderAttr header none ≠ some (ascii "form-data") then
          paramsParseMultiparts params parts type
        else
          match headersGetHeaderAttr header (some (ascii "name")) with
          | none => paramsParseMultiparts params parts type
          | some name =>
            if paramsNameMaxLen ≤ name.length then .error .outOfBounds
            else
              let param : Param :=
                { name, value := part.postBody.getD [], valueLen := part.postBodyLen, type
                  valAlloced := false }
              paramsParseMultiparts (params ++ [param]) parts type

/-- The `boundary` of a request whose parts are to be read: with `WS_OPTION_PARSE_MULTIPARTS`
set, of a `Content-Type` that starts with `multipart`. -/
def multipartBoundary (parseMultiparts : Bool) (header : Option Header) : Option (List UInt8) :=
  if parseMultiparts then
    header.bind fun h =>
      if startswith ((headersGetHeaderAttr h none).getD []) (ascii "multipart") then
        headersGetHeaderAttr h (some (ascii "boundary"))
      else none
  else none

/-- The parts of a request, and its parameters with theirs. -/
def requestParts (boundary : List UInt8) (header : Option Header) (params : List Param)
    (ptr : List UInt8) : Except BodyFault (List Part × List Param) :=
  if startswith ptr boundary then
    if ptr.length < boundary.length + 2 then .error .outOfBounds
    else do
      let ptr := ptr.drop (boundary.length + 2)
      let (parts, header) ← multipartLoop boundary (ptr.length + 1) [] (.ok header) ptr
      match ← header with
      | none => return (parts, params)
      | some h =>
        if headersGetHeaderAttr h none = some (ascii "multipart/form-data") then
          -- without a `NULL` at its end the loop leaves the array
          if connMaxHttpMultipart ≤ parts.length then .error .outOfBounds
          else return (parts, ← paramsParseMultiparts params parts 2)
        else return (parts, params)
  else .ok ([], params)

/-- `connection_create`, from the headers on. The request has `rawLen` bytes in memory and
announces `size`. -/
def connectionBody (parseMultiparts : Bool) (conn : Connection) (rawLen size : ℕ) :
    Except BodyFault ConnRequest :=
  let headers := headersParse conn.rest
  let header := headersGetHeader headers (ascii "Content-Type")
  match if conn.type = .post then strstr conn.rest blankLine else none with
  | none =>
    .ok { conn, headers := some headers, params := conn.params, postBody := none, postBodyLen := 0
          charset := [], parts := [] }
  | some k =>
    let ptr := conn.rest.drop (k + 4)
    let charset := charsetOf header
    let headers := keptBy charset headers
    match multipartBoundary parseMultiparts header with
    | some boundary => do
      let (parts, params) ← requestParts (ascii "--" ++ boundary) header conn.params ptr
      return { conn, headers, params, postBody := none, postBodyLen := 0, charset, parts }
    | none =>
      if size < rawLen - ptr.length then .error .negativeLen
      else do
        let postBodyLen := size - (rawLen - ptr.length)
        let postBody := strncpyZero ptr postBodyLen
        let params ← (
          if (header.bind fun h => headersGetHeaderAttr h none) =
              some (ascii "application/x-www-form-urlencoded") then
            (paramsParseQs conn.params (postBody ++ [0]) postBodyLen 2).mapError .qs
          else .ok conn.params)
        return {
          conn, headers, params, postBody := some postBody, postBodyLen, charset, parts := [] }

/-- Where `connection_create` stops, at its start or behind the request line. -/
inductive CreateFault
  | start (f : ConnFault)
  | body (f : BodyFault)
  deriving DecidableEq, Repr

/-- `connection_create`, as a whole. -/
def connectionCreateAll (website : Website) (parseMultiparts : Bool) (sockfd : ℕ)
    (raw : List UInt8) (size : ℕ) : Except CreateFault (Option ConnRequest) := do
  match ← (connectionCreate website sockfd raw).mapError .start with
  | none => return none
  | some conn =>
    return some (← (connectionBody parseMultiparts conn raw.length size).mapError .body)

end Zimr
