import Zimr.Spec.Params
import Zimr.Spec.Path

/-!
# Requests in the webapp (`connection_create` of `connection.c`)

`raw` is what `zimr_connection_handler` has put together: the address of the client, its host
name with a NUL, and the request. `connectionCreate` goes as far as the version, the last thing
for which a request is refused; the headers, the cookies and the body are behind it.
-/

namespace Zimr

/-- `PATH_MAX`. -/
def pathMax : ℕ := 4096

/-- `connection_t` with its `request`. `url` is where it points to in `full_url`, and `rest` is
where the headers start. -/
structure Connection where
  website : Website
  sockfd : ℕ
  ip : List UInt8
  hostname : List UInt8
  type : ReqType
  fullUrl : List UInt8
  url : ℕ
  params : List Param
  httpVersion : List UInt8
  rest : List UInt8

/-- The string at `request.url`. -/
def Connection.urlText (c : Connection) : List UInt8 := cstr (c.fullUrl.drop c.url)

/-- Where `connection_create` stops: outside of a buffer, or in `params_parse_qs`. -/
inductive ConnFault
  | outOfBounds
  | qs (f : QsFault)
  deriving DecidableEq, Repr

/-- The loop that takes `../` off the front of `full_url`. -/
def stripDotdot : ℕ → List UInt8 → List UInt8
  | 0, fullUrl => fullUrl
  | fuel + 1, fullUrl =>
    if startswith fullUrl (ascii "../") then
      stripDotdot fuel (store fullUrl 0 ((cstr fullUrl).drop 3 ++ [0]))
    else fullUrl

/-- How much of `full_url` is skipped: if the website is "example.com/test/" and the url is
"/test/hi", "/test" gets removed. -/
def Website.leading (w : Website) : ℕ :=
  match strchr w.url 47 with
  | some i => (cstr w.url).length - i
  | none => 0

/-- The url of a request: `full_url`, and where `url` points to. -/
def connectionUrl (website : Website) (raw : List UInt8) (len : ℕ) :
    Except ConnFault (List UInt8 × ℕ) :=
  let urlbuf := urlDecode raw len
  if pathMax ≤ urlbuf.length then .error .outOfBounds
  else
    match normalizePath (List.replicate pathMax 0) urlbuf with
    | none => .error .outOfBounds
    | some fullUrl =>
      let fullUrl := stripDotdot pathMax fullUrl
      let url := website.leading
      if pathMax ≤ url then .error .outOfBounds
      else .ok (fullUrl, if fullUrl.getD url 0 = 47 then url + 1 else url)

/-- The type of a request, and the request behind the space. -/
def requestText (raw : List UInt8) : Except ConnFault (Option (ReqType × List UInt8)) :=
  -- the address, and the host name up to its NUL
  let text := raw.drop 4
  if raw.length < 4 ∨ text.length ≤ (cstr text).length then .error .outOfBounds
  else
    let text := text.drop ((cstr text).length + 1)
    let found :=
      if startswith text (ascii "GET") then some (ReqType.get, text.drop 3)
      else if startswith text (ascii "POST") then some (.post, text.drop 4)
      else none
    match found with
    | none => .ok none
    | some (type, text) => if text = [] then .error .outOfBounds else .ok (some (type, text.drop 1))

/-- The end of the request line, and that of the target. -/
def targetEnd (text : List UInt8) : Option (ℕ × ℕ) := do
  let tmp ← strstr text (ascii "\r\n")
  let ptr ← (strnstr text (ascii "?") tmp).or (strnstr text (ascii " ") tmp)
  return (tmp, ptr)

/-- The parameters in the query string, and what follows it. -/
def requestQs (text : List UInt8) (tmp ptr : ℕ) :
    Except ConnFault (Option (List Param × List UInt8)) :=
  if text.getD ptr 0 = 63 then
    let qs := text.drop (ptr + 1)
    match strnstr qs (ascii " ") (tmp - (ptr + 1)) with
    | none => .ok none
    | some len =>
      match paramsParseQs [] qs len 1 with
      | .error f => .error (.qs f)
      | .ok params => .ok (some (params, qs.drop (len + 1)))
  else .ok (some ([], text.drop (ptr + 1)))

/-- The version, and where the headers start. -/
def requestVersion (text : List UInt8) : Option (List UInt8 × List UInt8) :=
  if startswith text (ascii "HTTP/") then
    (strstr (text.drop 5) (ascii "\r\n")).map fun n =>
      ((text.drop 5).take (min n 3), (text.drop 5).drop (n + 2))
  else none

/-- `connection_create`, up to the headers. -/
def connectionCreate (website : Website) (sockfd : ℕ) (raw : List UInt8) :
    Except ConnFault (Option Connection) := do
  match ← requestText raw with
  | none => return none
  | some (type, text) =>
    match targetEnd text with
    | none => return none
    | some (tmp, ptr) =>
      let (fullUrl, url) ← connectionUrl website text ptr
      match ← requestQs text tmp ptr with
      | none => return none
      | some (params, text) =>
        match requestVersion text with
        | none => return none
        | some (httpVersion, rest) =>
          return some {
            website, sockfd, ip := raw.take 4, hostname := (cstr (raw.drop 4)).take 128, type
            fullUrl, url, params, httpVersion, rest }

/-! ## What the url is for -/

/-- The raw target of a request. -/
def rawTarget (raw : List UInt8) : Option (List UInt8) := do
  let (_, text) ← (← (requestText raw).toOption)
  let (_, ptr) ← targetEnd text
  return (cstr text).take ptr

/-- What names a path inside of the directory it is put behind. -/
structure Inside (url : List UInt8) : Prop where
  dotdot : ∀ seg ∈ segments url, segName seg ≠ [46, 46]
  relative : url.head? ≠ some 47

/-- The text behind the path of the website does not begin with a segment `..`. -/
def Website.Clear (w : Website) (target : List UInt8) : Prop :=
  segName (leftBehind (cstr w.path).length [] []
    (segments (cstr (urlDecode target target.length)))) ≠ [46, 46]

instance (w : Website) (target : List UInt8) : Decidable (w.Clear target) :=
  inferInstanceAs (Decidable (_ ≠ _))

end Zimr
