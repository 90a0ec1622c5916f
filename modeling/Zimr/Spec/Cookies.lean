import Zimr.Spec.Reply

/-!
# Cookies (`cookies.c`)

`cookies_t` is the list of the cookies in use, `num` of them; the table has room for
`HEADERS_MAX_NUM`. A cookie that is not in use is all zero.
-/

namespace Zimr

/-- `COOKIE_NAME_MAX_LEN`, `COOKIE_VALUE_MAX_LEN`, `COOKIE_DOMAIN_MAX_LEN`, `COOKIE_PATH_MAX_LEN`
and `COOKIE_EXPIRES_MAX_LEN`. -/
def cookieNameMaxLen : ℕ := 128
def cookieValueMaxLen : ℕ := 512
def cookieDomainMaxLen : ℕ := 128
def cookiePathMaxLen : ℕ := 256
def cookieExpiresMaxLen : ℕ := 30

/-- `cookie_t`. -/
structure Cookie where
  name : List UInt8
  value : List UInt8
  domain : List UInt8 := []
  path : List UInt8 := []
  expires : ℤ := 0
  maxAge : ℤ := 0
  httpOnly : Bool := false
  secure : Bool := false
  updated : Bool := false
  deriving DecidableEq, Repr

/-- `cookies_t`. -/
abbrev Cookies := List Cookie

/-- The loop of `cookies_parse`, when the table has room for so many more. -/
def cookiesParseLoop : ℕ → Cookies → List UInt8 → Cookies
  | 0, cookies, _ => cookies
  | left + 1, cookies, raw =>
    if raw.headD 0 = 0 then cookies
    else
      match strstr raw [61] with
      | none => cookies
      | some 0 => cookies
      | some (n + 1) =>
        let name := raw.take (min (n + 1) (cookieNameMaxLen - 1))
        let raw := raw.drop (n + 2)
        let ptr := (strstr raw [59, 32]).getD (cstr raw).length
        let value := raw.take (min ptr (cookieValueMaxLen - 1))
        let raw := raw.drop ptr
        let raw := if raw.headD 0 = 59 then raw.drop 2 else raw
        cookiesParseLoop left (cookies ++ [{ name, value }]) raw

/-- `cookies_parse`. -/
def cookiesParse (raw : List UInt8) : Cookies := cookiesParseLoop headersMaxNum [] raw

/-- The arguments of `cookies_set_cookie` behind `cookies`; `none` is `NULL`. -/
structure SetCookie where
  name : List UInt8
  value : Option (List UInt8)
  expires : ℤ
  maxAge : ℤ
  domain : Option (List UInt8)
  path : Option (List UInt8)
  httpOnly : Bool
  secure : Bool
  deriving DecidableEq, Repr

/-- `if ( value && strcmp( cookie->value, value ) != 0 )`, with `strncpy` and `updated`. -/
def Cookie.setValue (cookie : Cookie) : Option (List UInt8) → Cookie
  | none => cookie
  | some value =>
    if cookie.value = value then cookie
    else { cookie with value := value.take (cookieValueMaxLen - 1), updated := true }

/-- `if ( max_age && cookie->max_age != max_age )`. -/
def Cookie.setMaxAge (cookie : Cookie) (maxAge : ℤ) : Cookie :=
  if maxAge ≠ 0 ∧ cookie.maxAge ≠ maxAge then { cookie with maxAge, updated := true } else cookie

/-- `if ( domain && strcmp( cookie->domain, domain ) != 0 )`. -/
def Cookie.setDomain (cookie : Cookie) : Option (List UInt8) → Cookie
  | none => cookie
  | some domain =>
    if cookie.domain = domain then cookie
    else { cookie with domain := domain.take (cookieDomainMaxLen - 1), updated := true }

/-- `if ( path && strcmp( cookie->path, path ) != 0 )`. -/
def Cookie.setPath (cookie : Cookie) : Option (List UInt8) → Cookie
  | none => cookie
  | some path =>
    if cookie.path = path then cookie
    else { cookie with path := path.take (cookiePathMaxLen - 1), updated := true }

/-- `if ( http_only && cookie->http_only != http_only )`. -/
def Cookie.setHttpOnly (cookie : Cookie) (httpOnly : Bool) : Cookie :=
  if httpOnly && cookie.httpOnly ≠ httpOnly then { cookie with httpOnly, updated := true }
  else cookie

/-- `if ( secure && cookie->secure != secure )`. -/
def Cookie.setSecure (cookie : Cookie) (secure : Bool) : Cookie :=
  if secure && cookie.secure ≠ secure then { cookie with secure, updated := true } else cookie

/-- The last condition of `cookies_set_cookie`. -/
def Cookie.setExpires (cookie : Cookie) (now expires : ℤ) : Cookie :=
  if (expires ≠ 0 ∧ cookie.expires ≠ expires) ∨
      (cookie.updated ∧ cookie.expires ≠ 0 ∧ cookie.expires < now) then
    { cookie with expires, updated := true }
  else cookie

/-- What `cookies_set_cookie` does to the cookie at the time `now`. -/
def Cookie.set (now : ℤ) (args : SetCookie) (cookie : Cookie) : Cookie :=
  let cookie := cookie.setValue args.value
  let cookie := cookie.setMaxAge args.maxAge
  let cookie := cookie.setDomain args.domain
  let cookie := cookie.setPath args.path
  let cookie := cookie.setHttpOnly args.httpOnly
  let cookie := cookie.setSecure args.secure
  cookie.setExpires now args.expires

/-- The first cookie with this name is changed. -/
def setFirst (f : Cookie → Cookie) (name : List UInt8) : Cookies → Cookies
  | [] => []
  | c :: cs => if c.name = name then f c :: cs else c :: setFirst f name cs

/-- `_cookies_get_cookie`. -/
def findCookie (cookies : Cookies) (name : List UInt8) : Option Cookie :=
  cookies.find? fun c => c.name = name

/-- A cookie that `cookies_set_cookie` begins with. -/
def newCookie (name : List UInt8) : Cookie where
  name := name.take (cookieNameMaxLen - 1)
  value := []
  updated := true

/-- `cookies_set_cookie`. -/
def cookiesSetCookie (now : ℤ) (cookies : Cookies) (args : SetCookie) : Except BufFault Cookies :=
  match findCookie cookies args.name with
  | some _ => .ok (setFirst (Cookie.set now args) args.name cookies)
  | none =>
    if headersMaxNum ≤ cookies.length then .error .outOfBounds
    else .ok (cookies ++ [(newCookie args.name).set now args])

/-- `cookies_get_cookie`. -/
def cookiesGetCookie (now : ℤ) (cookies : Cookies) (name : List UInt8) : Option Cookie :=
  (findCookie cookies name).filter fun c => c.expires = 0 ∨ now < c.expires

/-- What `cookies_del_cookie` passes to `cookies_set_cookie`. -/
def delArgs (now : ℤ) (name : List UInt8) : SetCookie where
  name
  value := none
  expires := now - 31536001
  maxAge := 0
  domain := none
  path := none
  httpOnly := false
  secure := false

/-- `cookies_del_cookie`. -/
def cookiesDelCookie (now : ℤ) (cookies : Cookies) (name : List UInt8) :
    Except BufFault Cookies :=
  cookiesSetCookie now cookies (delArgs now name)

/-- A call that changes the cookies of a connection, and the time of it. -/
inductive CookieCall
  | set (now : ℤ) (args : SetCookie)
  | del (now : ℤ) (name : List UInt8)
  deriving DecidableEq, Repr

def cookieStep (cookies : Cookies) : CookieCall → Except BufFault Cookies
  | .set now args => cookiesSetCookie now cookies args
  | .del now name => cookiesDelCookie now cookies name

/-- The name that a call is for. -/
def CookieCall.name : CookieCall → List UInt8
  | .set _ args => args.name
  | .del _ name => name

/-! ## The text for `Set-Cookie` -/

/-- What the text gets from elsewhere: what `strftime` makes of an expiry, and the number that
`sprintf( max_age, "%d", max_age )` prints. `max_age` is the array of that block there and not the
field of the cookie, so the number is its address, as an `int`. -/
structure CookieEnv where
  expires : ℤ → List UInt8
  maxAge : ℤ
  expires_char : ∀ t, ∀ c ∈ expires t, c ≠ 0 ∧ c ≠ 59
  expires_short : ∀ t, (expires t).length < cookieExpiresMaxLen

/-- What is appended for a cookie, piece by piece. -/
def cookiePieces (env : CookieEnv) (cookie : Cookie) : List (List UInt8) :=
  if cookie.updated then
    [cookie.name, ascii "=", cookie.value]
      ++ (if cookie.expires ≠ 0 then [ascii "; Expires=", env.expires cookie.expires] else [])
      ++ (if cookie.maxAge ≠ 0 then [ascii "; Max-Age=", intText env.maxAge] else [])
      ++ (if cookie.path ≠ [] then [ascii "; Path=", cookie.path] else [])
      ++ (if cookie.domain ≠ [] then [ascii "; Domain=", cookie.domain] else [])
      ++ (if cookie.secure then [ascii "; Secure"] else [])
      ++ (if cookie.httpOnly then [ascii "; HttpOnly"] else [])
  else []

/-- `strncat( text, piece, size ); size -= strlen( piece ); if ( size < 0 ) break;` for one piece
after the other. -/
def strncats : ℕ → List (List UInt8) → List UInt8
  | _, [] => []
  | size, piece :: pieces =>
    if size < piece.length then piece.take size
    else piece ++ strncats (size - piece.length) pieces

/-- `cookies_to_string`. -/
def cookiesToString (env : CookieEnv) (cookies : Cookies) (size : ℕ) : List UInt8 :=
  strncats size (cookies.flatMap (cookiePieces env))

/-! ## A client -/

/-- What a client keeps of a `Set-Cookie`; `maxAge` in digits. -/
structure StoredCookie where
  name : List UInt8
  value : List UInt8
  maxAge : Option (List UInt8)
  deriving DecidableEq, Repr

/-- A text cut at each `;`; `part` is what has been read of the part so far. -/
def splitSemicolons : List UInt8 → List UInt8 → List (List UInt8)
  | part, [] => [part]
  | part, c :: s => if c = 59 then part :: splitSemicolons [] s else splitSemicolons (part ++ [c]) s

/-- A `Max-Age`, in letters of any case. -/
def isMaxAge (attr : List UInt8) : Bool :=
  startswith (strtolower (attr.dropWhile (· = 32))) (ascii "max-age=")

/-- The first `Max-Age` of a list of attributes. -/
def maxAgeOf (attrs : List (List UInt8)) : Option (List UInt8) :=
  (attrs.find? isMaxAge).map fun attr => (attr.dropWhile (· = 32)).drop 8

/-- The name is what is before the first `=`, the value goes on to the first `;`, and then come the
attributes. -/
def clientStore (text : List UInt8) : StoredCookie where
  name := text.takeWhile (· ≠ 61)
  value := ((text.dropWhile (· ≠ 61)).drop 1).takeWhile (· ≠ 59)
  maxAge :=
    maxAgeOf (splitSemicolons [] ((((text.dropWhile (· ≠ 61)).drop 1).dropWhile (· ≠ 59)).drop 1))

/-- What it should keep of a cookie. -/
def Cookie.stored (cookie : Cookie) : StoredCookie where
  name := cookie.name
  value := cookie.value
  maxAge := if cookie.maxAge = 0 then none else some (intText cookie.maxAge)

end Zimr
