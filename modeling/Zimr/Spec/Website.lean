import Zimr.Spec.Cstr
import Zimr.Spec.Zsocket

/-!
# Websites (`website.c`, and what `zimrd` reads from a URL or a request header)

The daemon keeps `website_data_t` in `udata`; `exlisnfd`, the only field of it in use, is a
field here. `options` is of the webapp library.
-/

namespace Zimr

/-- Where the daemon stops: in a layer below, at `connections[ fd ]` when that is `NULL`
or outside the table, in its own code, or before the loop of `main`. -/
inductive DFault
  | zs (f : ZsFault)
  | msg (f : Fault)
  | nullConn | connIndex
  | assertion | nullDeref | outOfBounds
  | quit
  deriving DecidableEq, Repr

/-- `HTTP_GET_TYPE`, `HTTP_POST_TYPE`. -/
inductive ReqType
  | get | post
  deriving DecidableEq, Repr

/-- `website_t`. -/
structure Website where
  fullUrl : List UInt8
  sockfd : ℕ
  ip : List UInt8
  exlisnfd : ℕ
  deriving DecidableEq, Repr

/-- `w->url`. -/
def Website.url (w : Website) : List UInt8 :=
  if startswith w.fullUrl (ascii "https://") then w.fullUrl.drop 8 else w.fullUrl.drop 7

/-- Where the path starts in a URL without its protocol. -/
def pathStart (url : List UInt8) : ℕ := (strchr url 47).getD url.length

/-- `w->path`. -/
def Website.path (w : Website) : List UInt8 := w.url.drop (pathStart w.url)

/-- The host name is `*`. -/
def Website.wildcard (w : Website) : Bool := w.url.head? = some 42

/-- `website_add`, with the `udata` that the daemon gives it. `ip` is copied into 16 bytes. -/
def websiteAdd (sockfd : ℕ) (url ip : List UInt8) (exlisnfd : ℕ) : Except DFault Website :=
  if 16 ≤ ip.length then throw .outOfBounds
  else return {
    fullUrl :=
      if startswith url (ascii "https://") || startswith url (ascii "http://") then url
      else ascii "http://" ++ url
    sockfd, ip, exlisnfd }

/-- `website_get_by_full_url`. -/
def websiteGetByFullUrl (websites : List Website) (fullUrl ip : List UInt8) : Option Website :=
  websites.find? fun w => w.fullUrl = fullUrl && w.ip = ip

/-- `website_get_by_sockfd`. -/
def websiteGetBySockfd (websites : List Website) (sockfd : ℕ) : Option Website :=
  websites.find? fun w => w.sockfd = sockfd

/-- The test in `website_find`, without the length. -/
def Website.serves (w : Website) (url protocol ip : List UInt8) : Bool :=
  let wUrl := if w.wildcard then w.url.drop 1 else w.url
  let wPath := if w.wildcard then pathStart w.url - 1 else pathStart w.url
  let host := if w.wildcard then (strchr url 58).getD (pathStart url) else 0
  -- a negative length is never the larger one
  let hostPortLen := max wPath (pathStart url - host)
  wUrl.take hostPortLen = (url.drop host).take hostPortLen
    && startswith (url.drop (pathStart url)) w.path
    && startswith w.fullUrl protocol && w.ip = ip

/-- One round of `website_find`: `len` and `found`. -/
def websiteFindStep (url protocol ip : List UInt8) (best : ℕ × Option Website) (w : Website) :
    ℕ × Option Website :=
  if w.serves url protocol ip && decide (best.1 ≤ w.path.length) then
    (w.path.length + (if w.wildcard then 0 else 1), some w)
  else best

/-- `website_find`. -/
def websiteFind (websites : List Website) (url protocol ip : List UInt8) : Option Website :=
  (websites.foldl (websiteFindStep url protocol ip) (0, none)).2

/-- `get_port_from_url`, for a URL at the start of a buffer. `port_str` has six bytes, and
`atoi` needs the NUL; a `/` before the second colon makes the length negative. -/
def getPortFromUrl (buf : List UInt8) : Except DFault ℤ :=
  let url := cstr buf
  match strstr url (ascii ":") with
  | none => throw .nullDeref
  | some colon =>
    let ptr1 := buf.drop (colon + 1)
    match strstr (cstr ptr1) (ascii ":") with
    | none => return if startswith url (ascii "https://") then 443 else 80
    | some i =>
      let ptr2 := i + 1
      let ptr3 := ((strstr (cstr (ptr1.drop 2)) (ascii "/")).map (· + 2)).getD (cstr ptr1).length
      let port := (cstr (ptr1.drop ptr2)).take (ptr3 - ptr2)
      if ptr3 < ptr2 || 6 < ptr3 - ptr2 || 6 ≤ port.length then throw .outOfBounds
      else return atoi port

/-- `get_url_from_http_header`: the host, then what stands between the first two spaces.
`none` is the `NULL` it returns. With no second space `strncat` gets a negative length and
copies to the end of the string. -/
def getUrlFromHttpHeader (raw : List UInt8) (size : ℕ) : Except DFault (Option (List UInt8)) :=
  match strnstr raw (ascii "Host: ") size with
  | none => return none
  | some i =>
    let host := i + 6
    if size < host + 1 then throw .outOfBounds
    else
      match strnstr (raw.drop host) (ascii "\r\n") (size - host - 1) with
      | none => return none
      | some n =>
        let url := (raw.drop host).take n
        match strnstr raw (ascii " ") (size - 1) with
        | none => throw .nullDeref
        | some sp =>
          let target := raw.drop (sp + 1)
          let len := (strnstr target (ascii " ") (size - (sp + 1) - 1)).getD (cstr target).length
          let url := url ++ target.take len
          if size ≤ url.length then throw .outOfBounds else return some url

end Zimr
