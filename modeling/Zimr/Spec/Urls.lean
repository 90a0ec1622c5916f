import Zimr.Spec.Page
import Zimr.Spec.Website

/-!
# A URL and a request head as they are written

`SiteUrl` is the URL that a webapp starts a website with, `HttpHead` the head of a request. What
`get_port_from_url` and `get_url_from_http_header` are for is said of these.
-/

namespace Zimr

/-- `scheme://host[:port][path]`. -/
structure SiteUrl where
  https : Bool
  host : List UInt8
  port : Option (List UInt8)
  path : List UInt8
  host_text : 0 ∉ host ∧ 58 ∉ host ∧ 47 ∉ host
  port_number : ∀ ds, port = some ds → Decimal ds ∧ ds.length ≤ 5
  path_text : 0 ∉ path ∧ (path = [] ∨ path.head? = some 47)

namespace SiteUrl

def scheme (u : SiteUrl) : List UInt8 := if u.https then ascii "https" else ascii "http"

/-- What follows the scheme and its colon. -/
def rest (u : SiteUrl) : List UInt8 :=
  [47, 47] ++ (u.host ++ ((u.port.map (58 :: ·)).getD [] ++ u.path))

def text (u : SiteUrl) : List UInt8 := u.scheme ++ 58 :: u.rest

/-- The port that is meant. -/
def number (u : SiteUrl) : ℤ :=
  match u.port with
  | some ds => numOf 10 ds
  | none => if u.https then 443 else 80

end SiteUrl

/-- A line `Name: value`. -/
structure FieldLine where
  name : List UInt8
  value : List UInt8
  name_text : 0 ∉ name ∧ 58 ∉ name ∧ ¬crlf <:+: name
  value_text : 0 ∉ value ∧ ¬crlf <:+: value

def FieldLine.text (l : FieldLine) : List UInt8 := l.name ++ ascii ": " ++ l.value ++ crlf

/-- A request line, lines of which one is named `Host`, and an empty line. -/
structure HttpHead where
  method : List UInt8
  target : List UInt8
  version : List UInt8
  before : List FieldLine
  host : FieldLine
  after : List FieldLine
  method_text : 0 ∉ method ∧ 32 ∉ method ∧ ¬crlf <:+: method
  target_text : 0 ∉ target ∧ 32 ∉ target ∧ ¬crlf <:+: target
  version_text : 0 ∉ version ∧ 32 ∉ version ∧ ¬crlf <:+: version
  host_name : host.name = ascii "Host"
  one_host : ∀ l ∈ before ++ after, l.name ≠ ascii "Host"

namespace HttpHead

/-- What stands before the line of the host. -/
def front (h : HttpHead) : List UInt8 :=
  h.method ++ [32] ++ h.target ++ [32] ++ h.version ++ crlf ++ (h.before.map FieldLine.text).flatten

def text (h : HttpHead) : List UInt8 :=
  h.front ++ h.host.text ++ (h.after.map FieldLine.text).flatten ++ crlf

/-- The first `Host: ` of the head is followed, up to the end of its line, by the host. -/
def HostFirst (h : HttpHead) : Prop :=
  ∃ p t, h.text = p ++ (ascii "Host: " ++ (h.host.value ++ (crlf ++ t))) ∧
    ∀ i < p.length, ¬ascii "Host: " <+: h.text.drop i

end HttpHead

end Zimr
