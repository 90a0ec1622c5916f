import Mathlib.Data.List.Infix
import Zimr.Spec.Body

/-!
# What a client sends with a body

The texts of a POST request: its header lines, and a body that is one text or a sequence of parts.
The types leave out nothing but what would change where a line or a part ends.
-/

namespace Zimr

/-! ## Header blocks -/

/-- A line of a header block, without its end. -/
structure HeadLine (line : List UInt8) : Prop where
  ne : line ≠ []
  nul : 0 ∉ line
  crlf : ¬crlf <:+: line

instance (line : List UInt8) : Decidable (HeadLine line) :=
  decidable_of_iff (line ≠ [] ∧ 0 ∉ line ∧ ¬Zimr.crlf <:+: line)
    ⟨fun h => ⟨h.1, h.2.1, h.2.2⟩, fun h => ⟨h.ne, h.nul, h.crlf⟩⟩

/-- Lines, each with its end. -/
def linesText (lines : List (List UInt8)) : List UInt8 := (lines.map (· ++ crlf)).flatten

/-- A header as it is written. -/
structure HeaderLine where
  name : List UInt8
  spaces : ℕ
  value : List UInt8
  name_ne : name ≠ []
  name_char : ∀ c ∈ name, c ≠ 0 ∧ c ≠ 10 ∧ c ≠ 13 ∧ c ≠ 58
  value_char : ∀ c ∈ value, c ≠ 0 ∧ c ≠ 13
  value_head : value.head? ≠ some 32

/-- The line: `name: value`. -/
def HeaderLine.text (l : HeaderLine) : List UInt8 :=
  l.name ++ 58 :: (List.replicate l.spaces 32 ++ l.value)

/-- What the table holds of it. -/
def HeaderLine.header (l : HeaderLine) : Header :=
  { name := headerFormatname (strtolower (l.name.take (headerNameMaxLen - 1)))
    value := l.value.take (headerValueMaxLen - 1) }

/-- What `zimr_connection_handler` has put together for a POST request: the address of the client
and its host name, the request line (here what follows `POST `), the lines of the headers, and
the body. -/
structure PostRequest where
  ip : List UInt8
  hostname : List UInt8
  line : List UInt8
  lines : List (List UInt8)
  body : List UInt8
  ip_length : ip.length = 4
  hostname_nul : 0 ∉ hostname
  line_nul : 0 ∉ line
  line_crlf : ¬crlf <:+: line
  lines_ok : ∀ l ∈ lines, HeadLine l

/-- The text where the headers start. -/
def PostRequest.rest (req : PostRequest) : List UInt8 := linesText req.lines ++ (crlf ++ req.body)

/-- The message. -/
def PostRequest.raw (req : PostRequest) : List UInt8 :=
  req.ip ++ (req.hostname ++ 0 :: (ascii "POST " ++ (req.line ++ (crlf ++ req.rest))))

/-- The `Content-Type` that `connection_create` finds. -/
def PostRequest.contentType (req : PostRequest) : Option Header :=
  headersGetHeader (headersParse req.rest) (ascii "Content-Type")

/-! ## Multipart bodies -/

/-- What stands between the parts. -/
def delimiter (boundary : List UInt8) : List UInt8 := ascii "--" ++ boundary

/-- `multipart/...; boundary=...`, with the `kind` between the two names. -/
def multipartType (kind boundary : List UInt8) : List UInt8 :=
  ascii "multipart/" ++ kind ++ (ascii "boundary" ++ 61 :: boundary)

/-- Nothing in `kind` is taken for the boundary, which is written without quotes. -/
structure Multipart (kind boundary : List UInt8) : Prop where
  kind_nul : 0 ∉ kind
  kind_free : ¬ascii "boundary=" <:+: ascii "multipart/" ++ kind
  boundary_char : ∀ c ∈ boundary, 32 < c ∧ c ≠ 34 ∧ c ≠ 59

/-- A part: the lines of its headers, and its body. -/
structure MimePart (boundary : List UInt8) where
  lines : List (List UInt8)
  body : List UInt8
  lines_ne : lines ≠ []
  lines_ok : ∀ l ∈ lines, HeadLine l
  lines_free : ∀ l ∈ lines, ¬delimiter boundary <:+: l
  body_nul : 0 ∉ body
  body_free : ¬delimiter boundary <:+: body

section Parts

variable {boundary : List UInt8}

/-- The text of a part. -/
def MimePart.text (p : MimePart boundary) : List UInt8 := linesText p.lines ++ (crlf ++ p.body)

/-- What follows a delimiter. -/
def partsText : List (MimePart boundary) → List UInt8
  | [] => ascii "--" ++ crlf
  | p :: ps => crlf ++ (p.text ++ (crlf ++ (delimiter boundary ++ partsText ps)))

/-- The body that the parts make. -/
def multipartBody (parts : List (MimePart boundary)) : List UInt8 :=
  delimiter boundary ++ partsText parts

/-- The entry of `request.parts` that a part is to have, with others behind it. -/
def MimePart.stored (p : MimePart boundary) (ps : List (MimePart boundary)) : Part :=
  let headers := headersParse (p.text ++ (crlf ++ (delimiter boundary ++ partsText ps)))
  { headers := some headers, postBody := some p.body, postBodyLen := p.body.length
    charset := charsetOf (headersGetHeader headers (ascii "Content-Type")) }

/-- The entries for all of them. -/
def storedParts : List (MimePart boundary) → List Part
  | [] => []
  | p :: ps => p.stored ps :: storedParts ps

/-- What is left of them: a charset that is too long runs over the headers. -/
def Part.kept (p : Part) : Part := { p with headers := p.headers.bind (keptBy p.charset) }

/-- A part of a form. The first `Content-Disposition` of its headers is
`form-data; name="..."`, and more may follow the name. -/
structure FormPart (boundary : List UInt8) extends MimePart boundary where
  before : List HeaderLine
  disposition : HeaderLine
  after : List HeaderLine
  name : List UInt8
  more : List UInt8
  lines_eq : lines = (before ++ disposition :: after).map HeaderLine.text
  before_other : ∀ l ∈ before, l.header.name ≠ ascii "Content-Disposition"
  disposition_name : disposition.header.name = ascii "Content-Disposition"
  disposition_value : disposition.value = ascii "form-data; name=\"" ++ (name ++ 34 :: more)
  name_quote : 34 ∉ name
  name_short : name.length < paramsNameMaxLen

/-- The parameter that it is to become. -/
def FormPart.param (p : FormPart boundary) : Param :=
  { name := p.name, value := p.body, valueLen := p.body.length, type := 2, valAlloced := false }

end Parts

/-- The `Content-Type` of a part. -/
def Part.contentType (p : Part) : Option Header :=
  p.headers.bind (headersGetHeader · (ascii "Content-Type"))

/-- What `connection_create` compares before it looks for parameters in the parts. -/
def isForm (header : Option Header) : Prop :=
  header.bind (headersGetHeaderAttr · none) = some (ascii "multipart/form-data")

instance (header : Option Header) : Decidable (isForm header) := inferInstanceAs (Decidable (_ = _))

/-- The name that `params_parse_multiparts` finds in a part. -/
def Part.formName (p : Part) : Option (List UInt8) := do
  let header ← headersGetHeader (← p.headers) (ascii "Content-Disposition")
  if headersGetHeaderAttr header none = some (ascii "form-data") then
    headersGetHeaderAttr header (some (ascii "name"))
  else none

/-- The parameter that it makes of the part. -/
def Part.formParam (type : ℕ) (p : Part) : Option Param :=
  p.formName.map fun name =>
    { name, value := p.postBody.getD [], valueLen := p.postBodyLen, type, valAlloced := false }

/-- The headers are there, and the name has room in `param->name`. -/
structure Part.Readable (p : Part) : Prop where
  headers : p.headers ≠ none
  name : ∀ name, p.formName = some name → name.length < paramsNameMaxLen

/-! ## Bodies as they come -/

/-- The loop over the parts has ended, its indexes were below `CONN_MAX_HTTP_MULTIPART`, no length
below zero was computed, and a `NULL` is left behind the last part. -/
def Within (x : Except BodyFault (List Part × Except BodyFault (Option Header))) : Prop :=
  ∃ parts last, x = .ok (parts, last) ∧ parts.length < connMaxHttpMultipart

/-- The text from the first part on, cut at each delimiter: up to the one that is followed by
`--`, or to the first part without a blank line in it or behind it. -/
def sections (boundary : List UInt8) : ℕ → List UInt8 → List (List UInt8)
  | 0, _ => []
  | fuel + 1, ptr =>
    match strstr ptr boundary with
    | none => []
    | some b =>
      let next := ptr.drop (b + boundary.length)
      if strstr ptr blankLine = none ∨ startswith next (ascii "--" ++ crlf) = true then [ptr]
      else ptr :: sections boundary fuel (next.drop 2)

/-- The first blank line ends two bytes or more before the delimiter, and two bytes follow the
delimiter. -/
structure InOrder (boundary ptr : List UInt8) : Prop where
  blank : ∀ k b, strstr ptr blankLine = some k → strstr ptr boundary = some b → k + 6 ≤ b
  next : ∀ k b, strstr ptr blankLine = some k → strstr ptr boundary = some b →
    b + boundary.length + 2 ≤ ptr.length

/-- The text behind the first delimiter. -/
def behindDelimiter (boundary body : List UInt8) : List UInt8 := body.drop (boundary.length + 2)

/-- Where `request.parts` is filled: the delimiter and two bytes are skipped in the body, and the
loop ends within. -/
def ReadWithin (boundary body : List UInt8) (header : Option Header) : Prop :=
  startswith body boundary = true → boundary.length + 2 ≤ body.length ∧
    Within (multipartLoop boundary ((behindDelimiter boundary body).length + 1) [] (.ok header)
      (behindDelimiter boundary body))

/-- The sections of the body. -/
def bodySections (boundary body : List UInt8) : List (List UInt8) :=
  sections boundary ((behindDelimiter boundary body).length + 1) (behindDelimiter boundary body)

/-- The sections have their places in `request.parts`, and are in order. -/
def WellCut (boundary body : List UInt8) : Prop :=
  startswith body boundary = true → boundary.length + 2 ≤ body.length ∧
    (bodySections boundary body).length < connMaxHttpMultipart ∧
    ∀ s ∈ bodySections boundary body, InOrder boundary s

end Zimr
