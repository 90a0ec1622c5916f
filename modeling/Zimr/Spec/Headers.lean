import Zimr.Spec.Cstr

/-!
# Headers (`headers.c`)

`headers_t` is the list of the headers in use, `num` of them; the table has room for
`HEADERS_MAX_NUM`.
-/

namespace Zimr

/-- `HEADERS_MAX_NUM`, `HEADER_NAME_MAX_LEN` and `HEADER_VALUE_MAX_LEN`. -/
def headersMaxNum : ℕ := 32
def headerNameMaxLen : ℕ := 128
def headerValueMaxLen : ℕ := 2048

/-- `HTTP_HDR_ENDL`. -/
def crlf : List UInt8 := [13, 10]

/-- `header_t`. -/
structure Header where
  name : List UInt8
  value : List UInt8
  deriving DecidableEq, Repr

/-- `headers_t`. -/
abbrev Headers := List Header

/-- Where a function that writes into a buffer or follows a pointer stops. -/
inductive BufFault
  | outOfBounds | nullDeref
  deriving DecidableEq, Repr

/-- `tolower`. -/
def tolower (c : UInt8) : UInt8 := if 65 ≤ c && c ≤ 90 then c + 32 else c

/-- `toupper`. -/
def toupper (c : UInt8) : UInt8 := if 97 ≤ c && c ≤ 122 then c - 32 else c

/-- `strtolower`. -/
def strtolower (s : List UInt8) : List UInt8 := s.map tolower

/-- The loop of `header_formatname`: `up` at the start and after a `-`. -/
def formatnameLoop : Bool → List UInt8 → List UInt8
  | _, [] => []
  | up, c :: s => (if up then toupper c else c) :: formatnameLoop (c = 45) s

/-- `header_formatname`. -/
def headerFormatname (name : List UInt8) : List UInt8 := formatnameLoop true name

/-- The loop of `headers_parse`, when the table has room for so many more. -/
def headersParseLoop : ℕ → Headers → List UInt8 → Headers
  | 0, headers, _ => headers
  | left + 1, headers, raw =>
    if startswith raw crlf || raw.headD 0 = 10 || raw.headD 0 = 0 then headers
    else
      match strstr raw [58] with
      | none => headers
      | some 0 => headers
      | some (n + 1) =>
        let name := headerFormatname (strtolower (raw.take (min (n + 1) (headerNameMaxLen - 1))))
        let raw := (raw.drop (n + 2)).dropWhile (· = 32)
        match strstr raw crlf with
        | none => headers
        | some m =>
          let value := raw.take (min m (headerValueMaxLen - 1))
          headersParseLoop left (headers ++ [⟨name, value⟩]) (raw.drop (m + 2))

/-- `headers_parse`. -/
def headersParse (raw : List UInt8) : Headers := headersParseLoop headersMaxNum [] raw

/-- `headers_to_string`. -/
def headersToString (headers : Headers) : List UInt8 :=
  (headers.map fun h => h.name ++ ascii ": " ++ h.value ++ crlf).flatten ++ crlf

/-- `headers_get_header`. -/
def headersGetHeader (headers : Headers) (name : List UInt8) : Option Header :=
  headers.find? fun h => h.name = headerFormatname (strtolower name)

/-- `strcpy( header->value, value )` for the first header with this name. -/
def setValue (name value : List UInt8) : Headers → Headers
  | [] => []
  | h :: hs => if h.name = name then { h with value := value } :: hs else h :: setValue name value hs

/-- `headers_set_header`. -/
def headersSetHeader (headers : Headers) (name value : List UInt8) : Except BufFault Headers :=
  let name := headerFormatname (strtolower name)
  if headerValueMaxLen ≤ value.length then .error .outOfBounds
  else if (headers.any fun h => h.name = name) && name ≠ ascii "Set-Cookie" then
    .ok (setValue name value headers)
  else if headersMaxNum ≤ headers.length ∨ headerNameMaxLen ≤ name.length then
    .error .outOfBounds
  else .ok (headers ++ [⟨name, value⟩])

/-- The loop of `headers_get_header_attr` that looks for `name=`: what follows it. -/
def attrHead (name : List UInt8) : ℕ → List UInt8 → Option (List UInt8)
  | 0, _ => none
  | fuel + 1, head =>
    match strstr head name with
    | none => none
    | some i =>
      let head := head.drop (i + name.length)
      if head.headD 0 = 61 then some (head.drop 1) else attrHead name fuel head

/-- Up to the `;`, or to the end. -/
def attrText (head : List UInt8) : List UInt8 := head.take ((strchr head 59).getD head.length)

/-- `headers_get_header_attr`. What it returns is the address of a local array; here it is the
text in it. `name` is not empty. -/
def headersGetHeaderAttr (header : Header) : Option (List UInt8) → Option (List UInt8)
  | none => some (attrText header.value)
  | some name =>
    (attrHead name (header.value.length + 1) header.value).map fun head =>
      if head.headD 0 = 34 then
        match strchr (head.drop 1) 34 with
        | some n => (head.drop 1).take n
        | none => attrText head
      else attrText head

/-! ## Ranges -/

/-- A `long` in an `int`. -/
def intOf (n : ℤ) : ℤ := (n + 2147483648) % 4294967296 - 2147483648

/-- `LONG_MAX`. -/
def longMax : ℤ := 9223372036854775807

/-- `strtol( s, &end, 10 )`: the number, and where it ends. Without digits that is where `s`
starts. -/
def strtol (s : List UInt8) : ℤ × List UInt8 :=
  let t := s.dropWhile isspace
  let neg := startswith t (ascii "-")
  let t := if neg || startswith t (ascii "+") then t.drop 1 else t
  if digits 10 t = [] then (0, s)
  else
    let v : ℤ := numOf 10 (digits 10 t)
    (if neg then max (-v) (-longMax - 1) else min v longMax, t.drop (digits 10 t).length)

/-- `headers_header_range_parse`: `*range_start` and `*range_end`. `atoi` is `strtol` in an
`int`. Behind the end of the text the array of `headers_get_header_attr` is zero. -/
def headersHeaderRangeParse (header : Header) : ℤ × ℤ :=
  match headersGetHeaderAttr header (some (ascii "bytes")) with
  | none => (0, -1)
  | some bytes =>
    match strchr bytes 45 with
    | none => (0, -1)
    | some n =>
      let (start, sep) := if n ≠ 0 then strtol bytes else (0, bytes)
      let sep := sep.drop 1
      (intOf start, if sep.headD 0 ≠ 0 then intOf (strtol sep).1 else -1)

end Zimr
