import Zimr.Spec.Urldecoder

/-!
# Query strings (`params.c`)
-/

namespace Zimr

/-- `PARAMS_NAME_MAX_LEN`. -/
def paramsNameMaxLen : ℕ := 128

/-- `param_t`. -/
structure Param where
  name : List UInt8
  value : List UInt8
  valueLen : ℕ
  type : ℕ
  valAlloced : Bool
  deriving DecidableEq, Repr

/-- Where the parser stops: bytes past the end of `name` or of `value`, a negative length,
or more rounds than there are bytes. -/
inductive QsFault
  | outOfBounds | negative | stuck
  deriving DecidableEq, Repr

/-- The loop that looks for the end of a pair and the end of its name: `name_ptr - raw` and
`val_ptr - raw`, when there are so many bytes left. -/
def scanPair (raw : List UInt8) : ℕ → ℕ → ℕ → ℕ × ℕ
  | 0, name, val => (name, val)
  | left + 1, name, val =>
    if raw.getD val 0 ≠ 38 then
      scanPair raw left (if raw.getD name 0 ≠ 61 then name + 1 else name) (val + 1)
    else (name, val)

/-- The loop of `params_parse_qs`; `raw` is the memory from `raw` on. -/
def parseQsLoop : ℕ → List Param → List UInt8 → ℕ → ℕ → Except QsFault (List Param)
  | 0, params, _, size, _ => if 0 < size then .error .stuck else .ok params
  | fuel + 1, params, raw, size, type =>
    if size = 0 then .ok params
    else
      let (len, val) := scanPair raw size 0 0
      if paramsNameMaxLen ≤ len then .ok params
      else
        let name := urlDecode raw len
        if paramsNameMaxLen ≤ name.length then .error .outOfBounds
        else if (name.take len).any (127 < ·) then .ok params -- not ASCII
        else
          let name_ptr := if raw.getD len 0 = 61 then len + 1 else len
          if val < name_ptr then .error .negative
          else
            let value := urlDecode (raw.drop name_ptr) (val - name_ptr)
            if val - name_ptr < value.length then .error .outOfBounds
            else
              let val_ptr := if raw.getD val 0 = 38 then val + 1 else val
              let param :=
                { name, value, valueLen := val - name_ptr, type, valAlloced := true }
              parseQsLoop fuel (params ++ [param]) (raw.drop val_ptr) (size - val_ptr) type

/-- `params_parse_qs`. -/
def paramsParseQs (params : List Param) (raw : List UInt8) (size type : ℕ) :
    Except QsFault (List Param) :=
  parseQsLoop size params raw size type

/-- `params_qs_len`. -/
def paramsQsLen (params : List Param) : ℕ :=
  params.foldl (fun l p => l + (paramsNameMaxLen + p.valueLen + 2)) 0

/-- `name=value` as `params_gen_qs` writes it: nothing is escaped. -/
def Param.text (p : Param) : List UInt8 := p.name ++ 61 :: p.value

/-- `params_gen_qs`. -/
def paramsGenQs (params : List Param) : List UInt8 := [38].intercalate (params.map Param.text)

/-- `params_get_param`. -/
def paramsGetParam (params : List Param) (name : List UInt8) : Option Param :=
  params.find? (·.name = name)

/-- `params_set_param`, for a value that is not `NULL`. The first parameter with this name
gets the new value and keeps its `value_len`. -/
def paramsSetParam (params : List Param) (name value : List UInt8) : List Param :=
  match params with
  | [] => [{ name, value, valueLen := value.length, type := 3, valAlloced := true }]
  | p :: ps =>
    if p.name = name then { p with value := value, valAlloced := true } :: ps
    else p :: paramsSetParam ps name value

/-- A call that changes the parameters: `params_parse_qs`, or `params_set_param`. -/
inductive ParamOp
  | parse (raw : List UInt8) (size type : ℕ)
  | set (name value : List UInt8)

/-- The call. -/
def paramStep (params : List Param) : ParamOp → Except QsFault (List Param)
  | .parse raw size type => paramsParseQs params raw size type
  | .set name value => .ok (paramsSetParam params name value)

/-! ## What a query string is -/

/-- The texts between the `&`; nothing follows the last one. -/
def qsPieces : List UInt8 → List (List UInt8)
  | [] => []
  | c :: s =>
    if c = 38 then [] :: qsPieces s
    else
      match qsPieces s with
      | [] => [[c]]
      | p :: ps => (c :: p) :: ps

/-- The name of a pair, up to the first `=`, and the value behind it. -/
def pieceName (p : List UInt8) : List UInt8 := p.takeWhile (· ≠ 61)
def pieceValue (p : List UInt8) : List UInt8 := p.drop ((pieceName p).length + 1)

/-- The string without its escapes. -/
def decodedText (s : List UInt8) : List UInt8 := urlDecode s s.length

/-- What becomes of the pairs: the first name that is too long or not ASCII ends the list. -/
def parsePieces (type : ℕ) : List Param → List (List UInt8) → Except QsFault (List Param)
  | params, [] => .ok params
  | params, p :: ps =>
    let name := decodedText (pieceName p)
    let value := decodedText (pieceValue p)
    if paramsNameMaxLen ≤ (pieceName p).length then .ok params
    else if paramsNameMaxLen ≤ name.length then .error .outOfBounds
    else if (name.take (pieceName p).length).any (127 < ·) then .ok params
    else if (pieceValue p).length < value.length then .error .outOfBounds
    else
      parsePieces type
        (params ++ [{ name, value, valueLen := (pieceValue p).length, type, valAlloced := true }]) ps

/-- No escape is cut off by the end of a name or of a value. -/
def NoCut (qs : List UInt8) : Prop :=
  ∀ p ∈ qsPieces qs, endsCut (pieces (pieceName p)) = false ∧
    endsCut (pieces (pieceValue p)) = false

instance (qs : List UInt8) : Decidable (NoCut qs) := inferInstanceAs (Decidable (∀ _ ∈ _, _))

/-- Written without an escape the parameter is read as it is: its name and its value are what
`url_decode` makes of them, and nothing in them ends them. -/
structure Param.Plain (p : Param) : Prop where
  name_amp : 38 ∉ p.name
  name_eq : 61 ∉ p.name
  value_amp : 38 ∉ p.value
  name : decodedText p.name = p.name
  value : decodedText p.value = p.value

/-! ## What an encoded query string is -/

/-- A pair and how it is written: `%`, `&`, `=` and the space are always escaped, and the
name is not too long for the buffer. -/
structure QsPair where
  name : List UInt8
  value : List UInt8
  nameText : List UInt8
  valueText : List UInt8
  name_enc : Encodes name nameText
  value_enc : Encodes value valueText
  name_free : ∀ c ∈ nameText, c ≠ 38 ∧ c ≠ 61 ∧ c ≠ 32
  value_free : ∀ c ∈ valueText, c ≠ 38 ∧ c ≠ 61 ∧ c ≠ 32
  name_short : nameText.length < paramsNameMaxLen

/-- `name=value`. -/
def QsPair.text (p : QsPair) : List UInt8 := p.nameText ++ 61 :: p.valueText

/-- `n1=v1&n2=v2&...`. -/
def qsText : List QsPair → List UInt8
  | [] => []
  | [p] => p.text
  | p :: ps => p.text ++ 38 :: qsText ps

/-- The parameter that a pair becomes. -/
def QsPair.param (p : QsPair) (type : ℕ) : Param :=
  { name := p.name, value := p.value, valueLen := p.valueText.length, type, valAlloced := true }

end Zimr
