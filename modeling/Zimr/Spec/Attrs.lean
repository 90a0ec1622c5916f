import Zimr.Spec.Headers

/-!
# Headers with attributes

The value of a header as a client writes it, `token; a1=v1; a2="v2"`, and the places in it where
`headers_get_header_attr` could take an `=` for that of an attribute.
-/

namespace Zimr

/-- A letter, a digit or `-`. -/
def isNameChar (c : UInt8) : Bool :=
  (97 ≤ c && c ≤ 122) || (65 ≤ c && c ≤ 90) || (48 ≤ c && c ≤ 57) || c = 45

/-- The name of an attribute. -/
structure AttrName (n : List UInt8) : Prop where
  ne : n ≠ []
  char : ∀ c ∈ n, isNameChar c = true

/-- A text without `;` and quotes. -/
def Bare (s : List UInt8) : Prop := ∀ c ∈ s, c ≠ 0 ∧ c ≠ 34 ∧ c ≠ 59

instance (s : List UInt8) : Decidable (Bare s) := inferInstanceAs (Decidable (∀ c ∈ s, _))

/-- An attribute, with or without quotes. -/
structure Attr where
  name : List UInt8
  value : List UInt8
  quoted : Bool
  name_ok : AttrName name
  value_ok : Bare value

/-- The value as it is written. -/
def Attr.written (a : Attr) : List UInt8 :=
  if a.quoted then 34 :: (a.value ++ [34]) else a.value

/-- The attributes, each behind a `; `. -/
def attrsText : List Attr → List UInt8
  | [] => []
  | a :: as => 59 :: 32 :: (a.name ++ 61 :: (a.written ++ attrsText as))

/-- The value of a header. -/
structure AttrHeader where
  token : List UInt8
  attrs : List Attr
  token_ok : Bare token
  names : (attrs.map Attr.name).Nodup

def AttrHeader.text (h : AttrHeader) : List UInt8 := h.token ++ attrsText h.attrs

/-- The value of the attribute with this name. -/
def AttrHeader.value (h : AttrHeader) (n : List UInt8) : Option (List UInt8) :=
  (h.attrs.find? fun a => a.name = n).map Attr.value

/-! ## Where a name is hit -/

/-- The name is looked for from the left, each time behind where it was found last, and one of the
places is at the end of the word. -/
def hitsEnd (n : List UInt8) : ℕ → List UInt8 → Bool
  | 0, _ => false
  | fuel + 1, word =>
    match strstr word n with
    | none => false
    | some i => word.drop (i + n.length) = [] || hitsEnd n fuel (word.drop (i + n.length))

def Hits (n word : List UInt8) : Bool := hitsEnd n (word.length + 1) word

/-- Every `=` of a text: the word directly before it (`word` so far), and what is behind it. -/
def equalSigns : List UInt8 → List UInt8 → List (List UInt8 × List UInt8)
  | _, [] => []
  | word, c :: s =>
    if c = 61 then (word, s) :: equalSigns [] s
    else equalSigns (if isNameChar c then word ++ [c] else []) s

/-- Every `=` of the attributes: the word before it, and what is behind it up to the end of the
value. Inside of quotes there is a quote or a `;` in that (`none`). -/
def attrSigns : List Attr → List (List UInt8 × Option (List UInt8))
  | [] => []
  | a :: as => (a.name, some a.value) ::
    ((equalSigns [] a.value).map (fun e => (e.1, if a.quoted then none else some e.2)) ++
      attrSigns as)

/-- Every `=` of the value of a header. -/
def AttrHeader.signs (h : AttrHeader) : List (List UInt8 × Option (List UInt8)) :=
  (equalSigns [] h.token).map (fun e => (e.1, some e.2)) ++ attrSigns h.attrs

/-- The first `=` with the name before it is that of the attribute, or has the same behind it; and
there is none when there is no such attribute. -/
def AttrHeader.FirstHit (h : AttrHeader) (n : List UInt8) : Prop :=
  (h.signs.find? fun e => Hits n e.1).map Prod.snd = (h.value n).map some

instance (h : AttrHeader) (n : List UInt8) : Decidable (h.FirstHit n) :=
  inferInstanceAs (Decidable (_ = _))

end Zimr
