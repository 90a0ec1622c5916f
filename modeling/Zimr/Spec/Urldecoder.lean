import Zimr.Spec.Cstr

/-!
# Percent-decoding (`urldecoder.c`, and `xtoi` of `general.c`)

The source is UTF-8, so an entry of the table has up to three bytes.
-/

namespace Zimr

/-- The bytes of a literal that is not ASCII. -/
def utf8 (s : String) : List UInt8 := s.toList.flatMap String.utf8EncodeChar

/-- `urlcodes`. The entries `%20` to `%7E` are the characters themselves. -/
def urlcodes : List (List UInt8) :=
  List.replicate 32 [] ++ (List.range 95).map (fun k => [UInt8.ofNat (32 + k)]) ++
    ([" ", -- %7F
      "€", " ", "‚", "ƒ", "„", "…", "†", "‡", "ˆ", "‰", "Š", "‹", "Œ", " ", "Ž", " ",
      " ", "‘", "’", "“", "”", "•", "–", "—", "˜", "™", "š", "›", "œ", " ", "ž", "Ÿ",
      " ", "¡", "¢", "£", " ", "¥", "|", "§", "¨", "©", "ª", "«", "¬", "¯", "®", "¯",
      "°", "±", "²", "³", "´", "µ", "¶", "·", "¸", "¹", "º", "»", "¼", "½", "¾", "¿",
      "À", "Á", "Â", "Ã", "Ä", "Å", "Æ", "Ç", "È", "É", "Ê", "Ë", "Ì", "Í", "Î", "Ï",
      "Ð", "Ñ", "Ò", "Ó", "Ô", "Õ", "Ö", " ", "Ø", "Ù", "Ú", "Û", "Ü", "Ý", "Þ", "ß",
      "à", "á", "â", "ã", "ä", "å", "æ", "ç", "è", "é", "ê", "ë", "ì", "í", "î", "ï",
      "ð", "ñ", "ò", "ó", "ô", "õ", "ö", "÷", "ø", "ù", "ú", "û", "ü", "ý", "þ", "ÿ"].map utf8)

/-- `isxdigit`. -/
def isxdigit (c : UInt8) : Bool := digitVal c < 16

/-- `xv`, for a digit. -/
def xv (c : UInt8) : ℕ :=
  if 97 ≤ c then c.toNat - 97 + 10
  else if 65 ≤ c then c.toNat - 65 + 10
  else c.toNat - 48

/-- The loop of `xtoi`, from the last digit to the first: `*result`, and what is returned. -/
def xtoiLoop : List UInt8 → ℕ → ℕ → ℕ × ℕ
  | [], result, _ => (result, 1)
  | c :: cs, result, fact =>
    if isxdigit c then xtoiLoop cs (result + xv c * fact) (fact * 16)
    else (result, 4)

/-- `xtoi`. -/
def xtoi (xs : List UInt8) (result : ℕ) : ℕ × ℕ :=
  if xs = [] then (result, 1)
  else if 8 < xs.length then (result, 2)
  else xtoiLoop xs.reverse 0 1

/-- What an escape with these two characters stands for. `url_decode` does not look at what
`xtoi` returns: with a character that is no digit the code is that of what came after it. -/
def urlcode (a b : UInt8) : List UInt8 := urlcodes.getD (xtoi [a, b] 0).1 []

/-- The loop of `url_decode`; `url` is what `url_ptr` points to. -/
def urlDecodeLoop : ℕ → List UInt8 → List UInt8 → List UInt8
  | 0, buffer, _ => buffer
  | fuel + 1, buffer, url =>
    match strchr url 37 with
    | none => buffer ++ url
    | some p =>
      let buffer := buffer ++ url.take p
      match url.drop (p + 1) with
      | a :: b :: rest => urlDecodeLoop fuel (buffer ++ urlcode a b) rest
      | _ => buffer ++ url -- `url_ptr` has not moved

/-- `url_decode`: the string in `buffer`. -/
def urlDecode (rawUrl : List UInt8) (urlLen : ℕ) : List UInt8 :=
  let url := (cstr rawUrl).take urlLen
  urlDecodeLoop (url.length + 1) [] url

/-! ## What an encoding is -/

/-- A part of a string with escapes: a character, an escape, or one that is cut off by the
end of the string. -/
inductive Piece
  | lit (c : UInt8)
  | esc (a b : UInt8)
  | cut (rest : List UInt8)
  deriving DecidableEq, Repr

/-- The parts. -/
def pieces : List UInt8 → List Piece
  | 37 :: a :: b :: s => .esc a b :: pieces s
  | c :: s => if c = 37 then [.cut s] else .lit c :: pieces s
  | [] => []

/-- The bytes that the complete escapes save. -/
def saved : List Piece → ℕ
  | [] => 0
  | .esc a b :: ps => 3 - (urlcode a b).length + saved ps
  | _ :: ps => saved ps

/-- How many characters stand between the last complete escape and the one that is cut off;
`n` before these parts. -/
def lastRun : ℕ → List Piece → ℕ
  | n, [] => n
  | n, .lit _ :: ps => lastRun (n + 1) ps
  | _, .esc _ _ :: ps => lastRun 0 ps
  | n, .cut _ :: _ => n

/-- The string ends in an escape that is cut off. -/
def endsCut : List Piece → Bool
  | [] => false
  | .cut _ :: _ => true
  | _ :: ps => endsCut ps

/-- `e` encodes `s`: a character may stand for itself or be escaped, `%` is escaped. -/
inductive Encodes : List UInt8 → List UInt8 → Prop
  | nil : Encodes [] []
  | plain {c : UInt8} {s e : List UInt8} : 32 ≤ c → c ≤ 126 → c ≠ 37 → Encodes s e →
      Encodes (c :: s) (c :: e)
  | escaped {c a b : UInt8} {s e : List UInt8} : 32 ≤ c → c ≤ 126 → isxdigit a → isxdigit b →
      c.toNat = 16 * digitVal a + digitVal b → Encodes s e → Encodes (c :: s) (37 :: a :: b :: e)

end Zimr
