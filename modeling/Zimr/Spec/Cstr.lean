import Zimr.Spec.Wire

/-!
# Strings and numbers

A C string is the list of its bytes without the NUL; a buffer is a list of bytes in which
a string ends at the first NUL or at the end of the list. `startswith` and `strnstr` are
of `general.c`, the others of the C library.
-/

namespace Zimr

/-- The bytes of a literal. -/
def ascii (s : String) : List UInt8 := s.toList.map fun c => UInt8.ofNat c.toNat

/-- The string at the start of a buffer. -/
def cstr (mem : List UInt8) : List UInt8 := mem.takeWhile (· ≠ 0)

/-- `startswith`. -/
def startswith (s₁ s₂ : List UInt8) : Bool := s₂.isPrefixOf s₁

/-- `strnstr`: where `find` starts in the first `slen` bytes of the string. -/
def strnstr : List UInt8 → List UInt8 → ℕ → Option ℕ
  | [], _, _ => none
  | c :: s, find, slen =>
    if find.length ≤ slen ∧ c ≠ 0 then
      if startswith (c :: s) find then some 0
      else (strnstr s find (slen - 1)).map (· + 1)
    else none

/-- `strstr`. -/
def strstr (s find : List UInt8) : Option ℕ := strnstr s find (s.length + find.length)

/-- `strchr`. -/
def strchr (s : List UInt8) (c : UInt8) : Option ℕ := (cstr s).findIdx? (· = c)

/-! ## Numbers -/

/-- `isspace`. -/
def isspace (c : UInt8) : Bool := c = 32 || (9 ≤ c && c ≤ 13)

/-- The value of a digit or a letter. -/
def digitVal (c : UInt8) : ℕ :=
  if 48 ≤ c && c ≤ 57 then c.toNat - 48
  else if 97 ≤ c && c ≤ 122 then c.toNat - 87
  else if 65 ≤ c && c ≤ 90 then c.toNat - 55
  else 36

/-- The digits at the start. -/
def digits (base : ℕ) (s : List UInt8) : List UInt8 := s.takeWhile fun c => digitVal c < base

/-- The number that digits make. -/
def numOf (base : ℕ) (s : List UInt8) : ℕ := s.foldl (fun n c => n * base + digitVal c) 0

/-- A number with the base its first characters name: `0x` or `0`. The rest is what does
not belong to it. -/
def numAuto (s : List UInt8) : ℕ × List UInt8 :=
  if (startswith s (ascii "0x") || startswith s (ascii "0X")) && digits 16 (s.drop 2) ≠ [] then
    (numOf 16 (digits 16 (s.drop 2)), (s.drop 2).drop (digits 16 (s.drop 2)).length)
  else
    let base := if startswith s (ascii "0") then 8 else 10
    (numOf base (digits base s), s.drop (digits base s).length)

/-- `UINTMAX_MAX + 1`, and that of `size_t`. -/
def sizeMod : ℕ := 18446744073709551616

/-- `strtoumax( s, NULL, 0 )`. -/
def strtoumax (s : List UInt8) : ℕ :=
  let s := s.dropWhile isspace
  let neg := startswith s (ascii "-")
  let v := (numAuto (if neg || startswith s (ascii "+") then s.drop 1 else s)).1
  if sizeMod ≤ v then sizeMod - 1
  else if neg then (sizeMod - v) % sizeMod
  else v

/-- `atoi`. -/
def atoi (s : List UInt8) : ℤ :=
  let s := s.dropWhile isspace
  let neg := startswith s (ascii "-")
  let v := numOf 10 (digits 10 (if neg || startswith s (ascii "+") then s.drop 1 else s))
  if neg then -(v : ℤ) else v

/-! ## Addresses -/

/-- The number in the `in_addr` of four bytes, which are in network order. -/
def inAddr (b : List ℕ) : ℕ := leNum (b.map UInt8.ofNat)

/-- `INADDR_NONE`. -/
def inaddrNone : ℕ := inAddr [255, 255, 255, 255]

/-- The parts of a dotted address: `k` more may follow this one, the last takes the bytes
that are left. -/
def inetParts : ℕ → List ℕ → List UInt8 → Option (List ℕ)
  | k, bytes, s =>
    if digits 10 (s.take 1) = [] then none
    else
      let v := (numAuto s).1
      match k, (numAuto s).2 with
      | k + 1, 46 :: s => if v < 256 then inetParts k (bytes ++ [v]) s else none
      | k, s =>
        if s = [] ∨ isspace (s.headD 0) then
          if v < 256 ^ (k + 1) then
            some (bytes ++ ((leBytes (k + 1) v).map UInt8.toNat).reverse)
          else none
        else none

/-- `inet_addr`. -/
def inetAddr (s : List UInt8) : ℕ := ((inetParts 3 [] s).map inAddr).getD inaddrNone

/-- A number below 256 in decimal. -/
def decimal (n : ℕ) : List UInt8 :=
  let d (k : ℕ) := UInt8.ofNat (48 + k)
  if n < 10 then [d n]
  else if n < 100 then [d (n / 10), d (n % 10)]
  else [d (n / 100), d (n / 10 % 10), d (n % 10)]

/-- `inet_ntoa`. -/
def inetNtoa (addr : ℕ) : List UInt8 :=
  (ascii ".").intercalate ((leBytes 4 addr).map fun b => decimal b.toNat)

end Zimr
