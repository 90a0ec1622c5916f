import Zimr.Spec.Headers

/-!
# `strnstr` in memory (`general.c`)

The loop of the source, with what it reads. `mem` is the memory from `s` on, as far as it may be
read; a read beyond its end is a fault. `strlen( find )` goes into an `int`, which the comparison
with `slen` makes a `size_t`.
-/

namespace Zimr

/-- An `int` that is assigned `n`, as a `size_t`. -/
def sizeOfInt (n : ℕ) : ℕ :=
  let low := n % 4294967296
  if low < 2147483648 then low else low + (sizeMod - 4294967296)

/-- `!strncmp( s, find, n )`. -/
def strncmpEq : List UInt8 → List UInt8 → ℕ → Except BufFault Bool
  | _, _, 0 => .ok true
  | [], _, _ + 1 => .error .outOfBounds
  | c :: s, find, n + 1 =>
    if c ≠ find.headD 0 then .ok false
    else if c = 0 then .ok true
    else strncmpEq s find.tail n

/-- The loop of `strnstr`, and what is returned: how far `s` has moved. -/
def strnstrLoop (find : List UInt8) (len : ℕ) : List UInt8 → ℕ → Bool → Except BufFault (Option ℕ)
  | [], slen, success =>
    if slen < len then .ok (if success then some 0 else none) else .error .outOfBounds
  | c :: s, slen, success =>
    if slen < len ∨ c = 0 then .ok (if success then some 0 else none)
    else do
      let success ← strncmpEq (c :: s) find len
      if success then return some 0
      else
        let found ← strnstrLoop find len s (slen - 1) success
        return found.map (· + 1)

/-- `strnstr`. -/
def strnstrMem (mem find : List UInt8) (slen : ℕ) : Except BufFault (Option ℕ) :=
  strnstrLoop find (sizeOfInt find.length) mem slen false

/-! ## What it is for -/

/-- `find` stands at `i`, ends within the bound and has no NUL in it or before it. -/
structure Occurs (mem find : List UInt8) (slen i : ℕ) : Prop where
  here : find <+: mem.drop i
  bound : i + find.length ≤ slen
  text : 0 ∉ mem.take (i + find.length)

/-- The first place, or none. -/
structure FirstPlace (mem find : List UInt8) (slen : ℕ) (found : Option ℕ) : Prop where
  some : ∀ i, found = some i → Occurs mem find slen i ∧ ∀ j < i, ¬Occurs mem find slen j
  none : found = none → ∀ i, ¬Occurs mem find slen i

/-- In any memory that goes up to the bound, or has a NUL, the first place is found, and nothing is
read from the bound on: that memory may as well not be there. -/
def Searches (find : List UInt8) : Prop :=
  ∀ mem slen, slen < sizeMod → slen ≤ mem.length ∨ 0 ∈ mem →
    ∃ found, strnstrMem (mem.take slen) find slen = .ok found ∧ FirstPlace mem find slen found

end Zimr
