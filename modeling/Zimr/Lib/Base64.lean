import Mathlib.Data.List.Basic
import Mathlib.Data.Nat.Notation

/-!
# Base64

The encoding with padding: three bytes are a word of 24 bits, which four characters stand for, six
bits each. A character is a number below 64 (`char`), and the four make up the word (`word_eq`).
-/

namespace Base64

/-- The character of six bits. -/
def char (n : ℕ) : UInt8 :=
  if n < 26 then UInt8.ofNat (65 + n)
  else if n < 52 then UInt8.ofNat (97 + (n - 26))
  else if n < 62 then UInt8.ofNat (48 + (n - 52))
  else if n = 62 then 43
  else 47

/-- `=`. -/
def pad : UInt8 := 61

def word (a b c : UInt8) : ℕ := a.toNat * 65536 + b.toNat * 256 + c.toNat

/-- The first, second, third and fourth six bits of a word. -/
def first (w : ℕ) : ℕ := w / 262144
def second (w : ℕ) : ℕ := w / 4096 % 64
def third (w : ℕ) : ℕ := w / 64 % 64
def fourth (w : ℕ) : ℕ := w % 64

/-- The encoding. -/
def encode : List UInt8 → List UInt8
  | [] => []
  | [a] => [char (first (word a 0 0)), char (second (word a 0 0)), pad, pad]
  | [a, b] => [char (first (word a b 0)), char (second (word a b 0)), char (third (word a b 0)), pad]
  | a :: b :: c :: s =>
    char (first (word a b c)) :: char (second (word a b c)) :: char (third (word a b c)) ::
      char (fourth (word a b c)) :: encode s

/-- How many bytes the last word is short of. -/
def missing (s : List UInt8) : ℕ := (3 - s.length % 3) % 3

variable {w n : ℕ}

theorem word_lt (a b c : UInt8) : word a b c < 16777216 := by
  have ha := a.toNat_lt
  have hb := b.toNat_lt
  have hc := c.toNat_lt
  unfold word
  omega

/-- The four make up the word. -/
theorem word_eq (w : ℕ) : ((first w * 64 + second w) * 64 + third w) * 64 + fourth w = w := by
  unfold first second third fourth
  omega

theorem first_lt (h : w < 16777216) : first w < 64 := by
  unfold first
  omega

theorem second_lt (w : ℕ) : second w < 64 := Nat.mod_lt _ (by decide)

theorem third_lt (w : ℕ) : third w < 64 := Nat.mod_lt _ (by decide)

theorem fourth_lt (w : ℕ) : fourth w < 64 := Nat.mod_lt _ (by decide)

/-- What a missing byte leaves of the word. -/
theorem fourth_two (a b : UInt8) : fourth (word a b 0) = 0 := by
  have h0 : (0 : UInt8).toNat = 0 := rfl
  unfold fourth word
  omega

theorem third_one (a : UInt8) : third (word a 0 0) = 0 := by
  have h0 : (0 : UInt8).toNat = 0 := rfl
  unfold third word
  omega

/-- The bytes of the word. -/
theorem word_bytes (a b c : UInt8) : UInt8.ofNat (word a b c / 65536) = a ∧
    UInt8.ofNat (word a b c % 65536 / 256) = b ∧ UInt8.ofNat (word a b c % 256) = c := by
  have ha := a.toNat_lt
  have hb := b.toNat_lt
  have hc := c.toNat_lt
  have h₁ : word a b c / 65536 = a.toNat := by unfold word; omega
  have h₂ : word a b c % 65536 / 256 = b.toNat := by unfold word; omega
  have h₃ : word a b c % 256 = c.toNat := by unfold word; omega
  rw [h₁, h₂, h₃, UInt8.ofNat_toNat, UInt8.ofNat_toNat, UInt8.ofNat_toNat]
  exact ⟨rfl, rfl, rfl⟩

theorem char_ne_zero (h : n < 64) : char n ≠ 0 := by
  have hall : ∀ n < 64, char n ≠ 0 := by decide
  exact hall n h

end Base64
