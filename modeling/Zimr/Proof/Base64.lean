import Zimr.Lib.Base64
import Zimr.Proof.Cstr
import Zimr.Proof.Headers
import Zimr.Spec.Auth

/-!
# The decoding of credentials

* `base64_decode_inverts` — `base64_decode` gives back what was encoded
* `credentials_fit_iff` — what it writes fits into `user` up to a length of the header
-/

namespace Zimr

open Base64

variable {s : List UInt8} {i n : ℕ}

theorem base64DecodeLoop_cons {c : UInt8} (hc : c ≠ 0) (p : List UInt8) (hi : (i + 1) % 4 ≠ 0) :
    base64DecodeLoop (c :: p) i n =
      base64DecodeLoop p (i + 1) ((64 * n + base64DecodeDigit c) % 4294967296) := by
  rw [base64DecodeLoop, if_neg hc, if_neg hi]

theorem base64DecodeLoop_fourth {c : UInt8} (hc : c ≠ 0) (p : List UInt8) (hi : (i + 1) % 4 = 0) {w : ℕ}
    (hw : (64 * n + base64DecodeDigit c) % 4294967296 = w) :
    base64DecodeLoop (c :: p) i n =
      UInt8.ofNat (w / 65536) :: UInt8.ofNat (w % 65536 / 256) :: UInt8.ofNat (w % 256) ::
        base64DecodeLoop p (i + 1) 0 := by
  subst hw
  rw [base64DecodeLoop, if_neg hc, if_pos hi]

/-! ## The inverse -/

/-- A character stands for its six bits, and `=` for none. -/
theorem digit_char (h : n < 64) : base64DecodeDigit (char n) = n := by
  have hall : ∀ n < 64, base64DecodeDigit (char n) = n := by decide
  exact hall n h

theorem digit_pad : base64DecodeDigit pad = 0 := by decide

/-- Four characters whose six bits make up a word. -/
theorem base64DecodeLoop_word {c₁ c₂ c₃ c₄ : UInt8} {w : ℕ} (h₁ : c₁ ≠ 0) (h₂ : c₂ ≠ 0) (h₃ : c₃ ≠ 0)
    (h₄ : c₄ ≠ 0) (hw : w < 16777216) (d₁ : base64DecodeDigit c₁ = first w)
    (d₂ : base64DecodeDigit c₂ = second w) (d₃ : base64DecodeDigit c₃ = third w)
    (d₄ : base64DecodeDigit c₄ = fourth w) (p : List UInt8) (hi : i % 4 = 0) :
    base64DecodeLoop (c₁ :: c₂ :: c₃ :: c₄ :: p) i 0 =
      UInt8.ofNat (w / 65536) :: UInt8.ofNat (w % 65536 / 256) :: UInt8.ofNat (w % 256) ::
        base64DecodeLoop p (i + 4) 0 := by
  have l₁ := first_lt hw
  have l₂ := second_lt w
  have l₃ := third_lt w
  have heq := word_eq w
  rw [base64DecodeLoop_cons h₁ _ (by omega), base64DecodeLoop_cons h₂ _ (by omega),
    base64DecodeLoop_cons h₃ _ (by omega), base64DecodeLoop_fourth h₄ p (by omega) (w := w)]
  rw [d₁, d₂, d₃, d₄]
  omega

/-- The zeros of the last word go on into the one that ends the string. -/
theorem base64DecodeLoop_encode (s : List UInt8) : ∀ i, i % 4 = 0 →
    base64DecodeLoop (encode s) i 0 = s ++ List.replicate (missing s) 0 := by
  induction s using encode.induct with
  | case1 => intro i _; rfl
  | case2 a =>
    intro i hi
    have hw := word_lt a 0 0
    obtain ⟨ha, hb, hc⟩ := word_bytes a 0 0
    rw [encode, base64DecodeLoop_word (char_ne_zero (first_lt hw)) (char_ne_zero (second_lt _))
      (by decide) (by decide) hw (digit_char (first_lt hw)) (digit_char (second_lt _))
      (digit_pad.trans (third_one a).symm) (digit_pad.trans (fourth_two a 0).symm) [] hi, ha, hb, hc]
    rfl
  | case3 a b =>
    intro i hi
    have hw := word_lt a b 0
    obtain ⟨ha, hb, hc⟩ := word_bytes a b 0
    rw [encode, base64DecodeLoop_word (char_ne_zero (first_lt hw)) (char_ne_zero (second_lt _))
      (char_ne_zero (third_lt _)) (by decide) hw (digit_char (first_lt hw)) (digit_char (second_lt _))
      (digit_char (third_lt _)) (digit_pad.trans (fourth_two a b).symm) [] hi, ha, hb, hc]
    rfl
  | case4 a b c s ih =>
    intro i hi
    have hw := word_lt a b c
    obtain ⟨ha, hb, hc⟩ := word_bytes a b c
    have hmissing : missing (a :: b :: c :: s) = missing s := by
      unfold missing
      simp only [List.length_cons]
      omega
    rw [encode, base64DecodeLoop_word (char_ne_zero (first_lt hw)) (char_ne_zero (second_lt _))
      (char_ne_zero (third_lt _)) (char_ne_zero (fourth_lt _)) hw (digit_char (first_lt hw))
      (digit_char (second_lt _)) (digit_char (third_lt _)) (digit_char (fourth_lt _)) _ hi, ha, hb, hc,
      ih (i + 4) (by omega), hmissing]
    rfl

/-- **`base64_decode` inverts base64**: it writes what was encoded and then only zeros. -/
theorem base64_decode_inverts (s : List UInt8) :
    base64Decode (encode s) = s ++ List.replicate (missing s + 1) 0 ∧
      (0 ∉ s → cstr (base64Decode (encode s)) = s) := by
  have hdecode : base64Decode (encode s) = s ++ List.replicate (missing s + 1) 0 := by
    rw [base64Decode, base64DecodeLoop_encode s 0 rfl, List.append_assoc, List.replicate_succ']
  refine ⟨hdecode, fun hz => ?_⟩
  rw [hdecode, List.replicate_succ, cstr_append_nul hz]

theorem base64_decode_inverts_user : cstr (base64Decode (encode (ascii "user:pw"))) = ascii "user:pw" :=
  (base64_decode_inverts (ascii "user:pw")).2 (by decide)

/-! ## The length -/

/-- Three bytes for each four characters. -/
theorem base64DecodeLoop_length (s : List UInt8) : ∀ i n,
    (base64DecodeLoop s i n).length = 3 * (((cstr s).length + i % 4) / 4) := by
  induction s with
  | nil =>
    intro i n
    show 0 = 3 * ((0 + i % 4) / 4)
    omega
  | cons c p ih =>
    intro i n
    by_cases hc : c = 0
    · rw [hc, base64DecodeLoop, if_pos rfl]
      show 0 = 3 * ((0 + i % 4) / 4)
      omega
    · have hcstr : (cstr (c :: p)).length = (cstr p).length + 1 := by
        unfold cstr
        rw [List.takeWhile_cons_of_pos (by simpa using hc), List.length_cons]
      rw [hcstr]
      by_cases hi : (i + 1) % 4 = 0
      · rw [base64DecodeLoop_fourth hc p hi rfl]
        simp only [List.length_cons, ih]
        omega
      · rw [base64DecodeLoop_cons hc p hi, ih]
        omega

theorem base64Decode_length (s : List UInt8) :
    (base64Decode s).length = 3 * ((cstr s).length / 4) + 1 := by
  rw [base64Decode, List.length_append, base64DecodeLoop_length]
  rfl

/-- **Credentials fit into `user`** when they have fewer than 344 characters. -/
theorem credentials_fit_iff (value : List UInt8) :
    (base64Decode (value.drop 6)).length ≤ authUserSize ↔ (cstr (value.drop 6)).length < 344 := by
  rw [base64Decode_length]
  unfold authUserSize
  omega

/-- A header block with credentials of 344 characters. -/
def longCredentials : List UInt8 :=
  ascii "Authorization: Basic " ++ List.replicate 344 65 ++ crlf ++ crlf

/-- They are stored whole, and 259 bytes are written. -/
theorem credentials_overrun : ¬∀ (raw : List UInt8) (h : Header),
    headersGetHeader (headersParse raw) (ascii "Authorization") = some h →
      startswith h.value (ascii "Basic ") = true →
        (base64Decode (h.value.drop 6)).length ≤ authUserSize := by
  intro h
  have hget : headersGetHeader (headersParse longCredentials) (ascii "Authorization") =
      some ⟨ascii "Authorization", ascii "Basic " ++ List.replicate 344 65⟩ := by decide +kernel
  have hfit := h longCredentials _ hget (by decide +kernel)
  rw [base64Decode_length] at hfit
  revert hfit
  decide +kernel

end Zimr
