import Mathlib.Data.List.TakeDrop
import Mathlib.Data.List.TakeWhile
import Zimr.Proof.Cstr
import Zimr.Spec.Urldecoder

/-!
# Percent-decoding

The loop of `url_decode` in terms of the parts of the string (`urlDecode_eq`). What it writes
is longer than what it reads exactly when an escape is cut off after a run of characters that
is longer than what the escapes before it save (`decoded_short_iff`).
-/

namespace Zimr

variable {s e t : List UInt8} {a b c : UInt8}

/-! ## Parts -/

theorem pieces_lit (h : c ≠ 37) (s : List UInt8) : pieces (c :: s) = .lit c :: pieces s := by
  rw [pieces, if_neg h]
  rintro x y z rfl
  exact fun _ => h rfl

theorem pieces_esc (a b : UInt8) (s : List UInt8) :
    pieces (37 :: a :: b :: s) = .esc a b :: pieces s := by
  rw [pieces]

theorem pieces_cut (h : s.length < 2) : pieces (37 :: s) = [.cut s] := by
  rw [pieces, if_pos rfl]
  rintro a b r - rfl
  simp only [List.length_cons] at h
  omega

theorem pieces_append_lit {l : List UInt8} (h : ∀ c ∈ l, c ≠ 37) (s : List UInt8) :
    pieces (l ++ s) = l.map .lit ++ pieces s := by
  induction l with
  | nil => rfl
  | cons c l ih =>
    rw [List.cons_append, pieces_lit (h c List.mem_cons_self),
      ih fun x hx => h x (List.mem_cons_of_mem _ hx)]
    rfl

/-- What `url_decode` appends for these parts, when the run of characters before them has
not been appended yet. -/
def decoded : List UInt8 → List Piece → List UInt8
  | run, [] => run
  | run, .lit c :: ps => decoded (run ++ [c]) ps
  | run, .esc a b :: ps => run ++ urlcode a b ++ decoded [] ps
  | run, .cut rest :: _ => run ++ (run ++ 37 :: rest)

theorem decoded_append_lit (l run : List UInt8) (ps : List Piece) :
    decoded run (l.map .lit ++ ps) = decoded (run ++ l) ps := by
  induction l generalizing run with
  | nil => rw [List.append_nil]; rfl
  | cons c l ih =>
    show decoded (run ++ [c]) (l.map .lit ++ ps) = _
    rw [ih, List.append_assoc]
    rfl

/-! ## The loop -/

/-- Where `strchr` finds a character that is there. -/
theorem strchr_split (h : ∀ c ∈ s, c ≠ 0) {p : ℕ} (hp : strchr s c = some p) :
    s = s.take p ++ c :: s.drop (p + 1) ∧ ∀ x ∈ s.take p, x ≠ c := by
  unfold strchr at hp
  rw [cstr_eq_self h, List.findIdx?_eq_some_iff_getElem] at hp
  obtain ⟨hlt, hc, hno⟩ := hp
  refine ⟨?_, fun x hx => ?_⟩
  · have hc' : s[p] = c := by simpa using hc
    rw [← hc', List.cons_getElem_drop_succ, List.take_append_drop]
  · obtain ⟨i, hi, rfl⟩ := List.getElem_of_mem hx
    rw [List.length_take] at hi
    rw [List.getElem_take]
    simpa using hno i (by omega)

theorem strchr_none (h : ∀ c ∈ s, c ≠ 0) (hn : strchr s c = none) : ∀ x ∈ s, x ≠ c := by
  unfold strchr at hn
  rw [cstr_eq_self h, List.findIdx?_eq_none_iff] at hn
  intro x hx
  simpa using hn x hx

/-- One round for every `%`: there is fuel enough, and what is appended follows the parts. -/
theorem urlDecodeLoop_eq : ∀ (fuel : ℕ) (buffer url : List UInt8), url.length < fuel →
    (∀ c ∈ url, c ≠ 0) → urlDecodeLoop fuel buffer url = buffer ++ decoded [] (pieces url) := by
  intro fuel
  induction fuel with
  | zero => intro _ _ h _; omega
  | succ fuel ih =>
    intro buffer url hfuel hz
    rw [urlDecodeLoop]
    cases hp : strchr url 37 with
    | none =>
      have hl := pieces_append_lit (strchr_none hz hp) []
      rw [List.append_nil] at hl
      simp only
      rw [hl, decoded_append_lit]
      simp [pieces, decoded]
    | some p =>
      obtain ⟨hsplit, hno⟩ := strchr_split hz hp
      have hpieces : pieces url = (url.take p).map .lit ++ pieces (37 :: url.drop (p + 1)) := by
        conv => lhs; rw [hsplit]
        exact pieces_append_lit hno _
      rw [hpieces, decoded_append_lit, List.nil_append]
      have hlen : (url.drop (p + 1)).length < fuel := by
        have := congrArg List.length hsplit
        rw [List.length_append, List.length_cons] at this
        omega
      have hz' : ∀ c ∈ url.drop (p + 1), c ≠ 0 := fun c hc => hz c (List.mem_of_mem_drop hc)
      simp only
      split
      · rename_i a b rest hrest
        rw [hrest] at hlen hz' ⊢
        rw [ih _ rest (by simp at hlen; omega)
          fun c hc => hz' c (List.mem_cons_of_mem _ (List.mem_cons_of_mem _ hc)), pieces_esc]
        simp only [decoded, List.append_assoc]
      · -- the escape is cut off, and the run before it is appended once more
        rename_i hshort
        have h2 : (url.drop (p + 1)).length < 2 := by
          match h : url.drop (p + 1) with
          | [] => simp
          | [x] => simp
          | x :: y :: r => exact absurd h (hshort x y r)
        rw [pieces_cut h2]
        show buffer ++ url.take p ++ url =
          buffer ++ (url.take p ++ (url.take p ++ 37 :: url.drop (p + 1)))
        rw [← hsplit, List.append_assoc]

/-- **What `url_decode` writes.** -/
theorem urlDecode_eq (raw : List UInt8) (n : ℕ) :
    urlDecode raw n = decoded [] (pieces ((cstr raw).take n)) := by
  unfold urlDecode
  simp only
  rw [urlDecodeLoop_eq _ _ _ (Nat.lt_succ_self _) fun c hc => cstr_ne_zero (List.mem_of_mem_take hc)]
  rfl

/-! ## The length -/

theorem urlcode_length (a b : UInt8) : (urlcode a b).length ≤ 3 := by
  have hall : ∀ l ∈ urlcodes, l.length ≤ 3 := by decide +kernel
  unfold urlcode
  rw [List.getD_eq_getElem?_getD]
  cases h : urlcodes[(xtoi [a, b] 0).1]? with
  | none => simp
  | some l => exact hall l (List.mem_of_getElem? h)

/-- The lengths of what is read and of what is written. -/
theorem decoded_length : ∀ (url run : List UInt8),
    (decoded run (pieces url)).length + saved (pieces url) =
      run.length + url.length +
        cond (endsCut (pieces url)) (lastRun run.length (pieces url)) 0 := by
  intro url
  induction url using pieces.induct with
  | case1 a b s ih =>
    intro run
    have hc := urlcode_length a b
    have := ih []
    rw [pieces_esc]
    simp only [decoded, saved, endsCut, lastRun, List.length_append, List.length_cons,
      List.length_nil] at this ⊢
    omega
  | case2 s h =>
    intro run
    rw [pieces_cut (by
      match s with
      | [] => simp
      | [x] => simp
      | x :: y :: r => exact absurd rfl (h x y r rfl))]
    simp [decoded, saved, endsCut, lastRun]
    omega
  | case3 c s _ hc ih =>
    intro run
    have := ih (run ++ [c])
    rw [pieces_lit hc]
    simp only [decoded, saved, endsCut, lastRun, List.length_append, List.length_cons,
      List.length_nil, Nat.zero_add] at this ⊢
    omega
  | case4 =>
    intro run
    simp [pieces, decoded, saved, endsCut]

/-- **Decoding does not grow exactly when no escape is cut off after a run of characters that
is longer than what the complete escapes save.** -/
theorem decoded_short_iff (raw : List UInt8) (n : ℕ) :
    (urlDecode raw n).length ≤ min n (cstr raw).length ↔
      (endsCut (pieces ((cstr raw).take n)) →
        lastRun 0 (pieces ((cstr raw).take n)) ≤ saved (pieces ((cstr raw).take n))) := by
  have hlen := decoded_length ((cstr raw).take n) []
  rw [List.length_take] at hlen
  rw [urlDecode_eq]
  simp only [List.length_nil] at hlen
  cases hcut : endsCut (pieces ((cstr raw).take n)) with
  | false =>
    rw [hcut] at hlen
    simp only [cond_false, Bool.false_eq_true, false_implies, iff_true] at hlen ⊢
    omega
  | true =>
    rw [hcut] at hlen
    simp only [cond_true, true_implies] at hlen ⊢
    omega

/-- `ab%` is written as `abab%`. -/
theorem decoded_longer : ¬∀ (raw : List UInt8) (n : ℕ),
    (urlDecode raw n).length ≤ min n (cstr raw).length := by
  intro h
  have := h (ascii "ab%") 3
  revert this
  decide

/-! ## Encodings -/

theorem xv_digit (h : isxdigit c = true) : xv c = digitVal c := by
  have hall : ∀ n : Fin 256, isxdigit (UInt8.ofNat n) = true →
      xv (UInt8.ofNat n) = digitVal (UInt8.ofNat n) := by decide +kernel
  have := hall ⟨c.toNat, c.toNat_lt⟩
  simp only [UInt8.ofNat_toNat] at this
  exact this h

theorem xtoi_two (ha : isxdigit a = true) (hb : isxdigit b = true) :
    (xtoi [a, b] 0).1 = 16 * digitVal a + digitVal b := by
  have h2 : xtoi [a, b] 0 = xtoiLoop [b, a] 0 1 := rfl
  rw [h2, xtoiLoop, if_pos hb, xtoiLoop, if_pos ha, xv_digit ha, xv_digit hb]
  show 0 + digitVal b * 1 + digitVal a * (1 * 16) = _
  omega

/-- The entry of a printable character is the character. -/
theorem urlcode_printable (h₁ : 32 ≤ c) (h₂ : c ≤ 126) (ha : isxdigit a = true)
    (hb : isxdigit b = true) (hc : c.toNat = 16 * digitVal a + digitVal b) :
    urlcode a b = [c] := by
  have hall : ∀ n : Fin 256, 32 ≤ UInt8.ofNat n → UInt8.ofNat n ≤ 126 →
      urlcodes.getD n [] = [UInt8.ofNat n] := by decide +kernel
  have := hall ⟨c.toNat, c.toNat_lt⟩
  simp only [UInt8.ofNat_toNat] at this
  rw [urlcode, xtoi_two ha hb, ← hc]
  exact this h₁ h₂

theorem Encodes.decoded (h : Encodes s e) : ∀ run, decoded run (pieces e) = run ++ s := by
  induction h with
  | nil => intro run; simp [pieces, Zimr.decoded]
  | plain _ _ hne _ ih =>
    intro run
    rw [pieces_lit hne, Zimr.decoded, ih, List.append_assoc]
    rfl
  | escaped h₁ h₂ ha hb hc _ ih =>
    intro run
    rw [pieces_esc, Zimr.decoded, ih, urlcode_printable h₁ h₂ ha hb hc]
    simp

theorem isxdigit_ne_zero (h : isxdigit c = true) : c ≠ 0 := by
  rintro rfl
  revert h
  decide

theorem Encodes.ne_zero (h : Encodes s e) : ∀ c ∈ e, c ≠ 0 := by
  induction h with
  | nil => intro c hc; cases hc
  | plain h₁ _ _ _ ih =>
    intro x hx
    rcases List.mem_cons.1 hx with rfl | hx
    · rintro rfl; exact absurd h₁ (by decide)
    · exact ih x hx
  | escaped _ _ ha hb _ _ ih =>
    intro x hx
    simp only [List.mem_cons] at hx
    rcases hx with rfl | rfl | rfl | hx
    · decide
    · exact isxdigit_ne_zero ha
    · exact isxdigit_ne_zero hb
    · exact ih x hx

theorem Encodes.append {s' e' : List UInt8} (h : Encodes s e) (h' : Encodes s' e') :
    Encodes (s ++ s') (e ++ e') := by
  induction h with
  | nil => exact h'
  | plain h₁ h₂ hne _ ih => exact .plain h₁ h₂ hne ih
  | escaped h₁ h₂ ha hb hc _ ih => exact .escaped h₁ h₂ ha hb hc ih

theorem Encodes.urlDecode (h : Encodes s e) (rest : List UInt8) :
    urlDecode (e ++ rest) e.length = s := by
  have hz := h.ne_zero
  have hc : (cstr (e ++ rest)).take e.length = e := by
    unfold cstr
    rw [List.takeWhile_append_of_pos fun c hc => by simpa using hz c hc, List.take_left' rfl]
  rw [urlDecode_eq, hc, h.decoded]
  rfl

/-- **Decoding undoes percent-encoding**, whatever follows, and decoding two encodings
together is decoding each. -/
theorem decode_encoded {s₁ e₁ s₂ e₂ : List UInt8} (h₁ : Encodes s₁ e₁) (h₂ : Encodes s₂ e₂)
    (rest₁ rest₂ rest : List UInt8) :
    urlDecode (e₁ ++ rest₁) e₁.length = s₁ ∧
      urlDecode (e₁ ++ e₂ ++ rest) (e₁ ++ e₂).length =
        urlDecode (e₁ ++ rest₁) e₁.length ++ urlDecode (e₂ ++ rest₂) e₂.length := by
  refine ⟨h₁.urlDecode rest₁, ?_⟩
  rw [(h₁.append h₂).urlDecode rest, h₁.urlDecode rest₁, h₂.urlDecode rest₂]

theorem decode_encoded_slash : Encodes (ascii "a/%") (ascii "a%2f%25") ∧
    urlDecode (ascii "a%2f%25 HTTP") (ascii "a%2f%25").length = ascii "a/%" := by
  have h : Encodes (ascii "a/%") (ascii "a%2f%25") :=
    .plain (by decide) (by decide) (by decide) (.escaped (by decide) (by decide) (by decide)
      (by decide) (by decide) (.escaped (by decide) (by decide) (by decide) (by decide) (by decide)
        .nil))
  exact ⟨h, (decode_encoded h h (ascii " HTTP") [] []).1⟩

end Zimr
