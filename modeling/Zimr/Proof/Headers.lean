import Zimr.Proof.Cstr
import Zimr.Spec.Multipart

/-!
# Headers

* `headersSetHeader_get`, `headersSetHeader_other` — a header that is set is found, and the others
  are as they were
* `headersParse_lines` — lines that are well formed are read as they were written, up to the size
  of the table
-/

namespace Zimr

variable {hs hs' : Headers} {name name' value : List UInt8}

/-- A name as `headers_get_header` compares it. -/
abbrev keyOf (name : List UInt8) : List UInt8 := headerFormatname (strtolower name)

theorem setValue_get (h : (hs.any fun h => h.name = name) = true) :
    (setValue name value hs).find? (fun h => h.name = name) = some ⟨name, value⟩ := by
  induction hs with
  | nil => cases h
  | cons x xs ih =>
    rw [setValue]
    by_cases hx : x.name = name
    · rw [if_pos hx, List.find?_cons_of_pos (by simpa using hx)]
      cases x
      cases hx
      rfl
    · rw [if_neg hx, List.find?_cons_of_neg (by simpa using hx)]
      apply ih
      rw [List.any_cons] at h
      simpa [hx] using h

theorem setValue_other (hne : name' ≠ name) :
    (setValue name value hs).find? (fun h => h.name = name') =
      hs.find? (fun h => h.name = name') := by
  induction hs with
  | nil => rfl
  | cons x xs ih =>
    rw [setValue]
    by_cases hx : x.name = name
    · have hx' : x.name ≠ name' := fun h => hne (h.symm.trans hx)
      rw [if_pos hx, List.find?_cons_of_neg (by simpa using hx'),
        List.find?_cons_of_neg (by simpa using hx')]
    · rw [if_neg hx]
      by_cases hx' : x.name = name'
      · rw [List.find?_cons_of_pos (by simpa using hx'), List.find?_cons_of_pos (by simpa using hx')]
      · rw [List.find?_cons_of_neg (by simpa using hx'), List.find?_cons_of_neg (by simpa using hx'),
          ih]

/-- What `headers_set_header` does when it succeeds: it writes over the value, or appends. -/
theorem headersSetHeader_cases (h : headersSetHeader hs name value = .ok hs') :
    (hs' = setValue (keyOf name) value hs ∧ (hs.any fun h => h.name = keyOf name) = true) ∨
      (hs' = hs ++ [⟨keyOf name, value⟩] ∧
        ((hs.any fun h => h.name = keyOf name) = false ∨ keyOf name = ascii "Set-Cookie")) := by
  unfold headersSetHeader at h
  simp only at h
  split at h
  · cases h
  · split at h
    · rename_i hany
      cases h
      rw [Bool.and_eq_true] at hany
      exact Or.inl ⟨rfl, hany.1⟩
    · rename_i hany
      split at h
      · cases h
      · cases h
        refine Or.inr ⟨rfl, ?_⟩
        rw [Bool.and_eq_true, not_and_or] at hany
        rcases hany with hany | hany
        · exact Or.inl (Bool.eq_false_iff.2 hany)
        · exact Or.inr (by simpa using hany)

/-- **A header that is set is found.** -/
theorem headersSetHeader_get (hck : keyOf name ≠ ascii "Set-Cookie")
    (h : headersSetHeader hs name value = .ok hs') :
    headersGetHeader hs' name = some ⟨keyOf name, value⟩ := by
  rcases headersSetHeader_cases h with ⟨rfl, hany⟩ | ⟨rfl, hnew⟩
  · exact setValue_get hany
  · have hnone : hs.find? (fun h => h.name = keyOf name) = none := by
      have hno := hnew.resolve_right hck
      rw [List.find?_eq_none]
      rw [List.any_eq_false] at hno
      exact hno
    show (hs ++ [(⟨keyOf name, value⟩ : Header)] : List Header).find?
      (fun h => h.name = keyOf name) = _
    rw [List.find?_append, hnone, Option.none_or, List.find?_cons_of_pos (by simp)]

/-- The others are as they were. -/
theorem headersSetHeader_other (hne : keyOf name' ≠ keyOf name)
    (h : headersSetHeader hs name value = .ok hs') :
    headersGetHeader hs' name' = headersGetHeader hs name' := by
  rcases headersSetHeader_cases h with ⟨rfl, -⟩ | ⟨rfl, -⟩
  · exact setValue_other hne
  · show (hs ++ [(⟨keyOf name, value⟩ : Header)] : List Header).find?
      (fun h => h.name = keyOf name') = _
    rw [List.find?_append, List.find?_cons_of_neg (by simpa using fun h => hne h.symm)]
    simp only [List.find?_nil, Option.or_none]
    rfl

theorem setValue_length (hs : Headers) : (setValue name value hs).length = hs.length := by
  induction hs with
  | nil => rfl
  | cons h hs ih =>
    rw [setValue]
    split
    · rfl
    · rw [List.length_cons, List.length_cons, ih]

/-! ## Reading -/

/-- One line of a header block. -/
theorem headersParseLoop_line (l : HeaderLine) (left : ℕ) (hs : Headers) (s : List UInt8) :
    headersParseLoop (left + 1) hs (l.text ++ (crlf ++ s)) =
      headersParseLoop left (hs ++ [l.header]) s := by
  obtain ⟨c, n, hn⟩ := List.exists_cons_of_ne_nil l.name_ne
  have hc := l.name_char c (hn ▸ List.mem_cons_self)
  have hraw : l.text ++ (crlf ++ s) =
      l.name ++ ([58] ++ (List.replicate l.spaces 32 ++ (l.value ++ (crlf ++ s)))) := by
    simp only [HeaderLine.text, List.append_assoc, List.cons_append, List.nil_append]
  have hend : (startswith (l.text ++ (crlf ++ s)) crlf || (l.text ++ (crlf ++ s)).headD 0 = 10 ||
      (l.text ++ (crlf ++ s)).headD 0 = 0) = false := by
    have hcr : startswith (c :: (n ++ ([58] ++ (List.replicate l.spaces 32 ++
        (l.value ++ (crlf ++ s)))))) crlf = false := by
      apply Bool.eq_false_iff.2
      intro h
      exact hc.2.2.1 (List.cons_prefix_cons.1 (startswith_iff.1 h)).1.symm
    rw [hraw, hn, List.cons_append, hcr]
    simp [hc.1, hc.2.1]
  have hcolon : strstr (l.text ++ (crlf ++ s)) [58] = some (n.length + 1) := by
    have hlen : n.length + 1 = l.name.length := by rw [hn]; rfl
    rw [hraw, hlen]
    exact strstr_char (fun h => (l.name_char _ h).1 rfl) (by decide)
      (fun h => (l.name_char _ h).2.2.2 rfl) _
  have hvalue : ((l.text ++ (crlf ++ s)).drop (n.length + 2)).dropWhile (· = 32) =
      l.value ++ (crlf ++ s) := by
    have hlen : n.length + 2 = (l.name ++ [58]).length := by rw [hn]; simp
    have hhead : (l.value ++ (crlf ++ s)).dropWhile (· = 32) = l.value ++ (crlf ++ s) := by
      cases hv : l.value with
      | nil => rfl
      | cons x v =>
        have hx : x ≠ 32 := fun h => l.value_head (by rw [hv, h]; rfl)
        rw [List.cons_append, List.dropWhile_cons_of_neg (by simpa using hx)]
    rw [hraw, ← List.append_assoc, hlen, List.drop_left, List.dropWhile_append_of_pos, hhead]
    intro x hx
    simpa using List.eq_of_mem_replicate hx
  have hline : strstr (l.value ++ (crlf ++ s)) crlf = some l.value.length :=
    strstr_char (fun h => (l.value_char _ h).1 rfl) (by decide)
      (fun h => (l.value_char _ h).2 rfl) s
  have hname : (l.text ++ (crlf ++ s)).take (min (n.length + 1) (headerNameMaxLen - 1)) =
      l.name.take (headerNameMaxLen - 1) := by
    have hlen : n.length + 1 = l.name.length := by rw [hn]; rfl
    rw [hraw, hlen, List.take_append_of_le_length (Nat.min_le_left _ _), Nat.min_comm,
      ← List.take_take, List.take_length]
  have htext : (l.value ++ (crlf ++ s)).take (min l.value.length (headerValueMaxLen - 1)) =
      l.value.take (headerValueMaxLen - 1) := by
    rw [List.take_append_of_le_length (Nat.min_le_left _ _), Nat.min_comm, ← List.take_take,
      List.take_length]
  have hrest : (l.value ++ (crlf ++ s)).drop (l.value.length + 2) = s := by
    have hlen : l.value.length + 2 = (l.value ++ crlf).length := by rw [List.length_append]; rfl
    rw [← List.append_assoc, hlen, List.drop_left]
  rw [headersParseLoop, hend, hcolon]
  simp only [hvalue, hline, hname, htext, hrest]
  rfl

theorem headersParseLoop_end (left : ℕ) (hs : Headers) (s : List UInt8) :
    headersParseLoop left hs (crlf ++ s) = hs := by
  cases left with
  | zero => rfl
  | succ left => rfl

/-- **A header block is read line by line.** -/
theorem headersParse_lines (lines : List HeaderLine) (s : List UInt8) :
    headersParse (linesText (lines.map HeaderLine.text) ++ (crlf ++ s)) =
      (lines.take headersMaxNum).map HeaderLine.header := by
  have hloop : ∀ (lines : List HeaderLine) (left : ℕ) (hs : Headers),
      headersParseLoop left hs (linesText (lines.map HeaderLine.text) ++ (crlf ++ s)) =
        hs ++ (lines.take left).map HeaderLine.header := by
    intro lines
    induction lines with
    | nil =>
      intro left hs
      rw [List.take_nil, List.map_nil, List.map_nil, List.append_nil]
      exact headersParseLoop_end left hs s
    | cons l lines ih =>
      intro left hs
      cases left with
      | zero => exact (List.append_nil hs).symm
      | succ left =>
        have htext : linesText ((l :: lines).map HeaderLine.text) ++ (crlf ++ s) =
            l.text ++ (crlf ++ (linesText (lines.map HeaderLine.text) ++ (crlf ++ s))) := by
          simp only [linesText, List.map_cons, List.flatten_cons, List.append_assoc]
        rw [htext, headersParseLoop_line, ih, List.take_succ_cons, List.map_cons,
          List.append_assoc]
        rfl
  exact hloop lines headersMaxNum []

/-! ## Attributes -/

/-- The loop of `headers_get_header_attr` stops at the first `name=`. The name does not begin
anew within itself, so no place is skipped. -/
theorem attrHead_first {c : UInt8} {n : List UInt8} (hn : c ∉ n) (hc : c ≠ 61) (hz : 0 ∉ c :: n)
    (t : List UInt8) : ∀ (fuel : ℕ) (a : List UInt8), a.length < fuel → 0 ∉ a →
    ¬(c :: n) ++ [61] <:+: a → attrHead (c :: n) fuel (a ++ ((c :: n) ++ 61 :: t)) = some t := by
  intro fuel
  induction fuel with
  | zero => intro a h; exact absurd h (Nat.not_lt_zero _)
  | succ fuel ih =>
    intro a hlen ha hno
    generalize hf : c :: n = f at hz hno ih ⊢
    have hpos : 0 < f.length := hf ▸ Nat.succ_pos n.length
    obtain ⟨i, hi, hs⟩ := strnstr_exists (List.ne_nil_of_length_pos hpos) a (61 :: t)
      ((a ++ (f ++ 61 :: t)).length + f.length) (fun x hx h => ha (h ▸ hx))
      (fun x hx h => hz (h ▸ hx)) (by rw [List.length_append]; omega)
    rw [List.append_assoc] at hs
    have hfound : strstr (a ++ (f ++ 61 :: t)) f = some i := hs
    have hpre := (strnstr_spec hs).2.1
    rw [attrHead, hfound]
    rcases Nat.lt_or_eq_of_le hi with hlt | rfl
    · -- an earlier place, which no `=` follows
      by_cases hfit : i + f.length ≤ a.length
      · have hin : f <+: a.drop i := by
          rw [List.drop_append_of_le_length hi] at hpre
          exact List.prefix_of_prefix_length_le hpre (List.prefix_append _ _)
            (by rw [List.length_drop]; omega)
        obtain ⟨b, hb⟩ := hin
        have hdrop : a.drop (i + f.length) = b := by
          rw [← List.drop_drop, ← hb, List.drop_left]
        have hnext : (a ++ (f ++ 61 :: t)).drop (i + f.length) = b ++ (f ++ 61 :: t) := by
          rw [List.drop_append_of_le_length hfit, hdrop]
        have hhead : (b ++ (f ++ 61 :: t)).headD 0 ≠ 61 := by
          cases b with
          | nil =>
            rw [← hf]
            exact hc
          | cons x b =>
            intro hx
            apply hno
            have hx' : x = 61 := hx
            have hpre' : f ++ [61] <+: a.drop i := by
              rw [← hb, hx']
              exact ⟨b, by rw [List.append_assoc]; rfl⟩
            exact hpre'.isInfix.trans (List.drop_suffix i a).isInfix
        simp only [hnext]
        rw [if_neg hhead]
        have hsuf : b <:+ a := hdrop ▸ List.drop_suffix _ a
        have hblen : b.length < fuel := by
          rw [← hdrop, List.length_drop]
          omega
        exact ih b hblen (fun h => ha (hsuf.subset h)) fun h => hno (h.trans hsuf.isInfix)
      · -- the name would begin anew within itself
        exfalso
        obtain ⟨r, hr⟩ := hpre
        obtain ⟨j, hj⟩ : ∃ j, a.length = i + (j + 1) := ⟨a.length - i - 1, by omega⟩
        have hget : (f ++ r)[j + 1]? = f[0]? := by
          rw [hr, List.getElem?_drop, ← hj, List.getElem?_append_right (Nat.le_refl _),
            Nat.sub_self, List.getElem?_append_left hpos]
        rw [List.getElem?_append_left (by omega), ← hf] at hget
        exact hn (List.mem_of_getElem? hget)
    · have hnext : (a ++ (f ++ 61 :: t)).drop (a.length + f.length) = 61 :: t := by
        rw [← List.drop_drop, List.drop_left, List.drop_left]
      simp only [hnext]
      rfl

theorem attrText_all {s : List UInt8} (hs : 59 ∉ s) : attrText s = s := by
  have hnone : strchr s 59 = none := by
    unfold strchr
    rw [List.findIdx?_eq_none_iff]
    intro x hx
    apply decide_eq_false
    rintro rfl
    exact hs ((List.takeWhile_prefix _).subset hx)
  rw [attrText, hnone]
  exact List.take_length

theorem attrText_semicolon {s : List UInt8} (hz : 0 ∉ s) (hs : 59 ∉ s) (t : List UInt8) :
    attrText (s ++ 59 :: t) = s := by
  rw [attrText, strchr_first hz (by decide) hs]
  exact List.take_left

/-- A text in front without a `;` is in front of the text up to the `;` too. -/
theorem attrText_prefix {s t : List UInt8} (hs : 59 ∉ s) : s <+: attrText (s ++ t) := by
  have hle : s.length ≤ ((strchr (s ++ t) 59).getD (s ++ t).length) := by
    cases hn : strchr (s ++ t) 59 with
    | none => rw [Option.getD_none, List.length_append]; omega
    | some n =>
      by_contra hlt
      rw [Option.getD_some] at hlt
      obtain ⟨hlt', hn, -⟩ := List.findIdx?_eq_some_iff_getElem.1 hn
      obtain ⟨r, hr⟩ : cstr (s ++ t) <+: s ++ t := List.takeWhile_prefix _
      have hget : s[n]? = some 59 := by
        rw [← List.getElem?_append_left (Nat.not_le.1 hlt), ← hr, List.getElem?_append_left hlt',
          List.getElem?_eq_getElem hlt', of_decide_eq_true hn]
      exact hs (List.mem_of_getElem? hget)
  rw [attrText, List.take_append, List.take_of_length_le hle]
  exact List.prefix_append _ _

/-- An attribute in quotes. -/
theorem getHeaderAttr_quoted {c : UInt8} {n a s : List UInt8} (hn : c ∉ n) (hc : c ≠ 61)
    (hz : 0 ∉ c :: n) (ha : 0 ∉ a) (hno : ¬(c :: n) ++ [61] <:+: a) (hs : 0 ∉ s) (hq : 34 ∉ s)
    (t key : List UInt8) :
    headersGetHeaderAttr ⟨key, a ++ ((c :: n) ++ 61 :: 34 :: (s ++ 34 :: t))⟩ (some (c :: n)) =
      some s := by
  have hlen : a.length < (a ++ ((c :: n) ++ 61 :: 34 :: (s ++ 34 :: t))).length + 1 := by
    rw [List.length_append]
    omega
  rw [headersGetHeaderAttr, attrHead_first hn hc hz _ _ a hlen ha hno, Option.map_some]
  refine congrArg some ((if_pos rfl).trans ?_)
  rw [List.drop_succ_cons, List.drop_zero, strchr_first hs (by decide) hq]
  exact List.take_left

/-- An attribute without quotes, at the end. -/
theorem getHeaderAttr_plain {c : UInt8} {n a s : List UInt8} (hn : c ∉ n) (hc : c ≠ 61)
    (hz : 0 ∉ c :: n) (ha : 0 ∉ a) (hno : ¬(c :: n) ++ [61] <:+: a) (hq : s.headD 0 ≠ 34)
    (hs : 59 ∉ s) (key : List UInt8) :
    headersGetHeaderAttr ⟨key, a ++ ((c :: n) ++ 61 :: s)⟩ (some (c :: n)) = some s := by
  have hlen : a.length < (a ++ ((c :: n) ++ 61 :: s)).length + 1 := by
    rw [List.length_append]
    omega
  rw [headersGetHeaderAttr, attrHead_first hn hc hz _ _ a hlen ha hno, Option.map_some]
  exact congrArg some ((if_neg hq).trans (attrText_all hs))

end Zimr
