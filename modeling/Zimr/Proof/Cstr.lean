import Mathlib.Data.List.TakeWhile
import Mathlib.Tactic.Tauto
import Zimr.Spec.Cstr

/-!
# Searching in a buffer

What `strnstr` finds stays where it is when the buffer grows, and it finds the first place.
-/

namespace Zimr

variable {s t f : List UInt8} {n m i : ℕ}

theorem startswith_iff : startswith s f = true ↔ f <+: s := List.isPrefixOf_iff_prefix

theorem startswith_append (h : startswith s f = true) (t : List UInt8) :
    startswith (s ++ t) f = true :=
  startswith_iff.2 ((startswith_iff.1 h).trans (List.prefix_append s t))

/-- Whether a buffer that is long enough starts with `f` does not depend on what follows. -/
theorem startswith_append_iff (h : f.length ≤ s.length) (t : List UInt8) :
    startswith (s ++ t) f = startswith s f := by
  apply Bool.eq_iff_iff.2
  constructor
  · intro hst
    exact startswith_iff.2 (List.prefix_of_prefix_length_le (startswith_iff.1 hst)
      (List.prefix_append s t) h)
  · intro hs
    exact startswith_append hs t

theorem strnstr_cons {c : UInt8} (h : f.length ≤ n ∧ c ≠ 0) :
    strnstr (c :: s) f n =
      if startswith (c :: s) f then some 0 else (strnstr s f (n - 1)).map (· + 1) := by
  rw [strnstr, if_pos h]

/-- What is found is there, within the bound, and no NUL stands before it. -/
theorem strnstr_spec : ∀ {s : List UInt8} {n i : ℕ}, strnstr s f n = some i →
    i + f.length ≤ n ∧ f <+: s.drop i ∧ i < s.length ∧ ∀ c ∈ s.take i, c ≠ 0 := by
  intro s
  induction s with
  | nil => intro n i h; cases h
  | cons c s ih =>
    intro n i h
    by_cases hc : f.length ≤ n ∧ c ≠ 0
    · rw [strnstr_cons hc] at h
      split at h
      · rename_i hs
        cases h
        exact ⟨by omega, startswith_iff.1 hs, by simp, by simp⟩
      · rename_i hs
        obtain ⟨j, hj, rfl⟩ := Option.map_eq_some_iff.1 h
        obtain ⟨h1, h2, h3, h4⟩ := ih hj
        have hf : 0 < f.length := List.length_pos_iff.2 fun e => hs (by rw [e]; rfl)
        refine ⟨by omega, h2, by simpa using h3, ?_⟩
        intro b hb
        rw [List.take_succ_cons, List.mem_cons] at hb
        obtain rfl | hb := hb
        · exact hc.2
        · exact h4 b hb
    · rw [strnstr, if_neg hc] at h
      cases h

theorem strnstr_le (h : strnstr s f n = some i) : i + f.length ≤ s.length := by
  obtain ⟨-, hp, hi, -⟩ := strnstr_spec h
  have := hp.length_le
  rw [List.length_drop] at this
  omega

/-- The place stays the same when the buffer grows. -/
theorem strnstr_append (t : List UInt8) : ∀ {s : List UInt8} {n i : ℕ},
    strnstr s f n = some i → strnstr (s ++ t) f n = some i := by
  intro s
  induction s with
  | nil => intro n i h; cases h
  | cons c s ih =>
    intro n i h
    have hle := strnstr_le h
    by_cases hc : f.length ≤ n ∧ c ≠ 0
    · rw [List.cons_append, strnstr_cons hc, ← List.cons_append,
        startswith_append_iff (by omega)]
      rw [strnstr_cons hc] at h
      split at h
      · rename_i hs; rw [if_pos hs]; exact h
      · rename_i hs
        rw [if_neg hs]
        obtain ⟨j, hj, rfl⟩ := Option.map_eq_some_iff.1 h
        rw [ih hj]
        rfl
    · rw [strnstr, if_neg hc] at h
      cases h

/-- It stays the same with another bound that leaves room for it. -/
theorem strnstr_bound : ∀ {s : List UInt8} {n m i : ℕ},
    strnstr s f n = some i → i + f.length ≤ m → strnstr s f m = some i := by
  intro s
  induction s with
  | nil => intro n m i h; cases h
  | cons c s ih =>
    intro n m i h hm
    by_cases hc : f.length ≤ n ∧ c ≠ 0
    · rw [strnstr_cons hc] at h
      rw [strnstr_cons ⟨by omega, hc.2⟩]
      split at h
      · rename_i hs; rw [if_pos hs]; exact h
      · rename_i hs
        rw [if_neg hs]
        obtain ⟨j, hj, rfl⟩ := Option.map_eq_some_iff.1 h
        rw [ih hj (by omega)]
        rfl
    · rw [strnstr, if_neg hc] at h
      cases h

/-- What is there is found, at the latest where it is. -/
theorem strnstr_exists (hf : f ≠ []) : ∀ (a b : List UInt8) (n : ℕ), (∀ c ∈ a, c ≠ 0) →
    (∀ c ∈ f, c ≠ 0) → a.length + f.length ≤ n →
    ∃ i, i ≤ a.length ∧ strnstr (a ++ f ++ b) f n = some i := by
  intro a
  induction a with
  | nil =>
    intro b n _ hz hn
    refine ⟨0, Nat.le_refl 0, ?_⟩
    cases f with
    | nil => exact absurd rfl hf
    | cons c f =>
      have hc : (c :: f).length ≤ n ∧ c ≠ 0 := ⟨by simpa using hn, hz c List.mem_cons_self⟩
      have hs : startswith (c :: (f ++ b)) (c :: f) = true :=
        startswith_iff.2 (List.prefix_append (c :: f) b)
      show strnstr (c :: (f ++ b)) (c :: f) n = some 0
      rw [strnstr_cons hc, if_pos hs]
  | cons c a ih =>
    intro b n ha hz hn
    rw [List.length_cons] at hn
    obtain ⟨i, hi, hs⟩ := ih b (n - 1) (fun x hx => ha x (List.mem_cons_of_mem _ hx)) hz (by omega)
    rw [List.cons_append, List.cons_append, strnstr_cons ⟨by omega, ha c List.mem_cons_self⟩]
    split
    · exact ⟨0, Nat.zero_le _, rfl⟩
    · exact ⟨i + 1, by simpa using hi, by rw [hs]; rfl⟩

/-- It was there before the buffer grew, if there was room for it. -/
theorem strnstr_of_append (t : List UInt8) : ∀ {s : List UInt8} {n i : ℕ},
    strnstr (s ++ t) f n = some i → i + f.length ≤ s.length → i < s.length →
    strnstr s f n = some i := by
  intro s
  induction s with
  | nil => intro n i _ _ hi; exact absurd hi (by simp)
  | cons c s ih =>
    intro n i h hi hlt
    by_cases hc : f.length ≤ n ∧ c ≠ 0
    · rw [List.cons_append, strnstr_cons hc, ← List.cons_append,
        startswith_append_iff (by omega)] at h
      rw [strnstr_cons hc]
      split at h
      · rename_i hs; rw [if_pos hs]; exact h
      · rename_i hs
        rw [if_neg hs]
        obtain ⟨j, hj, rfl⟩ := Option.map_eq_some_iff.1 h
        rw [List.length_cons] at hi hlt
        rw [ih hj (by omega) (by omega)]
        rfl
    · rw [List.cons_append, strnstr, if_neg hc] at h
      cases h

/-- A field of a header: where its name is found, and where the line ends after it. -/
theorem strnstr_field {head before name value after crlf : List UInt8}
    (hhead : head = before ++ (crlf ++ name) ++ value ++ crlf ++ after) (hz : ∀ c ∈ head, c ≠ 0)
    (hname : name ≠ []) (hcrlf : crlf ≠ []) :
    ∃ i j, strnstr head name head.length = some i ∧
      strnstr (head.drop (i + name.length)) crlf (head.drop (i + name.length)).length = some j := by
  have hmem : ∀ c, c ∈ before ∨ c ∈ crlf ∨ c ∈ name ∨ c ∈ value → c ≠ 0 := by
    intro c hc
    refine hz c ?_
    rw [hhead]
    simp only [List.mem_append]
    tauto
  obtain ⟨i, hi, hfind⟩ := strnstr_exists hname (before ++ crlf) (value ++ crlf ++ after) head.length
    (fun c hc => hmem c (by rw [List.mem_append] at hc; tauto))
    (fun c hc => hmem c (Or.inr (Or.inr (Or.inl hc))))
    (by rw [hhead]; simp only [List.length_append]; omega)
  have hfound : strnstr head name head.length = some i := by
    rw [← hfind]
    congr 1
    rw [hhead]
    simp only [List.append_assoc]
  have hlong : i + name.length ≤ (before ++ (crlf ++ name) ++ value).length := by
    simp only [List.length_append] at hi ⊢
    omega
  have hdrop : head.drop (i + name.length) =
      (before ++ (crlf ++ name) ++ value).drop (i + name.length) ++ crlf ++ after := by
    have hsplit : head = (before ++ (crlf ++ name) ++ value) ++ (crlf ++ after) := by
      rw [hhead, List.append_assoc]
    rw [hsplit, List.drop_append_of_le_length hlong]
    exact (List.append_assoc _ _ _).symm
  obtain ⟨j, -, hline⟩ := strnstr_exists hcrlf
    ((before ++ (crlf ++ name) ++ value).drop (i + name.length)) after
    (head.drop (i + name.length)).length
    (fun c hc => hmem c (by
      have := List.mem_of_mem_drop hc
      simp only [List.mem_append] at this
      tauto))
    (fun c hc => hmem c (Or.inr (Or.inl hc)))
    (by rw [hdrop]; simp only [List.length_append]; omega)
  rw [← hdrop] at hline
  exact ⟨i, j, hfound, hline⟩

/-- It is the first place. -/
theorem strnstr_first : ∀ {s : List UInt8} {n i : ℕ}, strnstr s f n = some i →
    ∀ j < i, ¬f <+: s.drop j := by
  intro s
  induction s with
  | nil => intro n i h; cases h
  | cons c s ih =>
    intro n i h j hj
    by_cases hc : f.length ≤ n ∧ c ≠ 0
    · rw [strnstr_cons hc] at h
      split at h
      · cases h
        exact absurd hj (Nat.not_lt_zero j)
      · rename_i hs
        obtain ⟨k, hk, rfl⟩ := Option.map_eq_some_iff.1 h
        cases j with
        | zero => exact fun hp => hs (startswith_iff.2 hp)
        | succ j => exact ih hk j (Nat.lt_of_succ_lt_succ hj)
    · rw [strnstr, if_neg hc] at h
      cases h

/-! ## `strstr` -/

theorem strstr_cons {c : UInt8} (hc : c ≠ 0) :
    strstr (c :: s) f = if startswith (c :: s) f then some 0 else (strstr s f).map (· + 1) := by
  have hlen : f.length ≤ (c :: s).length + f.length := Nat.le_add_left _ _
  unfold strstr
  rw [strnstr_cons ⟨hlen, hc⟩, List.length_cons]
  have hn : s.length + 1 + f.length - 1 = s.length + f.length := by omega
  rw [hn]

/-- The search skips a text in which nothing starts. -/
theorem strstr_skip : ∀ {a : List UInt8}, 0 ∉ a → (∀ i < a.length, ¬f <+: (a ++ s).drop i) →
    strstr (a ++ s) f = (strstr s f).map (· + a.length) := by
  intro a
  induction a with
  | nil => intro _ _; exact Option.map_id'.symm
  | cons c a ih =>
    intro hz hno
    have hc : c ≠ 0 := fun h => hz (h ▸ List.mem_cons_self)
    have h0 : startswith (c :: (a ++ s)) f ≠ true := fun h =>
      hno 0 (Nat.succ_pos _) (startswith_iff.1 h)
    have hih := ih (fun h => hz (List.mem_cons_of_mem _ h)) fun i hi =>
      hno (i + 1) (Nat.succ_lt_succ hi)
    rw [List.cons_append, strstr_cons hc, if_neg h0, hih, Option.map_map, List.length_cons]
    rfl

theorem strstr_self {c : UInt8} (hc : c ≠ 0) (t : List UInt8) :
    strstr (c :: f ++ t) (c :: f) = some 0 := by
  rw [List.cons_append, strstr_cons hc, if_pos]
  exact startswith_iff.2 (List.prefix_append (c :: f) t)

/-- What begins with `c` does not start where there is none. -/
theorem no_prefix_char {a : List UInt8} {c : UInt8} (hc : c ∉ a) {i : ℕ} (hi : i < a.length) :
    ¬c :: f <+: (a ++ s).drop i := by
  intro h
  rw [List.drop_append_of_le_length (Nat.le_of_lt hi), List.drop_eq_getElem_cons hi,
    List.cons_append, List.cons_prefix_cons] at h
  exact hc (h.1 ▸ List.getElem_mem hi)

/-- The first place of a text that begins with a character not seen before it. -/
theorem strstr_char {a : List UInt8} {c : UInt8} (hz : 0 ∉ a) (hc : c ≠ 0) (ha : c ∉ a)
    (t : List UInt8) : strstr (a ++ (c :: f ++ t)) (c :: f) = some a.length := by
  rw [strstr_skip hz fun i hi => no_prefix_char ha hi, strstr_self hc]
  exact congrArg some (Nat.zero_add _)

/-- What has no `c` in it and starts before a `c` ends before it. -/
theorem prefix_before {a : List UInt8} {c : UInt8} {i : ℕ} (hc : c ∉ f)
    (h : f <+: (a ++ c :: t).drop i) (hi : i ≤ a.length) : f <+: a.drop i := by
  rw [List.drop_append_of_le_length hi] at h
  have hc' : a.drop i ++ [c] <+: a.drop i ++ c :: t := ⟨t, by rw [List.append_assoc]; rfl⟩
  rcases List.prefix_or_prefix_of_prefix h hc' with h | h
  · rcases List.prefix_concat_iff.1 h with rfl | h
    · exact absurd (List.mem_append_right _ List.mem_cons_self) hc
    · exact h
  · exact absurd (h.subset (List.mem_append_right _ List.mem_cons_self)) hc

/-- Nothing without a `c` in it starts in a text that does not have it, before a `c`. -/
theorem no_prefix_before {a : List UInt8} {c : UInt8} (hc : c ∉ f) (hno : ¬f <:+: a)
    {i : ℕ} (hi : i ≤ a.length) : ¬f <+: (a ++ c :: t).drop i := fun h =>
  hno ((prefix_before hc h hi).isInfix.trans (List.drop_suffix i a).isInfix)

/-- The same for a text that is cut by a `c`. -/
theorem infix_of_sep {a b : List UInt8} {c : UInt8} (hc : c ∉ f) (h : f <:+: a ++ c :: b) :
    f <:+: a ∨ f <:+: b := by
  obtain ⟨x, y, hxy⟩ := h
  have hpre : f <+: (a ++ c :: b).drop x.length := by
    rw [← hxy, List.append_assoc, List.drop_left]
    exact List.prefix_append f y
  by_cases hx : x.length ≤ a.length
  · exact Or.inl ((prefix_before hc hpre hx).isInfix.trans (List.drop_suffix _ a).isInfix)
  · obtain ⟨j, hj⟩ : ∃ j, x.length = a.length + (j + 1) := ⟨x.length - a.length - 1, by omega⟩
    rw [hj, ← List.drop_drop, List.drop_left, List.drop_succ_cons] at hpre
    exact Or.inr (hpre.isInfix.trans (List.drop_suffix j b).isInfix)

theorem cstr_eq_self (h : ∀ c ∈ s, c ≠ 0) : cstr s = s := by
  unfold cstr
  rw [List.takeWhile_eq_self_iff]
  intro c hc
  simpa using h c hc

theorem cstr_append_nul (hz : 0 ∉ s) (t : List UInt8) : cstr (s ++ 0 :: t) = s := by
  unfold cstr
  rw [List.takeWhile_append_of_pos fun c hc => by simpa using fun h : c = 0 => hz (h ▸ hc),
    List.takeWhile_cons_of_neg (by simp), List.append_nil]

theorem cstr_ne_zero {c : UInt8} (h : c ∈ cstr s) : c ≠ 0 := by
  have := List.mem_takeWhile_imp h
  simpa using this

/-- The first place of a character. -/
theorem strchr_first {a : List UInt8} {c : UInt8} (hz : 0 ∉ a) (hc : c ≠ 0) (ha : c ∉ a)
    (t : List UInt8) : strchr (a ++ c :: t) c = some a.length := by
  have hcstr : cstr (a ++ c :: t) = a ++ c :: cstr t := by
    unfold cstr
    rw [List.takeWhile_append_of_pos, List.takeWhile_cons_of_pos (by simpa using hc)]
    intro x hx
    exact decide_eq_true fun h => hz (h ▸ hx)
  unfold strchr
  rw [hcstr, List.findIdx?_append, List.findIdx?_eq_none_iff.2, List.findIdx?_cons,
    if_pos (by simp)]
  · exact congrArg some (Nat.zero_add _)
  · intro x hx
    exact decide_eq_false fun h => ha (h ▸ hx)

theorem leNum_leBytes (k v : ℕ) : leNum (leBytes k v) = v % Nat.pow 256 k := by
  induction k generalizing v with
  | zero => exact (Nat.mod_one v).symm
  | succ k ih =>
    have hb : (UInt8.ofNat (v % 256)).toNat = v % 256 := by
      rw [UInt8.toNat_ofNat']
      omega
    have hp : Nat.pow 256 (k + 1) = 256 * Nat.pow 256 k := Nat.mul_comm _ _
    rw [leBytes, leNum, ih, hb, hp, Nat.mod_mul]

theorem strtoumax_lt (s : List UInt8) : strtoumax s < sizeMod := by
  unfold strtoumax
  simp only
  generalize (numAuto _).1 = v
  unfold sizeMod
  split
  · omega
  · split
    · exact Nat.mod_lt _ (by omega)
    · omega

end Zimr
