import Zimr.Proof.Cstr
import Zimr.Spec.Search

/-!
# What the loop of `strnstr` finds

With the length of `find` in hand the loop is the search of the other modules (`strnstrLoop_eq`).
`strnstr_first_iff` says for which `find` it is in hand.
-/

namespace Zimr

variable {mem s find : List UInt8} {slen i : ℕ}

/-! ## Comparing -/

theorem strncmpEq_same {c : UInt8} (hc : c ≠ 0) (mem find : List UInt8) (n : ℕ) :
    strncmpEq (c :: mem) (c :: find) (n + 1) = strncmpEq mem find n :=
  (if_neg (not_not.2 rfl)).trans (if_neg hc)

theorem strncmpEq_other {c d : UInt8} (hc : c ≠ d) (mem find : List UInt8) (n : ℕ) :
    strncmpEq (c :: mem) (d :: find) (n + 1) = .ok false :=
  if_pos hc

/-- A text that starts with the first `k` bytes compares equal over these. -/
theorem strncmpEq_of_prefix (hz : 0 ∉ find) : ∀ {k : ℕ}, k ≤ find.length → find.take k <+: mem →
    strncmpEq mem find k = .ok true := by
  induction find generalizing mem with
  | nil =>
    intro k hk _
    rw [Nat.le_zero.1 hk]
    cases mem <;> rfl
  | cons d find ih =>
    intro k hk hp
    cases k with
    | zero => cases mem <;> rfl
    | succ k =>
      obtain ⟨hd, hz⟩ := not_or.1 (mt List.mem_cons.2 hz)
      obtain ⟨t, rfl⟩ := hp
      rw [List.take_succ_cons, List.cons_append, strncmpEq_same (Ne.symm hd)]
      exact ih hz (Nat.le_of_succ_le_succ hk) (List.prefix_append _ _)

/-- The comparison does not go past a difference, or past the NUL of the text. -/
theorem strncmpEq_eq (hz : 0 ∉ find) (h : find.length ≤ mem.length ∨ 0 ∈ mem) :
    strncmpEq mem find find.length = .ok (startswith mem find) := by
  induction find generalizing mem with
  | nil => cases mem <;> rfl
  | cons d find ih =>
    obtain ⟨hd, hz⟩ := not_or.1 (mt List.mem_cons.2 hz)
    cases mem with
    | nil =>
      rcases h with h | h
      · exact absurd h (Nat.not_succ_le_zero _)
      · exact (List.not_mem_nil h).elim
    | cons c mem =>
      rw [List.length_cons]
      by_cases hc : c = d
      · have hrest : find.length ≤ mem.length ∨ 0 ∈ mem := by
          refine h.imp Nat.le_of_succ_le_succ fun h => (List.mem_cons.1 h).resolve_left ?_
          rw [hc]
          exact hd
        rw [hc, strncmpEq_same (Ne.symm hd), ih hz hrest]
        refine congrArg Except.ok (Bool.eq_iff_iff.2 ?_)
        rw [startswith_iff, startswith_iff, List.cons_prefix_cons]
        exact ⟨fun hp => ⟨rfl, hp⟩, And.right⟩
      · rw [strncmpEq_other hc]
        refine congrArg Except.ok (Eq.symm (Bool.eq_false_iff.2 fun hs => hc ?_))
        exact (List.cons_prefix_cons.1 (startswith_iff.1 hs)).1.symm

/-! ## The loop -/

/-- **The loop is the search**, and it stays below the bound. -/
theorem strnstrLoop_eq (hne : find ≠ []) (hz : 0 ∉ find) (h : slen ≤ mem.length ∨ 0 ∈ mem) :
    strnstrLoop find find.length mem slen false = .ok (strnstr mem find slen) := by
  have hpos := List.length_pos_iff.2 hne
  induction mem generalizing slen with
  | nil =>
    have hslen : slen = 0 := by
      rcases h with h | h
      · exact Nat.le_zero.1 h
      · exact (List.not_mem_nil h).elim
    rw [strnstrLoop, if_pos (by omega)]
    rfl
  | cons c s ih =>
    rw [strnstrLoop, strnstr]
    by_cases hstop : slen < find.length ∨ c = 0
    · have hno : ¬(find.length ≤ slen ∧ c ≠ 0) := fun hgo =>
        hstop.elim (Nat.not_lt.2 hgo.1) hgo.2
      rw [if_pos hstop, if_neg hno, if_neg Bool.false_ne_true]
    · obtain ⟨hbound, hc⟩ := not_or.1 hstop
      have hlen := Nat.not_lt.1 hbound
      rw [if_neg hstop, if_pos ⟨hlen, hc⟩, strncmpEq_eq hz (h.imp_left (Nat.le_trans hlen))]
      simp only [bind, Except.bind]
      cases startswith (c :: s) find with
      | true => rfl
      | false =>
        have hrest : slen - 1 ≤ s.length ∨ 0 ∈ s := by
          refine h.imp (fun h => ?_) fun h => (List.mem_cons.1 h).resolve_left (Ne.symm hc)
          rw [List.length_cons] at h
          omega
        rw [if_neg Bool.false_ne_true, if_neg Bool.false_ne_true, ih hrest]
        rfl

/-- **What is found is the first place.** -/
theorem strnstr_firstPlace (hne : find ≠ []) (hz : 0 ∉ find) (mem : List UInt8) (slen : ℕ) :
    FirstPlace mem find slen (strnstr mem find slen) where
  some i hi := by
    obtain ⟨hbound, hhere, -, htext⟩ := strnstr_spec hi
    refine ⟨⟨hhere, hbound, fun h0 => ?_⟩, fun j hj ho => strnstr_first hi j hj ho.here⟩
    obtain ⟨t, ht⟩ := hhere
    rw [List.take_add, ← ht, List.take_left, List.mem_append] at h0
    rcases h0 with h0 | h0
    · exact htext 0 h0 rfl
    · exact hz h0
  none hno i ho := by
    obtain ⟨t, ht⟩ := ho.here
    have hlen : (mem.take i).length = i := by
      have hpos := List.length_pos_iff.2 hne
      have := congrArg List.length ht
      rw [List.length_append, List.length_drop] at this
      rw [List.length_take]
      omega
    have htext : ∀ c ∈ mem.take i, c ≠ 0 := by
      rintro c hc rfl
      exact ho.text (List.take_subset_take_left _ (Nat.le_add_right _ _) hc)
    obtain ⟨k, -, hk⟩ := strnstr_exists hne (mem.take i) t slen htext
      (fun c hc h => hz (h ▸ hc)) (by rw [hlen]; exact ho.bound)
    rw [List.append_assoc, ht, List.take_append_drop, hno] at hk
    cases hk

/-- The memory from the bound on is of no account. -/
theorem occurs_take : Occurs (mem.take slen) find slen i ↔ Occurs mem find slen i := by
  have hdrop : i + find.length ≤ slen → (find <+: (mem.take slen).drop i ↔ find <+: mem.drop i) := by
    intro hb
    rw [List.drop_take, List.prefix_take_iff]
    exact ⟨And.left, fun h => ⟨h, by omega⟩⟩
  have htake : i + find.length ≤ slen →
      (mem.take slen).take (i + find.length) = mem.take (i + find.length) := by
    intro hb
    rw [List.take_take, Nat.min_eq_left hb]
  constructor
  · intro h
    exact ⟨(hdrop h.bound).1 h.here, h.bound, htake h.bound ▸ h.text⟩
  · intro h
    exact ⟨(hdrop h.bound).2 h.here, h.bound, (htake h.bound).symm ▸ h.text⟩

theorem searches_of_int (hne : find ≠ []) (hz : 0 ∉ find) (hint : sizeOfInt find.length = find.length) :
    Searches find := by
  intro mem slen _ h
  have htake : slen ≤ (mem.take slen).length ∨ 0 ∈ mem.take slen := by
    rw [List.length_take]
    by_cases hle : slen ≤ mem.length
    · exact Or.inl (Nat.le_min.2 ⟨Nat.le_refl _, hle⟩)
    · rw [List.take_of_length_le (Nat.le_of_not_le hle)]
      exact Or.inr (h.resolve_left hle)
  have hfirst := strnstr_firstPlace hne hz (mem.take slen) slen
  refine ⟨strnstr (mem.take slen) find slen, ?_, fun i hi => ?_, fun hno i ho => ?_⟩
  · unfold strnstrMem
    rw [hint]
    exact strnstrLoop_eq hne hz htake
  · obtain ⟨ho, hj⟩ := hfirst.some i hi
    exact ⟨occurs_take.1 ho, fun j hlt hoj => hj j hlt (occurs_take.2 hoj)⟩
  · exact hfirst.none hno i (occurs_take.2 ho)

/-! ## The length in an `int` -/

theorem sizeOfInt_lt (n : ℕ) : sizeOfInt n < sizeMod := by
  unfold sizeOfInt sizeMod
  simp only
  split <;> omega

/-- No object has 2^63 bytes or more. -/
theorem sizeOfInt_eq_iff {n : ℕ} (h : n < 9223372036854775808) :
    sizeOfInt n = n ↔ n < 2147483648 := by
  unfold sizeOfInt sizeMod
  simp only
  split <;> omega

/-- A length that the `int` makes larger: `find` is not found where it stands alone. -/
theorem not_searches_larger (hz : 0 ∉ find) (h : find.length < sizeOfInt find.length) :
    ¬Searches find := by
  intro hs
  obtain ⟨found, hrun, hfirst⟩ := hs find find.length (Nat.lt_trans h (sizeOfInt_lt _))
    (Or.inl (Nat.le_refl _))
  have hnone : found = none := by
    rw [List.take_length] at hrun
    unfold strnstrMem at hrun
    generalize sizeOfInt find.length = len at h hrun
    generalize find.length = slen at h hrun
    cases find with
    | nil =>
      rw [strnstrLoop, if_pos h] at hrun
      exact (Except.ok.inj hrun).symm
    | cons c s =>
      rw [strnstrLoop, if_pos (Or.inl h)] at hrun
      exact (Except.ok.inj hrun).symm
  refine hfirst.none hnone 0 ⟨List.prefix_refl find, Nat.le_of_eq (Nat.zero_add _), ?_⟩
  rw [Nat.zero_add, List.take_length]
  exact hz

/-- One that it makes smaller: the first bytes are taken for the whole. -/
theorem not_searches_smaller (hz : 0 ∉ find) (h : sizeOfInt find.length < find.length) :
    ¬Searches find := by
  intro hs
  obtain ⟨found, hrun, hfirst⟩ := hs (find.take (sizeOfInt find.length)) (sizeOfInt find.length)
    (sizeOfInt_lt _) (Or.inl (by rw [List.length_take]; omega))
  have hfound : found = some 0 := by
    rw [List.take_take, Nat.min_self] at hrun
    unfold strnstrMem at hrun
    generalize sizeOfInt find.length = len at h hrun
    have hcmp : strncmpEq (find.take len) find len = .ok true :=
      strncmpEq_of_prefix hz (Nat.le_of_lt h) (List.prefix_refl _)
    cases hmem : find.take len with
    | nil =>
      -- nothing is left to be read
      have hlen : len = 0 := by
        have := congrArg List.length hmem
        rw [List.length_take, List.length_nil] at this
        omega
      rw [hmem, hlen] at hrun
      cases hrun
    | cons c s =>
      have hc : c ≠ 0 := by
        rintro rfl
        exact hz (List.mem_of_mem_take (hmem ▸ List.mem_cons_self))
      rw [hmem] at hrun hcmp
      rw [strnstrLoop, if_neg (not_or.2 ⟨Nat.lt_irrefl _, hc⟩), hcmp] at hrun
      exact (Except.ok.inj hrun).symm
  have hbound := (hfirst.some 0 hfound).1.bound
  omega

/-- **`strnstr` finds the first place** exactly when the length of `find` survives the `int`: of the
texts that an object can hold, for those of fewer than 2^31 bytes. -/
theorem strnstr_first_iff (find : List UInt8) (hne : find ≠ []) (hz : 0 ∉ find) :
    (Searches find ↔ sizeOfInt find.length = find.length) ∧
      (find.length < 9223372036854775808 → (Searches find ↔ find.length < 2147483648)) := by
  have hiff : Searches find ↔ sizeOfInt find.length = find.length := by
    constructor
    · intro hs
      rcases Nat.lt_trichotomy (sizeOfInt find.length) find.length with h | h | h
      · exact absurd hs (not_searches_smaller hz h)
      · exact h
      · exact absurd hs (not_searches_larger hz h)
    · exact searches_of_int hne hz
  exact ⟨hiff, fun hlen => hiff.trans (sizeOfInt_eq_iff hlen)⟩

theorem strnstr_finds_host : Searches (ascii "Host: ") :=
  ((strnstr_first_iff (ascii "Host: ") (by decide) (by decide)).2 (by decide)).2 (by decide)

/-- A string of 2 GiB. -/
def longText : List UInt8 := List.replicate 2147483648 97

/-- Its length becomes negative, and the loop does not start. -/
theorem strnstr_overlooks : ¬∀ find : List UInt8, find ≠ [] → 0 ∉ find → Searches find := by
  intro h
  have hlen : longText.length = 2147483648 := List.length_replicate ..
  have hint : sizeOfInt 2147483648 = 18446744071562067968 := by decide
  have hz : 0 ∉ longText := fun h0 => absurd (List.eq_of_mem_replicate h0) (by decide)
  have hne : longText ≠ [] := fun hnil => by
    rw [hnil] at hlen
    cases hlen
  refine not_searches_larger hz ?_ (h longText hne hz)
  rw [hlen, hint]
  decide

end Zimr
