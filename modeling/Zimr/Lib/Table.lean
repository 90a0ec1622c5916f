import Mathlib.Data.List.Nodup

/-!
# Tables that are searched from the front

A table is a list of entries, each with a key, and the entry found for a key is the first one that
has it. `alter` changes the entry that is found; `put` does so too, or appends an entry where there
is none. What is found under another key stays, and so does the number of entries with it.
-/

namespace Table

variable {α κ : Type*} [DecidableEq κ] (key : α → κ)

/-- The first entry with this key. -/
def find (t : List α) (k : κ) : Option α := t.find? fun a => key a = k

/-- The entries with this key, in order. -/
def all (t : List α) (k : κ) : List α := t.filter fun a => key a = k

/-- The first entry with this key is changed. -/
def alter (f : α → α) (k : κ) : List α → List α
  | [] => []
  | a :: t => if key a = k then f a :: t else a :: alter f k t

/-- The same, or an entry is appended. -/
def put (f : α → α) (new : α) (k : κ) (t : List α) : List α :=
  if (find key t k).isSome then alter key f k t else t ++ [new]

variable {key} {f : α → α} {k k' : κ} {a new : α} {t : List α}

/-! ## Searching -/

theorem find_cons_self (h : key a = k) : find key (a :: t) k = some a :=
  List.find?_cons_of_pos (decide_eq_true h)

theorem find_cons_other (h : key a ≠ k) : find key (a :: t) k = find key t k :=
  List.find?_cons_of_neg (by simpa using h)

theorem find_eq_none : find key t k = none ↔ ∀ a ∈ t, key a ≠ k := by
  unfold find
  rw [List.find?_eq_none]
  constructor
  · intro h a ha
    simpa using h a ha
  · intro h a ha
    simpa using h a ha

theorem all_cons_self (h : key a = k) : all key (a :: t) k = a :: all key t k :=
  List.filter_cons_of_pos (decide_eq_true h)

theorem all_cons_other (h : key a ≠ k) : all key (a :: t) k = all key t k :=
  List.filter_cons_of_neg (by simpa using h)

/-- A key that is found is one of the table. -/
theorem isSome_find : (find key t k).isSome = true ↔ k ∈ t.map key := by
  rw [Option.isSome_iff_ne_none, ne_eq, find_eq_none, List.mem_map]
  push Not
  rfl

theorem find_append (t s : List α) (k : κ) :
    find key (t ++ s) k = (find key t k).or (find key s k) := List.find?_append

theorem all_append (t s : List α) (k : κ) : all key (t ++ s) k = all key t k ++ all key s k :=
  List.filter_append t s

theorem find_eq_head (t : List α) (k : κ) : find key t k = (all key t k).head? := by
  unfold find all
  rw [List.head?_filter]

/-! ## Changing the entry that is found -/

section Alter

variable (hf : ∀ a, key (f a) = key a)
include hf

theorem find_alter_self : find key (alter key f k t) k = (find key t k).map f := by
  induction t with
  | nil => rfl
  | cons a t ih =>
    rw [alter]
    by_cases h : key a = k
    · rw [if_pos h, find_cons_self h, find_cons_self ((hf a).trans h)]
      rfl
    · rw [if_neg h, find_cons_other h, find_cons_other h, ih]

/-- The first of the entries with the key is another. -/
theorem all_alter_self : all key (alter key f k t) k = (all key t k).modifyHead f := by
  induction t with
  | nil => rfl
  | cons a t ih =>
    rw [alter]
    by_cases h : key a = k
    · rw [if_pos h, all_cons_self h, all_cons_self ((hf a).trans h)]
      rfl
    · rw [if_neg h, all_cons_other h, all_cons_other h, ih]

/-- The entries with another key are the same. -/
theorem all_alter_other (hk : k' ≠ k) : all key (alter key f k t) k' = all key t k' := by
  induction t with
  | nil => rfl
  | cons a t ih =>
    rw [alter]
    by_cases h : key a = k
    · -- the entry that is changed is of the one key before and after
      have ha : key a ≠ k' := fun h' => hk (h'.symm.trans h)
      have hfa : key (f a) ≠ k' := (hf a).symm ▸ ha
      rw [if_pos h, all_cons_other ha, all_cons_other hfa]
    · rw [if_neg h]
      by_cases h' : key a = k'
      · rw [all_cons_self h', all_cons_self h', ih]
      · rw [all_cons_other h', all_cons_other h', ih]

end Alter

theorem length_alter : (alter key f k t).length = t.length := by
  induction t with
  | nil => rfl
  | cons a t ih =>
    rw [alter]
    split
    · rfl
    · exact congrArg (· + 1) ih

theorem mem_alter (h : a ∈ alter key f k t) : a ∈ t ∨ ∃ b ∈ t, key b = k ∧ a = f b := by
  induction t with
  | nil => exact (List.not_mem_nil h).elim
  | cons b t ih =>
    rw [alter] at h
    by_cases hb : key b = k
    · rw [if_pos hb] at h
      rcases List.mem_cons.1 h with rfl | h
      · exact Or.inr ⟨b, List.mem_cons_self, hb, rfl⟩
      · exact Or.inl (List.mem_cons_of_mem _ h)
    · rw [if_neg hb] at h
      rcases List.mem_cons.1 h with rfl | h
      · exact Or.inl List.mem_cons_self
      · rcases ih h with h | ⟨c, hc, hk, rfl⟩
        · exact Or.inl (List.mem_cons_of_mem _ h)
        · exact Or.inr ⟨c, List.mem_cons_of_mem _ hc, hk, rfl⟩

/-! ## Putting an entry -/

section Put

variable (hf : ∀ a, key (f a) = key a) (hnew : key new = k)
include hf hnew

theorem find_put_self : find key (put key f new k t) k = some ((find key t k).elim new f) := by
  unfold put
  cases h : find key t k with
  | none =>
    have hs : ¬(none : Option α).isSome = true := Bool.false_ne_true
    rw [if_neg hs, find_append, h, find_cons_self hnew]
    rfl
  | some a =>
    rw [if_pos Option.isSome_some, find_alter_self hf, h]
    rfl

/-- A key with at most one entry has one now. -/
theorem all_put_self (h : (all key t k).length ≤ 1) :
    all key (put key f new k t) k = [(find key t k).elim new f] := by
  unfold put
  rw [find_eq_head]
  cases ht : all key t k with
  | nil =>
    have hs : ¬(none : Option α).isSome = true := Bool.false_ne_true
    rw [List.head?_nil, if_neg hs, all_append, ht, all_cons_self hnew]
    rfl
  | cons a l =>
    rw [ht, List.length_cons] at h
    obtain rfl : l = [] := List.eq_nil_of_length_eq_zero (by omega)
    rw [List.head?_cons, if_pos Option.isSome_some, all_alter_self hf, ht]
    rfl

theorem all_put_other (hk : k' ≠ k) : all key (put key f new k t) k' = all key t k' := by
  unfold put
  split
  · exact all_alter_other hf hk
  · rw [all_append]
    have hnil : all key [new] k' = [] := all_cons_other fun h => hk (h.symm.trans hnew)
    rw [hnil, List.append_nil]

theorem find_put_other (hk : k' ≠ k) : find key (put key f new k t) k' = find key t k' := by
  rw [find_eq_head, find_eq_head, all_put_other hf hnew hk]

end Put

theorem length_put_mem (h : k ∈ t.map key) : (put key f new k t).length = t.length := by
  unfold put
  rw [if_pos (isSome_find.2 h), length_alter]

theorem length_put_new (h : k ∉ t.map key) : (put key f new k t).length = t.length + 1 := by
  unfold put
  rw [if_neg (mt isSome_find.1 h), List.length_append]
  rfl

theorem mem_put (h : a ∈ put key f new k t) : a ∈ t ∨ (∃ b ∈ t, key b = k ∧ a = f b) ∨ a = new := by
  unfold put at h
  split at h
  · exact (mem_alter h).imp_right Or.inl
  · exact (List.mem_append.1 h).imp_right fun h => Or.inr (List.mem_singleton.1 h)

end Table
