import Mathlib.Data.List.Nodup

/-!
# A set in the order of insertion

A history of insertions and removals, the newest first, leaves a list (`order`). `insertedAt` says
when an element of it was put in: an element that is there already is not put in again. The list has
just these elements (`mem_order_iff`), in that order (`order_sorted`).
-/

namespace Ordered

inductive Op (α : Type*)
  | add (a : α)
  | remove (a : α)

variable {α : Type*} [DecidableEq α] {past : List (Op α)} {a b : α}

def put (l : List α) : Op α → List α
  | .add a => if a ∈ l then l else l ++ [a]
  | .remove a => l.erase a

/-- The list after a history. -/
def order : List (Op α) → List α
  | [] => []
  | o :: past => put (order past) o

/-- How many operations there were when `a` was put in, if it is still there. -/
def insertedAt : List (Op α) → α → Option ℕ
  | [], _ => none
  | .add b :: past, a =>
    if a = b ∧ insertedAt past a = none then some past.length else insertedAt past a
  | .remove b :: past, a => if a = b then none else insertedAt past a

/-- `a` was put in before `b`. -/
def Before (past : List (Op α)) (a b : α) : Prop :=
  ∃ m n, insertedAt past a = some m ∧ insertedAt past b = some n ∧ m < n

theorem order_nodup : ∀ past : List (Op α), (order past).Nodup := by
  intro past
  induction past with
  | nil => exact List.nodup_nil
  | cons o past ih =>
    cases o with
    | add a =>
      rw [order, put]
      split
      · exact ih
      · rename_i ha
        rw [List.nodup_append_comm]
        exact List.nodup_cons.2 ⟨ha, ih⟩
    | remove a => exact ih.erase a

theorem insertedAt_lt : ∀ {past : List (Op α)} {m : ℕ}, insertedAt past a = some m →
    m < past.length := by
  intro past
  induction past with
  | nil => intro m h; cases h
  | cons o past ih =>
    intro m h
    rw [List.length_cons]
    cases o with
    | add b =>
      rw [insertedAt] at h
      split at h
      · cases h
        exact Nat.lt_succ_self _
      · exact Nat.lt_succ_of_lt (ih h)
    | remove b =>
      rw [insertedAt] at h
      split at h
      · cases h
      · exact Nat.lt_succ_of_lt (ih h)

/-- **The elements that were put in and not taken out since.** -/
theorem mem_order_iff : ∀ {past : List (Op α)}, a ∈ order past ↔ (insertedAt past a).isSome := by
  intro past
  induction past with
  | nil => exact ⟨fun h => (List.not_mem_nil h).elim, fun h => by cases h⟩
  | cons o past ih =>
    cases o with
    | add b =>
      rw [order, put, insertedAt]
      by_cases hab : a = b ∧ insertedAt past a = none
      · rw [if_pos hab]
        refine ⟨fun _ => rfl, fun _ => ?_⟩
        obtain ⟨rfl, hnone⟩ := hab
        have ha : a ∉ order past := fun h => by rw [ih, hnone] at h; cases h
        rw [if_neg ha]
        exact List.mem_append_right _ List.mem_cons_self
      · rw [if_neg hab, ← ih]
        split
        · exact Iff.rfl
        · rename_i hb
          rw [List.mem_append, List.mem_singleton]
          refine ⟨fun h => h.resolve_right ?_, Or.inl⟩
          rintro rfl
          exact hab ⟨rfl, by rwa [← Option.not_isSome_iff_eq_none, ← ih]⟩
    | remove b =>
      rw [order, put, insertedAt, (order_nodup past).mem_erase_iff, ih]
      by_cases hab : a = b
      · rw [if_pos hab]
        exact ⟨fun h => absurd hab h.1, fun h => by cases h⟩
      · rw [if_neg hab]
        exact ⟨And.right, fun h => ⟨hab, h⟩⟩

theorem insertedAt_add (h : a ≠ b) : insertedAt (.add b :: past) a = insertedAt past a := by
  rw [insertedAt, if_neg fun hab => h hab.1]

theorem insertedAt_remove (h : a ≠ b) : insertedAt (.remove b :: past) a = insertedAt past a := by
  rw [insertedAt, if_neg h]

/-- **They stand in the order in which they were put in.** -/
theorem order_sorted : ∀ past : List (Op α), (order past).Pairwise (Before past) := by
  intro past
  induction past with
  | nil => exact List.Pairwise.nil
  | cons o past ih =>
    cases o with
    | add b =>
      rw [order, put]
      split
      · rename_i hb
        -- nothing is put in
        refine ih.imp fun {x y} hxy => ?_
        have hsame : ∀ z, insertedAt (.add b :: past) z = insertedAt past z := by
          intro z
          refine if_neg fun h => ?_
          rw [h.1] at h
          rw [mem_order_iff, h.2] at hb
          cases hb
        unfold Before
        rw [hsame, hsame]
        exact hxy
      · rename_i hb
        have hnone : insertedAt past b = none := by
          rwa [← Option.not_isSome_iff_eq_none, ← mem_order_iff]
        have hother : ∀ z ∈ order past, insertedAt (.add b :: past) z = insertedAt past z :=
          fun z hz => insertedAt_add fun h => hb (h ▸ hz)
        refine List.pairwise_append.2 ⟨ih.imp_of_mem fun {x y} hx hy hxy => ?_,
          List.pairwise_singleton _ _, fun x hx y hy => ?_⟩
        · unfold Before
          rw [hother x hx, hother y hy]
          exact hxy
        · rw [List.mem_singleton.1 hy]
          obtain ⟨m, hm⟩ := Option.isSome_iff_exists.1 (mem_order_iff.1 hx)
          refine ⟨m, past.length, by rw [hother x hx]; exact hm, ?_, insertedAt_lt hm⟩
          rw [insertedAt, if_pos ⟨rfl, hnone⟩]
    | remove b =>
      refine (ih.sublist List.erase_sublist).imp_of_mem fun {x y} hx hy hxy => ?_
      rw [order, put, (order_nodup past).mem_erase_iff] at hx hy
      unfold Before
      rw [insertedAt_remove hx.1, insertedAt_remove hy.1]
      exact hxy

end Ordered
