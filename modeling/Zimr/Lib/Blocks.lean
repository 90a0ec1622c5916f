import Mathlib.Data.List.Basic

/-!
# Hashing by blocks

A message is taken in by blocks of `n` items, each by one step of `f`; what is left, less than a
block, is kept until more comes. It does not matter how the message is cut into pieces
(`whole_append`, `rest_append`).
-/

namespace Blocks

variable {α S : Type*} (n : ℕ) (f : S → List α → S)

/-- The steps for the first `k` blocks. -/
def fold : ℕ → S → List α → S
  | 0, s, _ => s
  | k + 1, s, xs => fold k (f s (xs.take n)) (xs.drop n)

/-- The steps for all the blocks there are. -/
def whole (s : S) (xs : List α) : S := fold n f (xs.length / n) s xs

/-- What is left. -/
def rest (xs : List α) : List α := xs.drop (n * (xs.length / n))

variable {n f}

theorem fold_add (k l : ℕ) (s : S) (xs : List α) :
    fold n f (k + l) s xs = fold n f l (fold n f k s xs) (xs.drop (n * k)) := by
  induction k generalizing s xs with
  | zero => simp [fold]
  | succ k ih =>
    rw [Nat.add_right_comm]
    simp only [fold, ih, List.drop_drop]
    congr 2
    rw [Nat.mul_succ, Nat.add_comm]

/-- Only the blocks matter. -/
theorem fold_append {k : ℕ} {xs : List α} (h : n * k ≤ xs.length) (s : S) (ys : List α) :
    fold n f k s (xs ++ ys) = fold n f k s xs := by
  induction k generalizing s xs with
  | zero => rfl
  | succ k ih =>
    rw [Nat.mul_succ] at h
    have hn : n ≤ xs.length := by omega
    simp only [fold]
    rw [List.take_append_of_le_length hn, List.drop_append_of_le_length hn]
    exact ih (by rw [List.length_drop]; omega) _

theorem rest_length (xs : List α) : (rest n xs).length = xs.length % n := by
  rw [rest, List.length_drop, Nat.mod_eq_sub]

theorem mul_div_length_le (xs : List α) : n * (xs.length / n) ≤ xs.length := Nat.mul_div_le _ _

theorem rest_of_lt {xs : List α} (h : xs.length < n) : rest n xs = xs := by
  rw [rest, Nat.div_eq_of_lt h, Nat.mul_zero, List.drop_zero]

theorem whole_of_lt {xs : List α} (h : xs.length < n) (s : S) : whole n f s xs = s := by
  rw [whole, Nat.div_eq_of_lt h]; rfl

theorem length_append_div (hn : 0 < n) (xs ys : List α) :
    (xs ++ ys).length / n = xs.length / n + (rest n xs ++ ys).length / n := by
  have h : (xs ++ ys).length = n * (xs.length / n) + (rest n xs ++ ys).length := by
    rw [List.length_append, List.length_append, rest_length, ← Nat.add_assoc, Nat.div_add_mod]
  rw [h, Nat.mul_add_div hn]

/-- **The steps of a message in two pieces.** -/
theorem whole_append (hn : 0 < n) (s : S) (xs ys : List α) :
    whole n f s (xs ++ ys) = whole n f (whole n f s xs) (rest n xs ++ ys) := by
  have hle := mul_div_length_le (n := n) xs
  rw [whole, length_append_div hn, fold_add, fold_append hle, List.drop_append_of_le_length hle]
  rfl

/-- **What is left of it.** -/
theorem rest_append (hn : 0 < n) (xs ys : List α) :
    rest n (xs ++ ys) = rest n (rest n xs ++ ys) := by
  have hle := mul_div_length_le (n := n) xs
  rw [rest, length_append_div hn, Nat.mul_add, ← List.drop_drop, List.drop_append_of_le_length hle]
  rfl

/-- A block more is a step more. -/
theorem whole_block (hn : 0 < n) {xs : List α} (h : xs.length = n) (s : S) (ys : List α) :
    whole n f s (xs ++ ys) = whole n f (f s xs) ys := by
  have h₁ : whole n f s xs = f s xs := by
    rw [whole, h, Nat.div_self hn]
    simp only [fold]
    rw [List.take_of_length_le (Nat.le_of_eq h)]
  have h₂ : rest n xs = [] := List.eq_nil_of_length_eq_zero (by rw [rest_length, h, Nat.mod_self])
  rw [whole_append hn, h₁, h₂, List.nil_append]

theorem rest_block (hn : 0 < n) {xs : List α} (h : xs.length = n) (ys : List α) :
    rest n (xs ++ ys) = rest n ys := by
  have h₂ : rest n xs = [] := List.eq_nil_of_length_eq_zero (by rw [rest_length, h, Nat.mod_self])
  rw [rest_append hn, h₂, List.nil_append]

end Blocks
