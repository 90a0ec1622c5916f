import Zimr.Lib.Ordered
import Zimr.Proof.Select

/-!
# The descriptor list as a set

`fd_hash_ordered_set`: whatever is added and removed, the list holds what was added and not removed
since, in that order, and the pointers are those of this list.
-/

namespace Zimr

open Chain Ordered

variable {hash : FdHash} {l : List ℕ}

/-- The loop of the callers, `n` rounds at most: what it comes to before the `-1`. -/
def FdHash.walk (hash : FdHash) : ℕ → Option ℕ → Option (List ℕ)
  | _, none => some []
  | 0, some _ => none
  | n + 1, some fd => (hash.walk n (fdHashNext hash fd)).map (fd :: ·)

/-- What a call does to the set. -/
def HashOp.effect : HashOp → Ordered.Op ℕ
  | .add fd => .add fd
  | .remove fd => .remove fd

/-- The calls, the newest first. -/
def history (ops : List HashOp) : List (Ordered.Op ℕ) := (ops.map HashOp.effect).reverse

theorem FdHash.Lists.walk (h : hash.Lists l) : ∀ (p s : List ℕ), l = p ++ s →
    hash.walk s.length s.head? = some s := by
  intro p s
  induction s generalizing p with
  | nil => intro _; rfl
  | cons a s ih =>
    intro hl
    have hnd := h.nodup
    rw [hl] at hnd
    have ha : a ∉ p := fun ha =>
      (List.nodup_cons.1 (List.nodup_middle.1 hnd)).1 (List.mem_append_left _ ha)
    have hnext : fdHashNext hash a = s.head? := by
      rw [h.next_eq, hl, nextIn_append_cons ha]
    have hrest := ih (p ++ [a]) (by rw [hl, List.append_assoc]; rfl)
    show (hash.walk s.length (fdHashNext hash a)).map (a :: ·) = some (a :: s)
    rw [hnext, hrest]
    rfl

theorem FdHash.Lists.outside (h : hash.Lists l) {fd : ℕ} (hfd : fd ∉ l) : hash.table fd = {} := by
  have hp : (hash.table fd).previous = none := by
    rw [Threaded.prev h, nextIn_of_notMem (by simpa using hfd)]
  have hn : (hash.table fd).next = none := (Threaded.next h fd).trans (nextIn_of_notMem hfd)
  cases he : hash.table fd with
  | mk previous next =>
    rw [he] at hp hn
    cases hp
    cases hn
    rfl

/-- **Every call keeps the list.** -/
theorem lists_order (ops : List HashOp) : (fdHashInit.ops ops).Lists (order (history ops)) := by
  induction ops using List.reverseRecOn with
  | nil => exact fdHashInit_lists
  | append_singleton ops o ih =>
    have hstep : fdHashInit.ops (ops ++ [o]) = (fdHashInit.ops ops).op o := List.foldl_concat ..
    have hlast : history (ops ++ [o]) = o.effect :: history ops := by
      unfold history
      rw [List.map_append, List.reverse_append]
      rfl
    rw [hstep, hlast]
    cases o with
    | add fd => exact fdHashAdd_lists ih fd
    | remove fd => exact fdHashRemove_lists ih fd

/-- What the table says about the list: where the walk comes, the ends, the pointers. -/
structure FdHash.Shows (hash : FdHash) (l : List ℕ) : Prop where
  walk : hash.walk l.length (fdHashHead hash) = some l
  head : hash.head = l.head?
  tail : hash.tail = l.getLast?
  inverse : ∀ x y, (hash.table x).next = some y ↔ (hash.table y).previous = some x
  outside : ∀ fd, fd ∉ l → hash.table fd = {}

/-- **The list is a set in the order of insertion.** -/
theorem fd_hash_ordered_set (ops : List HashOp) : ∃ l : List ℕ,
    (fdHashInit.ops ops).Shows l ∧ l.Nodup ∧
      (∀ fd, fd ∈ l ↔ (insertedAt (history ops) fd).isSome) ∧
      l.Pairwise (Before (history ops)) := by
  have h := lists_order ops
  refine ⟨order (history ops), ⟨?_, Threaded.head h, Threaded.tail h, Threaded.next_iff h, ?_⟩,
    order_nodup _, fun _ => mem_order_iff, order_sorted _⟩
  · rw [h.head_eq]
    exact h.walk [] _ rfl
  · exact fun fd hfd => h.outside hfd

end Zimr
