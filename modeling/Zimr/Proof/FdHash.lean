import Zimr.Lib.Chain
import Zimr.Spec.FdHash

/-!
# The descriptor list as a list

`fd_hash_add` appends an element that is not there, `fd_hash_remove` erases one, and
`fd_hash_head` and `fd_hash_next` read the list off.
-/

namespace Zimr

open Chain

variable {hash : FdHash} {l : List ℕ}

/-- The table holds the list `l`. -/
def FdHash.Lists (hash : FdHash) (l : List ℕ) : Prop :=
  Threaded (fun fd => (hash.table fd).previous) (fun fd => (hash.table fd).next) hash.head hash.tail l

theorem fdHashInit_lists : fdHashInit.Lists [] := Threaded.nil

theorem FdHash.Lists.linked_iff (h : hash.Lists l) (fd : ℕ) : hash.linked fd = true ↔ fd ∈ l := by
  rw [← Threaded.linked_iff h fd]
  unfold FdHash.linked
  rw [Bool.or_eq_true, Bool.or_eq_true, decide_eq_true_eq, Option.isSome_iff_ne_none,
    Option.isSome_iff_ne_none, or_assoc]

/-- **`fd_hash_add`.** -/
theorem fdHashAdd_lists (h : hash.Lists l) (fd : ℕ) :
    (fdHashAdd hash fd).Lists (if fd ∈ l then l else l ++ [fd]) := by
  unfold fdHashAdd
  by_cases hm : fd ∈ l
  · rw [if_pos ((h.linked_iff fd).2 hm), if_pos hm]
    exact h
  have hl : ¬hash.linked fd = true := fun hl => hm ((h.linked_iff fd).1 hl)
  rw [if_neg hl, if_neg hm]
  have hs := Threaded.snoc h hm
  unfold FdHash.Lists
  have hnone : (hash.table fd).previous = none ∧ (hash.table fd).next = none := by
    unfold FdHash.linked at hl
    simp only [Bool.or_eq_true, not_or, Bool.not_eq_true, Option.isSome_eq_false_iff,
      Option.isNone_iff_eq_none] at hl
    exact ⟨hl.1.2, hl.1.1⟩
  cases ht : hash.tail with
  | none =>
    rw [ht] at hs
    refine ⟨hs.nodup, ?_, ?_, fun x => ?_, fun x => ?_⟩
    · rw [← hs.head]; cases hash.head <;> rfl
    · rw [← hs.tail]
    · rw [← hs.next, if_neg (by simp)]
    · rw [← hs.prev]
      by_cases hx : x = fd
      · rw [if_pos hx, hx]; exact hnone.1
      · rw [if_neg hx]
  | some t =>
    rw [ht] at hs
    have htne : t ≠ fd := fun e => hm (by
      have := h.tail
      rw [ht] at this
      rw [← e]
      exact List.mem_of_getLast? this.symm)
    refine ⟨hs.nodup, ?_, ?_, fun x => ?_, fun x => ?_⟩
    · rw [← hs.head]; cases hash.head <;> rfl
    · rw [← hs.tail]
    · rw [← hs.next]
      by_cases hx : x = t
      · subst hx
        simp
      · rw [if_neg (by simpa using fun e : t = x => hx e.symm)]
        simp only [Function.update_of_ne hx]
        by_cases hf : x = fd
        · subst hf; simp
        · rw [Function.update_of_ne hf]
    · rw [← hs.prev]
      by_cases hf : x = fd
      · subst hf
        rw [if_pos rfl]
        simp [Function.update_of_ne htne.symm]
      · rw [if_neg hf]
        by_cases hx : x = t
        · subst hx
          simp [Function.update_of_ne hf]
        · simp only [Function.update_of_ne hx, Function.update_of_ne hf]

/-- The element that `fd_hash_remove` takes out, and its two neighbours. -/
theorem fdHashRemove_fields {fd : ℕ} (hl : hash.linked fd = true)
    (hprev : ∀ q, (hash.table fd).previous = some q → fd ≠ q)
    (hnext : ∀ q, (hash.table fd).next = some q → fd ≠ q) :
    (∀ x, ((fdHashRemove hash fd).table x).next = if x = fd then none
        else if (hash.table fd).previous = some x then (hash.table fd).next
        else (hash.table x).next) ∧
      (∀ x, ((fdHashRemove hash fd).table x).previous = if x = fd then none
        else if (hash.table fd).next = some x then (hash.table fd).previous
        else (hash.table x).previous) ∧
      (fdHashRemove hash fd).head =
        (if hash.head = some fd then (hash.table fd).next else hash.head) ∧
      (fdHashRemove hash fd).tail =
        (if hash.tail = some fd then (hash.table fd).previous else hash.tail) := by
  unfold fdHashRemove
  rw [if_neg (by rw [hl]; simp)]
  -- with the neighbours named, every pointer is that of the old table or one of theirs
  rcases hp : (hash.table fd).previous with _ | a <;> rcases hn : (hash.table fd).next with _ | b
  · refine ⟨fun x => ?_, fun x => ?_, ?_, ?_⟩ <;> simp only [hn, Function.update_apply] <;>
      split_ifs <;> simp_all
  · have hb := hnext b hn
    refine ⟨fun x => ?_, fun x => ?_, ?_, ?_⟩ <;> simp only [hn, Function.update_apply] <;>
      split_ifs <;> simp_all
  · have ha := hprev a hp
    refine ⟨fun x => ?_, fun x => ?_, ?_, ?_⟩ <;> simp only [hn, Function.update_apply, if_neg ha] <;>
      split_ifs <;> simp_all
  · have ha := hprev a hp
    have hb := hnext b hn
    refine ⟨fun x => ?_, fun x => ?_, ?_, ?_⟩ <;> simp only [hn, Function.update_apply, if_neg ha] <;>
      split_ifs <;> simp_all

/-- **`fd_hash_remove`.** -/
theorem fdHashRemove_lists (h : hash.Lists l) (fd : ℕ) :
    (fdHashRemove hash fd).Lists (l.erase fd) := by
  by_cases hm : fd ∈ l
  swap
  · have hl : hash.linked fd = false := by
      rw [← Bool.not_eq_true]; exact fun hl => hm ((h.linked_iff fd).1 hl)
    unfold fdHashRemove
    rw [if_pos (by rw [hl]; rfl), List.erase_of_not_mem hm]
    exact h
  have hl := (h.linked_iff fd).2 hm
  obtain ⟨p, s, rfl⟩ := List.append_of_mem hm
  have hnd := List.nodup_middle.1 h.nodup
  rw [List.nodup_cons, List.mem_append, not_or] at hnd
  rw [List.erase_append_right _ hnd.1.1, List.erase_cons_head]
  have hs := Threaded.erase h
  -- the neighbours of an element are other elements
  have hprev : ∀ q, (hash.table fd).previous = some q → fd ≠ q := by
    rintro q hq rfl
    have hq' := h.prev fd
    simp only [hq] at hq'
    have hrev : (p ++ fd :: s).reverse = s.reverse ++ fd :: p.reverse := by simp
    rw [hrev, nextIn_append_cons (by simpa using hnd.1.2), List.head?_reverse] at hq'
    exact hnd.1.1 (List.mem_of_getLast? hq'.symm)
  have hnext : ∀ q, (hash.table fd).next = some q → fd ≠ q := by
    rintro q hq rfl
    have hq' := h.next fd
    simp only [hq] at hq'
    rw [nextIn_append_cons hnd.1.1] at hq'
    exact hnd.1.2 (List.mem_of_mem_head? hq'.symm)
  obtain ⟨hn, hp, hhead, htail⟩ := fdHashRemove_fields hl hprev hnext
  refine ⟨hs.nodup, ?_, ?_, fun x => ?_, fun x => ?_⟩
  · rw [hhead, hs.head]
  · rw [htail, hs.tail]
  · simp only [hn, ← hs.next]
  · simp only [hp, ← hs.prev]

theorem FdHash.Lists.head_eq (h : hash.Lists l) : fdHashHead hash = l.head? := Threaded.head h

theorem FdHash.Lists.next_eq (h : hash.Lists l) (fd : ℕ) : fdHashNext hash fd = nextIn l fd :=
  Threaded.next h fd

end Zimr
