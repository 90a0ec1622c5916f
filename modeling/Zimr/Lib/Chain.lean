import Mathlib.Data.List.Nodup

/-!
# A list threaded through a table

`Threaded prev next head tail l` says that the pointers `prev` and `next` of a table,
with its ends `head` and `tail`, hold the list `l`. The rules are those of a doubly
linked list: an element is linked iff it is in the list (`Threaded.linked_iff`), and the
pointers of the list with an element appended (`nextIn_snoc`) or taken out
(`nextIn_erase`) are those of the old one with one entry changed. `Linked prev next l` says it of
a part of the table only, with no word on the pointers that leave the list: the rules are those
of a list between two sentinels (`Linked.next_get`, `Linked.insert`, `Linked.remove`).
-/

namespace Chain

variable {α : Type*} [DecidableEq α]

/-- The element after `x`. -/
def nextIn : List α → α → Option α
  | [], _ => none
  | a :: l, x => if x = a then l.head? else nextIn l x

/-- The elements after `x`. -/
def after : List α → α → List α
  | [], _ => []
  | a :: l, x => if x = a then l else after l x

@[simp] theorem after_self (l : List α) (x : α) : after (x :: l) x = l := if_pos rfl

theorem nextIn_eq (l : List α) (x : α) : nextIn l x = (after l x).head? := by
  induction l with
  | nil => rfl
  | cons a l ih =>
    unfold nextIn after
    split
    · rfl
    · exact ih

theorem mem_of_mem_after {l : List α} {x y : α} (h : y ∈ after l x) : y ∈ l := by
  induction l with
  | nil => cases h
  | cons a l ih =>
    unfold after at h
    split at h
    · exact List.mem_cons_of_mem _ h
    · exact List.mem_cons_of_mem _ (ih h)

theorem notMem_after {l : List α} (h : l.Nodup) (x : α) : x ∉ after l x := by
  induction l with
  | nil => exact List.not_mem_nil
  | cons a l ih =>
    rw [List.nodup_cons] at h
    unfold after
    split
    · rename_i hx
      rw [hx]
      exact h.1
    · exact ih h.2

theorem after_cons {l s : List α} {x y : α} (h : l.Nodup) (hx : after l x = y :: s) :
    after l y = s := by
  induction l with
  | nil => cases hx
  | cons a l ih =>
    rw [List.nodup_cons] at h
    have hy : y ∈ l := by
      unfold after at hx
      split at hx
      · rw [hx]; exact List.mem_cons_self
      · exact mem_of_mem_after (by rw [hx]; exact List.mem_cons_self)
    have hne : y ≠ a := fun e => h.1 (by rw [← e]; exact hy)
    unfold after at hx ⊢
    rw [if_neg hne]
    split at hx
    · subst hx
      simp [after]
    · exact ih h.2 hx

theorem nextIn_of_notMem {l : List α} {x : α} (h : x ∉ l) : nextIn l x = none := by
  induction l with
  | nil => rfl
  | cons a l ih =>
    rw [List.mem_cons, not_or] at h
    rw [nextIn, if_neg h.1, ih h.2]

theorem nextIn_append_cons {p s : List α} {a : α} (h : a ∉ p) :
    nextIn (p ++ a :: s) a = s.head? := by
  induction p with
  | nil => simp [nextIn]
  | cons b p ih =>
    rw [List.mem_cons, not_or] at h
    rw [List.cons_append, nextIn, if_neg h.1, ih h.2]

theorem nextIn_snoc {l : List α} {c : α} (h : (l ++ [c]).Nodup) (x : α) :
    nextIn (l ++ [c]) x = if l.getLast? = some x then some c else nextIn l x := by
  induction l with
  | nil => simp [nextIn]
  | cons a l ih =>
    rw [List.cons_append, List.nodup_cons] at h
    rw [List.cons_append, nextIn, nextIn, ih h.2]
    cases l with
    | nil =>
      simp only [List.nil_append, List.head?_cons, List.getLast?_singleton, List.getLast?_nil,
        List.head?_nil, nextIn, Option.some.injEq]
      by_cases hx : x = a
      · rw [if_pos hx, if_pos hx.symm]
      · have hx' : a ≠ x := fun e => hx e.symm
        simp [hx, hx']
    | cons b l =>
      rw [List.getLast?_cons_cons]
      by_cases hx : x = a
      · subst hx
        -- the first element is not the last one
        have hne : (b :: l).getLast? ≠ some x := fun e =>
          h.1 (List.mem_append_left _ (List.mem_of_getLast? e))
        rw [if_pos rfl, if_neg hne, if_pos rfl]
        rfl
      · rw [if_neg hx, if_neg hx]

theorem nextIn_erase {p s : List α} {a : α} (h : (p ++ a :: s).Nodup) (x : α) :
    nextIn (p ++ s) x = if x = a then none
      else if p.getLast? = some x then s.head? else nextIn (p ++ a :: s) x := by
  have hmid := List.nodup_middle.1 h
  rw [List.nodup_cons] at hmid
  by_cases hx : x = a
  · subst hx
    rw [if_pos rfl]
    exact nextIn_of_notMem hmid.1
  rw [if_neg hx]
  induction p with
  | nil => simp [nextIn, hx]
  | cons b p ih =>
    rw [List.cons_append, List.nodup_cons] at h
    rw [List.cons_append, List.nodup_cons] at hmid
    rw [List.cons_append, List.cons_append, nextIn, nextIn]
    cases p with
    | nil =>
      simp only [List.nil_append, List.getLast?_singleton, Option.some.injEq, nextIn, if_neg hx]
      by_cases hb : x = b
      · rw [if_pos hb, if_pos hb.symm]
      · rw [if_neg hb, if_neg fun e => hb e.symm, if_neg hb]
    | cons c p =>
      rw [List.getLast?_cons_cons]
      by_cases hb : x = b
      · subst hb
        have hne : (c :: p).getLast? ≠ some x := fun e =>
          h.1 (List.mem_append_left _ (List.mem_of_getLast? e))
        rw [if_pos rfl, if_neg hne, if_pos rfl]
        rfl
      · rw [if_neg hb, if_neg hb]
        refine ih h.2 ⟨?_, hmid.2.2⟩
        exact fun hm => hmid.1 (List.mem_cons_of_mem _ hm)

theorem nextIn_some {l : List α} {x y : α} (h : nextIn l x = some y) :
    ∃ p s, l = p ++ x :: y :: s := by
  induction l with
  | nil => cases h
  | cons a l ih =>
    unfold nextIn at h
    split at h
    · rename_i hx
      obtain ⟨s, rfl⟩ := List.head?_eq_some_iff.1 h
      exact ⟨[], s, by rw [hx]; rfl⟩
    · obtain ⟨p, s, rfl⟩ := ih h
      exact ⟨a :: p, s, rfl⟩

/-- The element after `x` is the one that `x` is before. -/
theorem nextIn_reverse {l : List α} (h : l.Nodup) {x y : α} (hxy : nextIn l x = some y) :
    nextIn l.reverse y = some x := by
  obtain ⟨p, s, rfl⟩ := nextIn_some hxy
  have hy : y ∉ s.reverse := by
    rw [List.mem_reverse]
    exact (List.nodup_cons.1 (List.nodup_cons.1 (List.nodup_append.1 h).2.1).2).1
  have hrev : (p ++ x :: y :: s).reverse = s.reverse ++ y :: x :: p.reverse := by simp
  rw [hrev, nextIn_append_cons hy]
  rfl

/-- The pointers of a table hold the list `l`. -/
structure Threaded (prev next : α → Option α) (head tail : Option α) (l : List α) : Prop where
  nodup : l.Nodup
  head : head = l.head?
  tail : tail = l.getLast?
  next : ∀ x, next x = nextIn l x
  prev : ∀ x, prev x = nextIn l.reverse x

variable {prev next : α → Option α} {head tail : Option α} {l : List α}

theorem Threaded.nil : Threaded (fun _ : α => none) (fun _ => none) none none [] :=
  ⟨List.nodup_nil, rfl, rfl, fun _ => rfl, fun _ => rfl⟩

/-- The test by which such a list knows its elements. -/
theorem Threaded.linked_iff (h : Threaded prev next head tail l) (x : α) :
    (next x ≠ none ∨ prev x ≠ none ∨ head = some x) ↔ x ∈ l := by
  constructor
  · intro hx
    by_contra hm
    rw [h.next, h.prev, h.head, nextIn_of_notMem hm, nextIn_of_notMem (by simpa using hm)] at hx
    rcases hx with hx | hx | hx
    · exact hx rfl
    · exact hx rfl
    · exact hm (List.mem_of_mem_head? hx)
  · intro hm
    obtain ⟨p, s, rfl⟩ := List.append_of_mem hm
    have hnd := List.nodup_middle.1 h.nodup
    rw [List.nodup_cons, List.mem_append, not_or] at hnd
    cases hp : p.reverse with
    | nil =>
      -- the first element is the head
      have hp : p = [] := by simpa using hp
      subst hp
      exact Or.inr (Or.inr h.head)
    | cons b q =>
      refine Or.inr (Or.inl ?_)
      rw [h.prev, List.reverse_append, List.reverse_cons, List.append_assoc, hp]
      rw [List.singleton_append, nextIn_append_cons (by simpa using hnd.1.2)]
      simp

/-- The pointers of such a list are inverse to each other. -/
theorem Threaded.next_iff (h : Threaded prev next head tail l) (x y : α) :
    next x = some y ↔ prev y = some x := by
  rw [h.next, h.prev]
  refine ⟨nextIn_reverse h.nodup, fun hp => ?_⟩
  have hback := nextIn_reverse (List.nodup_reverse.2 h.nodup) hp
  rwa [List.reverse_reverse] at hback

/-- A list with an element at its end. -/
theorem Threaded.snoc {c : α} (h : Threaded prev next head tail l) (hc : c ∉ l) :
    Threaded (fun x => if x = c then tail else prev x)
      (fun x => if tail = some x then some c else next x)
      (head.or (some c)) (some c) (l ++ [c]) where
  nodup := by
    rw [List.nodup_append_comm, List.singleton_append, List.nodup_cons]
    exact ⟨hc, h.nodup⟩
  head := by rw [h.head, List.head?_append]; rfl
  tail := by simp
  next := fun x => by
    have hnd : (l ++ [c]).Nodup := by
      rw [List.nodup_append_comm, List.singleton_append, List.nodup_cons]
      exact ⟨hc, h.nodup⟩
    rw [nextIn_snoc hnd, h.tail, h.next]
  prev := fun x => by
    rw [List.reverse_append, List.reverse_singleton, List.singleton_append, nextIn, h.tail, h.prev,
      List.head?_reverse]

/-- A list without one of its elements. -/
theorem Threaded.erase {p s : List α} {a : α} (h : Threaded prev next head tail (p ++ a :: s)) :
    Threaded (fun x => if x = a then none else if next a = some x then prev a else prev x)
      (fun x => if x = a then none else if prev a = some x then next a else next x)
      (if head = some a then next a else head) (if tail = some a then prev a else tail)
      (p ++ s) := by
  have hnd := List.nodup_middle.1 h.nodup
  rw [List.nodup_cons, List.mem_append, not_or] at hnd
  have hna : next a = s.head? := by rw [h.next, nextIn_append_cons hnd.1.1]
  have hrev : (p ++ a :: s).reverse = s.reverse ++ a :: p.reverse := by simp
  have hpa : prev a = p.getLast? := by
    rw [h.prev, hrev, nextIn_append_cons (by simpa using hnd.1.2), List.head?_reverse]
  refine ⟨hnd.2, ?_, ?_, fun x => ?_, fun x => ?_⟩
  · rw [h.head, hna]
    cases p with
    | nil => simp
    | cons b p =>
      have hb : b ≠ a := fun e => hnd.1.1 (by rw [e]; exact List.mem_cons_self)
      simp [hb]
  · rw [h.tail, hpa]
    rcases List.eq_nil_or_concat s with rfl | ⟨q, b, rfl⟩
    · simp
    · have hb : b ≠ a := fun e => hnd.1.2 (by rw [e]; simp)
      have hlast : (p ++ a :: q.concat b).getLast? = some b := by
        rw [List.concat_eq_append, ← List.cons_append, ← List.append_assoc, List.getLast?_concat]
      rw [hlast, if_neg (by simpa using hb), List.concat_eq_append, ← List.append_assoc,
        List.getLast?_concat]
  · rw [nextIn_erase h.nodup, hpa, hna, h.next]
  · rw [List.reverse_append, nextIn_erase (by rw [← hrev, List.nodup_reverse]; exact h.nodup),
      ← hrev, hna, hpa, h.prev, List.getLast?_reverse, List.head?_reverse]

/-! ## A list in a part of the table -/

/-- Neighbours in `l` point to each other. -/
def Linked (prev next : α → Option α) (l : List α) : Prop :=
  ∀ x y, nextIn l x = some y → next x = some y ∧ prev y = some x

theorem mem_of_nextIn {x y : α} (h : nextIn l x = some y) : x ∈ l ∧ y ∈ l := by
  obtain ⟨p, s, rfl⟩ := nextIn_some h
  simp

/-- No two elements have the same one after them. -/
theorem nextIn_inj (h : l.Nodup) {x x' y : α} (hx : nextIn l x = some y)
    (hx' : nextIn l x' = some y) : x = x' :=
  Option.some.inj ((nextIn_reverse h hx).symm.trans (nextIn_reverse h hx'))

theorem Linked.congr {prev' next' : α → Option α} (h : Linked prev next l)
    (hn : ∀ x ∈ l, next' x = next x) (hp : ∀ x ∈ l, prev' x = prev x) : Linked prev' next' l := by
  intro x y hxy
  obtain ⟨hx, hy⟩ := mem_of_nextIn hxy
  rw [hn x hx, hp y hy]
  exact h x y hxy

/-- The element after the one at place `i` is at place `i + 1`. -/
theorem nextIn_getElem (h : l.Nodup) {i : ℕ} {a : α} (ha : l[i]? = some a) :
    nextIn l a = l[i + 1]? := by
  induction l generalizing i with
  | nil => cases ha
  | cons b l ih =>
    rw [List.nodup_cons] at h
    rw [nextIn, List.getElem?_cons_succ]
    cases i with
    | zero =>
      rw [List.getElem?_cons_zero, Option.some.injEq] at ha
      rw [if_pos ha.symm, List.head?_eq_getElem?]
    | succ i =>
      rw [List.getElem?_cons_succ] at ha
      have hne : a ≠ b := fun e => h.1 (e ▸ List.mem_of_getElem? ha)
      rw [if_neg hne, ih h.2 ha]

/-- The pointers of the elements at two places that follow each other. -/
theorem Linked.get (h : Linked prev next l) (hnd : l.Nodup) {i : ℕ} {a b : α}
    (ha : l[i]? = some a) (hb : l[i + 1]? = some b) : next a = some b ∧ prev b = some a :=
  h a b ((nextIn_getElem hnd ha).trans hb)

/-- The list without its first element. -/
theorem Linked.drop_first {a : α} (h : Linked prev next (a :: l)) (hnd : (a :: l).Nodup) :
    Linked prev next l := by
  intro x y hxy
  refine h x y ?_
  have hne : x ≠ a := fun e => (List.nodup_cons.1 hnd).1 (e ▸ (mem_of_nextIn hxy).1)
  rw [nextIn, if_neg hne, hxy]

/-- An end of the list. -/
theorem Linked.suffix {p : List α} (h : Linked prev next (p ++ l)) (hnd : (p ++ l).Nodup) :
    Linked prev next l := by
  induction p with
  | nil => exact h
  | cons a p ih => exact ih (h.drop_first hnd) (List.nodup_cons.1 hnd).2

/-- The list with `c` put between `a` and `b`. -/
theorem Linked.insert {p s : List α} {a b c : α} (h : Linked prev next (p ++ a :: b :: s))
    (hnd : (p ++ a :: c :: b :: s).Nodup) :
    Linked (fun x => if x = b then some c else if x = c then some a else prev x)
      (fun x => if x = c then some b else if x = a then some c else next x)
      (p ++ a :: c :: b :: s) := by
  intro x y hxy
  have hl : p ++ a :: c :: b :: s = (p ++ [a]) ++ c :: b :: s := by simp
  have hs : p ++ a :: b :: s = (p ++ [a]) ++ b :: s := by simp
  have herase := nextIn_erase (hl ▸ hnd)
  rw [← hl, ← hs, List.getLast?_concat] at herase
  have hnd' := hnd
  rw [List.nodup_append, List.nodup_cons, List.nodup_cons, List.nodup_cons] at hnd'
  obtain ⟨-, ⟨ha, hc, -, -⟩, hp⟩ := hnd'
  have hac : a ≠ c := fun e => ha (by simp [e])
  have hbc : b ≠ c := fun e => hc (by simp [e])
  have hca : nextIn (p ++ a :: c :: b :: s) a = some c := by
    rw [nextIn_append_cons fun hm => hp a hm a (by simp) rfl]
    rfl
  by_cases hx : x = c
  · subst hx
    rw [hl, nextIn_append_cons (by simpa using ⟨fun hm => hp x hm x (by simp) rfl, hac.symm⟩)] at hxy
    obtain rfl : b = y := by simpa using hxy
    simp
  by_cases hxa : x = a
  · subst hxa
    obtain rfl : c = y := by simpa [hca] using hxy
    simp [hbc.symm, hac]
  -- the other elements have the neighbours they had
  have hold := herase x
  rw [if_neg hx, if_neg (by simpa using fun e : a = x => hxa e.symm), hxy] at hold
  have hyb : y ≠ b := by
    rintro rfl
    have hcy : nextIn (p ++ a :: c :: y :: s) c = some y := by
      rw [hl, nextIn_append_cons (by simpa using ⟨fun hm => hp c hm c (by simp) rfl, hac.symm⟩)]
      rfl
    exact hx (nextIn_inj hnd hxy hcy)
  have hyc : y ≠ c := by
    rintro rfl
    exact hxa (nextIn_inj hnd hxy hca)
  simpa [hx, hxa, hyb, hyc] using h x y hold

/-- The list without the element between `a` and `b`. -/
theorem Linked.remove {p s : List α} {a b c : α} (h : Linked prev next (p ++ a :: c :: b :: s))
    (hnd : (p ++ a :: c :: b :: s).Nodup) :
    Linked (fun x => if x = b then some a else prev x)
      (fun x => if x = a then some b else next x) (p ++ a :: b :: s) := by
  intro x y hxy
  have hl : p ++ a :: c :: b :: s = (p ++ [a]) ++ c :: b :: s := by simp
  have hs : p ++ a :: b :: s = (p ++ [a]) ++ b :: s := by simp
  have herase := nextIn_erase (hl ▸ hnd) x
  rw [← hl, ← hs, List.getLast?_concat, hxy] at herase
  have hc : c ∉ p ++ [a] := by
    rw [hl, List.nodup_append] at hnd
    exact fun hm => hnd.2.2 c hm c (by simp) rfl
  by_cases hx : x = c
  · rw [if_pos hx] at herase
    cases herase
  rw [if_neg hx] at herase
  by_cases hxa : x = a
  · subst hxa
    obtain rfl : y = b := by simpa using herase
    simp
  rw [if_neg (by simpa using fun e : a = x => hxa e.symm)] at herase
  have hyb : y ≠ b := by
    rintro rfl
    have hcy : nextIn (p ++ a :: c :: y :: s) c = some y := by
      rw [hl, nextIn_append_cons hc]
      rfl
    exact hx (nextIn_inj hnd herase.symm hcy)
  simpa [hxa, hyb] using h x y herase.symm

end Chain
