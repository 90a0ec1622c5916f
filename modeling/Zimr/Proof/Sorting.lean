import Mathlib.Data.List.Induction
import Zimr.Proof.Lists

/-!
# `list_sort`

While a list is sorted only the data move: `Row h cells ds` says what the nodes between the
sentinels hold, and each loop is the one on the list of data `ds`. Whatever the comparator and the
random numbers, the sort ends with a permutation (`quicksort_row`); if the comparator is an order the
data are sorted by it.
-/

namespace Zimr

open Chain

variable {α : Type} {h h' : NodeHeap α} {cells : List ℕ} {ds : List (Option α)}

/-- What the sort compares: positive where the first comes after the second. -/
def ElementComparator.sign (comparator : ElementComparator α) (versus : ℤ) (a b : Option α) : ℤ :=
  comparator a b * -versus

/-- The comparator orders the data, for this direction. -/
structure ElementComparator.Orders (comparator : ElementComparator α) (versus : ℤ) : Prop where
  flip : ∀ a b, 0 ≤ comparator.sign versus a b → comparator.sign versus b a ≤ 0
  trans : ∀ a b d, comparator.sign versus a b ≤ 0 → comparator.sign versus b d ≤ 0 →
    comparator.sign versus a d ≤ 0

/-! ## The data of a row of nodes -/

/-- The nodes `cells` of the heap point to each other and hold the data `ds`. -/
structure Row (h : NodeHeap α) (cells : List ℕ) (ds : List (Option α)) : Prop where
  nodup : cells.Nodup
  linked : Linked h.prev h.next cells
  live : ∀ a ∈ cells, h.Live a
  data : cells.map h.data = ds
  top : cells.length ≤ h.top

/-- `h'` is `h` with other data in the nodes `cells`. -/
structure DataOnly (h h' : NodeHeap α) (cells : List ℕ) : Prop where
  next : h'.next = h.next
  prev : h'.prev = h.prev
  live : ∀ a, h'.Live a ↔ h.Live a
  rest : ∀ a, a ∉ cells → h'.node a = h.node a
  top : h'.top = h.top

theorem DataOnly.refl (h : NodeHeap α) (cells : List ℕ) : DataOnly h h cells :=
  ⟨rfl, rfl, fun _ => Iff.rfl, fun _ _ => rfl, rfl⟩

theorem DataOnly.trans {h'' : NodeHeap α} (d : DataOnly h h' cells) (e : DataOnly h' h'' cells) :
    DataOnly h h'' cells :=
  ⟨e.next.trans d.next, e.prev.trans d.prev, fun a => (e.live a).trans (d.live a),
    fun a ha => (e.rest a ha).trans (d.rest a ha), e.top.trans d.top⟩

namespace Row

theorem length (R : Row h cells ds) : cells.length = ds.length := by
  rw [← R.data, List.length_map]

/-- Pointers to two places are the same iff the places are. -/
theorem ptr_eq (R : Row h cells ds) {i j : ℕ} (hi : i < ds.length) :
    cells[i]? = cells[j]? ↔ i = j :=
  List.getElem?_inj (R.length ▸ hi) R.nodup

/-- The node at a place. -/
theorem node_at (R : Row h cells ds) {i : ℕ} {a : Option α} (ha : ds[i]? = some a) :
    ∃ c, cells[i]? = some c ∧ h.Live c ∧ h.data c = a ∧ c ∈ cells := by
  obtain ⟨hlt, -⟩ := List.getElem?_eq_some_iff.1 ha
  have hlt : i < cells.length := R.length ▸ hlt
  refine ⟨cells[i], List.getElem?_eq_getElem hlt, R.live _ (List.getElem_mem _), ?_,
    List.getElem_mem _⟩
  rw [← R.data] at ha
  simpa [hlt] using ha

/-- The node at the place of a datum. -/
theorem node {A B : List (Option α)} {a : Option α} (R : Row h cells (A ++ a :: B)) {i : ℕ}
    (hi : i = A.length) : ∃ c, cells[i]? = some c ∧ h.Live c ∧ h.data c = a ∧ c ∈ cells :=
  R.node_at (by rw [hi]; simp)

/-- Reading a node that is not at an end of the row. -/
theorem deref_at (R : Row h cells ds) {i : ℕ} (hi : 0 < i) (hi' : i + 1 < ds.length) :
    ∃ a, ds[i]? = some a ∧ h.deref cells[i]? = .ok ⟨a, cells[i + 1]?, cells[i - 1]?⟩ := by
  have ha : ds[i]? = some ds[i] := List.getElem?_eq_getElem (by omega)
  obtain ⟨c, hc, hlive, hdata, -⟩ := R.node_at ha
  have hlen := R.length
  obtain ⟨n, hn⟩ : ∃ n, cells[i + 1]? = some n := ⟨_, List.getElem?_eq_getElem (by omega)⟩
  obtain ⟨p, hp⟩ : ∃ p, cells[i - 1]? = some p := ⟨_, List.getElem?_eq_getElem (by omega)⟩
  have hnext := (R.linked.get R.nodup hc hn).1
  have hprev := (R.linked.get R.nodup hp (by rw [Nat.sub_add_cancel hi]; exact hc)).2
  refine ⟨ds[i], ha, ?_⟩
  rw [hc, NodeHeap.deref_eq hlive, hdata, hnext, hprev, hn, hp]

theorem deref {A B : List (Option α)} {a : Option α} (R : Row h cells (A ++ a :: B)) {i : ℕ}
    (hi : i = A.length) (hA : A ≠ []) (hB : B ≠ []) :
    h.deref cells[i]? = .ok ⟨a, cells[i + 1]?, cells[i - 1]?⟩ := by
  have hA' := List.length_pos_iff.2 hA
  have hB' := List.length_pos_iff.2 hB
  obtain ⟨b, hb, he⟩ := R.deref_at (i := i) (by omega) (by simp; omega)
  obtain rfl : a = b := by simpa [hi] using hb
  exact he

/-- Setting a datum. -/
theorem set {A B : List (Option α)} {a : Option α} (R : Row h cells (A ++ a :: B)) {i : ℕ}
    (hi : i = A.length) (v : Option α) :
    ∃ h', h.modify cells[i]? (fun e => { e with data := v }) = .ok h' ∧
      Row h' cells (A ++ v :: B) ∧ DataOnly h h' cells := by
  obtain ⟨c, hc, hlive, hdata, hmem⟩ := R.node hi
  obtain ⟨h', he, sets, hn, hp, hd⟩ := NodeHeap.setData_eq hlive v
  rw [hc]
  refine ⟨h', he, ⟨R.nodup, ?_, fun a ha => (sets.live a).2 (R.live a ha), ?_, ?_⟩, hn, hp,
    sets.live, fun a ha => sets.node a fun e => ha (e ▸ hmem), sets.top⟩
  · rw [hn, hp]
    exact R.linked
  · -- the map changes at the place of `c` only
    obtain ⟨hlt, rfl⟩ := List.getElem?_eq_some_iff.1 hc
    have hset : cells.map h'.data = (cells.map h.data).set i v := by
      rw [hd]
      refine List.ext_getElem (by simp) fun j hj hj' => ?_
      simp only [List.length_map] at hj
      rw [List.getElem_map, List.getElem_set, List.getElem_map, Function.update_apply]
      by_cases hij : i = j
      · subst hij
        rw [if_pos rfl, if_pos rfl]
      · rw [if_neg hij, if_neg fun e => hij (R.nodup.getElem_inj_iff.1 e).symm]
    rw [hset, R.data, hi]
    simp
  · rw [sets.top]
    exact R.top

end Row

/-! ## Comparing and swapping -/

variable (comparator : ElementComparator α) (versus : ℤ)

theorem Row.compare_at {a b : Option α} (R : Row h cells ds) {i j : ℕ} (hi : ds[i]? = some a)
    (hj : ds[j]? = some b) :
    h.compare comparator versus cells[i]? cells[j]? = .ok (comparator.sign versus a b) := by
  obtain ⟨c, hc, hlive, hdata, -⟩ := R.node_at hi
  obtain ⟨d, hd, hlive', hdata', -⟩ := R.node_at hj
  unfold NodeHeap.compare
  rw [hc, hd, NodeHeap.deref_eq hlive, Run.ok_bind, NodeHeap.deref_eq hlive', Run.ok_bind, hdata,
    hdata']
  rfl

theorem Row.compare {A B : List (Option α)} {a b : Option α} (R : Row h cells (A ++ a :: B))
    (A' B' : List (Option α)) (hds : A ++ a :: B = A' ++ b :: B') {i j : ℕ} (hi : i = A.length)
    (hj : j = A'.length) :
    h.compare comparator versus cells[i]? cells[j]? = .ok (comparator.sign versus a b) :=
  R.compare_at comparator versus (by rw [hi]; simp) (by rw [hds, hj]; simp)

theorem Row.swap {A M B : List (Option α)} {x y : Option α}
    (R : Row h cells (A ++ x :: (M ++ y :: B))) {i j : ℕ} (hi : i = A.length)
    (hj : j = A.length + 1 + M.length) :
    ∃ h', h.swap cells[i]? cells[j]? = .ok h' ∧ Row h' cells (A ++ y :: (M ++ x :: B)) ∧
      DataOnly h h' cells := by
  have hassoc : ∀ u v : Option α, A ++ u :: (M ++ v :: B) = (A ++ u :: M) ++ v :: B := by simp
  obtain ⟨c, hc, hlive, hdata, -⟩ := R.node hi
  obtain ⟨d, hd, hlive', hdata', -⟩ := (hassoc x y ▸ R).node (i := j) (by simp; omega)
  obtain ⟨h₁, e₁, R₁, d₁⟩ := R.set hi y
  obtain ⟨h₂, e₂, R₂, d₂⟩ := (hassoc y y ▸ R₁).set (i := j) (by simp; omega) x
  refine ⟨h₂, ?_, hassoc y x ▸ R₂, d₁.trans d₂⟩
  unfold NodeHeap.swap
  rw [hc, hd, NodeHeap.deref_eq hlive, Run.ok_bind, NodeHeap.deref_eq hlive', Run.ok_bind, ← hc,
    ← hd, hdata, hdata']
  dsimp only
  rw [e₁, Run.ok_bind, e₂]

/-! ## The loops around the pivot -/

variable {p : Option α}

/-- `left` stops at the first datum that comes after the pivot. -/
theorem skipLeft_row (X : List (Option α)) {A B : List (Option α)} {fuel i j : ℕ}
    (R : Row h cells (A ++ X ++ p :: B)) (hA : A ≠ []) (hi : i = A.length)
    (hj : j = A.length + X.length) (hfuel : X.length ≤ fuel) :
    ∃ X₁ X₂, X = X₁ ++ X₂ ∧ (∀ x ∈ X₁, comparator.sign versus x p ≤ 0) ∧
      (∀ x ∈ X₂.head?, 0 < comparator.sign versus x p) ∧
      listSkipLeft comparator versus h cells[j]? fuel cells[i]? = .ok cells[i + X₁.length]? := by
  induction X generalizing A fuel i with
  | nil =>
    refine ⟨[], [], rfl, by simp, by simp, ?_⟩
    unfold listSkipLeft
    rw [if_pos (by rw [hi, hj]; rfl)]
    rfl
  | cons x X ih =>
    have hne : ¬cells[i]? = cells[j]? := by
      rw [R.ptr_eq (by rw [hi]; simp), hi, hj, List.length_cons]
      omega
    have R' : Row h cells (A ++ x :: (X ++ p :: B)) := by simpa using R
    have hcmp := R'.compare comparator versus (A ++ x :: X) B (b := p) (j := j) (by simp) hi
      (by rw [hj, List.length_append])
    unfold listSkipLeft
    rw [if_neg hne, hcmp, Run.ok_bind]
    by_cases hle : comparator.sign versus x p ≤ 0
    · obtain ⟨fuel, rfl⟩ : ∃ f, fuel = f + 1 := ⟨fuel - 1, by simp at hfuel; omega⟩
      rw [if_pos hle]
      dsimp only
      rw [R'.deref hi hA (by simp), Run.ok_bind]
      obtain ⟨X₁, X₂, hX, h₁, h₂, he⟩ := ih (A := A ++ [x]) (i := i + 1) (by simpa using R)
        (by simp) (by simp [hi]) (by simp at hj ⊢; omega) (Nat.le_of_succ_le_succ hfuel)
      refine ⟨x :: X₁, X₂, by rw [hX]; rfl, ?_, h₂, ?_⟩
      · intro y hy
        rcases List.mem_cons.1 hy with rfl | hy
        · exact hle
        · exact h₁ y hy
      · dsimp only
        rw [he, List.length_cons]
        congr 2
        omega
    · rw [if_neg hle]
      exact ⟨[], x :: X, rfl, by simp, by simpa using hle, rfl⟩

/-- `right` stops at the first datum, from the end, that comes before the pivot. -/
theorem skipRight_row (Y : List (Option α)) {A B : List (Option α)} {fuel i j : ℕ}
    (R : Row h cells (A ++ p :: (Y ++ B))) (hB : B ≠ [])
    (hi : i = A.length + Y.length) (hj : j = A.length) (hfuel : Y.length ≤ fuel) :
    ∃ Y₁ Y₂, Y = Y₁ ++ Y₂ ∧ (∀ y ∈ Y₂, 0 ≤ comparator.sign versus y p) ∧
      (∀ y ∈ Y₁.getLast?, comparator.sign versus y p < 0) ∧
      listSkipRight comparator versus h cells[j]? fuel cells[i]? = .ok cells[j + Y₁.length]? := by
  induction Y using List.reverseRecOn generalizing B fuel i with
  | nil =>
    refine ⟨[], [], rfl, by simp, by simp, ?_⟩
    unfold listSkipRight
    rw [if_pos (by rw [hi, hj]; rfl), hi, hj]
    rfl
  | append_singleton Y y ih =>
    rw [List.length_append, List.length_singleton] at hi hfuel
    have hne : ¬cells[i]? = cells[j]? := by
      rw [R.ptr_eq (by rw [hi]; simp), hi, hj]
      omega
    have R' : Row h cells ((A ++ p :: Y) ++ y :: B) := by simpa using R
    have hlen : i = (A ++ p :: Y).length := by simp; omega
    have hcmp := R'.compare comparator versus A (Y ++ y :: B) (b := p) (by simp) hlen hj
    unfold listSkipRight
    rw [if_neg hne, hcmp, Run.ok_bind]
    by_cases hle : 0 ≤ comparator.sign versus y p
    · obtain ⟨fuel, rfl⟩ : ∃ f, fuel = f + 1 := ⟨fuel - 1, by omega⟩
      rw [if_pos hle]
      dsimp only
      rw [R'.deref hlen (by simp) hB, Run.ok_bind]
      obtain ⟨Y₁, Y₂, hY, h₁, h₂, he⟩ := ih (B := y :: B) (i := i - 1) (by simpa using R)
        (by simp) (by omega) (Nat.le_of_succ_le_succ hfuel)
      refine ⟨Y₁, Y₂ ++ [y], by rw [hY, List.append_assoc], ?_, h₂, he⟩
      intro z hz
      rcases List.mem_append.1 hz with hz | hz
      · exact h₁ z hz
      · rw [List.mem_singleton.1 hz]
        exact hle
    · rw [if_neg hle]
      refine ⟨Y ++ [y], [], by simp, by simp, by simpa using hle, ?_⟩
      rw [hi, hj, List.length_append, List.length_singleton]
      rfl

/-- The data around the pivot when the iterators are done: what lies before `left` does not come
after the pivot, and what lies behind `right` does not come before it. -/
structure PivotParts (comparator : ElementComparator α) (versus : ℤ) (p : Option α)
    (X Y L X' Y' Z : List (Option α)) : Prop where
  left : L.length + X'.length = X.length
  right : Y'.length + Z.length = Y.length
  ended : X' = [] ∨ Y' = []
  below : ∀ x ∈ L, comparator.sign versus x p ≤ 0
  above : ∀ y ∈ Z, 0 ≤ comparator.sign versus y p
  perm : (L ++ X' ++ p :: (Y' ++ Z)).Perm (X ++ p :: Y)

/-- **Both iterators move until one of them is at the pivot.** -/
theorem partition_row (fuel : ℕ) {X Y A B : List (Option α)} {i j k : ℕ}
    (R : Row h cells (A ++ X ++ p :: (Y ++ B))) (hA : A ≠ []) (hB : B ≠ []) (hi : i = A.length)
    (hj : j = A.length + X.length) (hk : k = j + Y.length) (hfuel : X.length + Y.length ≤ fuel) :
    ∃ h' L X' Y' Z, PivotParts comparator versus p X Y L X' Y' Z ∧
      Row h' cells (A ++ L ++ X' ++ p :: (Y' ++ Z ++ B)) ∧ DataOnly h h' cells ∧
      listPartition comparator versus cells[j]? fuel h cells[i]? cells[k]? =
        .ok (h', cells[i + L.length]?, cells[j + Y'.length]?) := by
  induction fuel generalizing h X Y A B i k with
  | zero =>
    obtain rfl : X = [] := List.eq_nil_of_length_eq_zero (by omega)
    obtain rfl : Y = [] := by simpa using hfuel
    refine ⟨h, [], [], [], [], ⟨rfl, rfl, Or.inl rfl, by simp, by simp, .refl _⟩, by simpa using R,
      DataOnly.refl h cells, ?_⟩
    unfold listPartition
    rw [if_neg (by simp [hi, hj]), hk]
    rfl
  | succ fuel ih =>
    by_cases hend : X = [] ∨ Y = []
    · refine ⟨h, [], X, Y, [], ⟨by simp, by simp, hend, by simp, by simp, by simp⟩, by simpa using R,
        DataOnly.refl h cells, ?_⟩
      unfold listPartition
      rw [if_neg, hk]
      · rfl
      · rcases hend with rfl | rfl
        · simp [hi, hj]
        · simp [hk]
    rw [not_or] at hend
    have hX := List.length_pos_iff.2 hend.1
    have hY := List.length_pos_iff.2 hend.2
    have htop : X.length ≤ h.top ∧ Y.length ≤ h.top := by
      have := R.top
      rw [R.length] at this
      simp only [List.length_append, List.length_cons] at this
      omega
    obtain ⟨X₁, X₂, hXs, hX₁, hX₂, heL⟩ := skipLeft_row comparator versus X R hA hi hj htop.1
    obtain ⟨Y₁, Y₂, hYs, hY₂, hY₁, heR⟩ := skipRight_row comparator versus Y R hB (i := k) (j := j)
      (by simp; omega) (by simp; omega) htop.2
    have hlX : X.length = X₁.length + X₂.length := by rw [hXs, List.length_append]
    have hlY : Y.length = Y₁.length + Y₂.length := by rw [hYs, List.length_append]
    have htot : (A ++ X ++ p :: (Y ++ B)).length = A.length + X.length + 1 + Y.length + B.length := by
      simp
      omega
    have hleft : cells[i + X₁.length]? = cells[j]? ↔ X₂ = [] := by
      rw [R.ptr_eq (by rw [htot]; omega), ← List.length_eq_zero_iff]
      omega
    have hright : cells[j + Y₁.length]? = cells[j]? ↔ Y₁ = [] := by
      rw [R.ptr_eq (by rw [htot]; omega), ← List.length_eq_zero_iff]
      omega
    have hin : cells[i]? ≠ cells[j]? ∧ cells[k]? ≠ cells[j]? := by
      refine ⟨fun e => ?_, fun e => ?_⟩
      · rw [R.ptr_eq (by rw [htot]; omega)] at e
        omega
      · rw [R.ptr_eq (by rw [htot]; omega)] at e
        omega
    unfold listPartition
    rw [if_pos hin]
    dsimp only
    rw [heL, Run.ok_bind, heR, Run.ok_bind]
    by_cases hmid : X₂ = [] ∨ Y₁ = []
    · -- one iterator came to the pivot, and the next test ends the loop
      rw [if_neg (by rw [Ne, Ne, hleft, hright]; tauto)]
      obtain ⟨h', L, X', Y', Z, P, R', d, he⟩ := ih (A := A ++ X₁) (X := X₂) (Y := Y₁)
        (B := Y₂ ++ B) (i := i + X₁.length) (k := j + Y₁.length)
        (by simpa [hXs, hYs] using R) (by simp [hA]) (by simp [hB]) (by simp [hi])
        (by simp; omega) rfl (by rcases hmid with rfl | rfl <;> simp at * <;> omega)
      refine ⟨h', X₁ ++ L, X', Y', Z ++ Y₂, ⟨?_, ?_, P.ended, ?_, ?_, ?_⟩, by simpa using R', d, ?_⟩
      · have := P.left
        simp
        omega
      · have := P.right
        simp
        omega
      · intro x hx
        exact (List.mem_append.1 hx).elim (hX₁ x) (P.below x)
      · intro y hy
        exact (List.mem_append.1 hy).elim (P.above y) (hY₂ y)
      · rw [hXs, hYs]
        simpa using (P.perm.append_left X₁).append_right Y₂
      · rw [he, List.length_append, Nat.add_assoc]
    · -- the two data that are on the wrong side change places
      rw [not_or] at hmid
      rw [if_pos (by rw [Ne, Ne, hleft, hright]; exact hmid)]
      obtain ⟨x, X₃, rfl⟩ := List.exists_cons_of_ne_nil hmid.1
      obtain ⟨Y₃, y, rfl⟩ := (List.eq_nil_or_concat Y₁).resolve_left hmid.2
      rw [List.concat_eq_append] at *
      simp only [List.length_cons, List.length_append, List.length_nil] at hlX hlY
      obtain ⟨h₁, e₁, R₁, d₁⟩ := Row.swap (A := A ++ X₁) (M := X₃ ++ p :: Y₃) (B := Y₂ ++ B)
        (x := x) (y := y) (i := i + X₁.length) (j := j + (Y₃ ++ [y]).length)
        (by simpa [hXs, hYs] using R) (by simp [hi]) (by simp; omega)
      rw [e₁, Run.ok_bind, R₁.deref (by simp [hi]) (by simp [hA]) (by simp), Run.ok_bind]
      have R₂ : Row h₁ cells ((A ++ X₁ ++ y :: (X₃ ++ p :: Y₃)) ++ x :: (Y₂ ++ B)) := by
        simpa using R₁
      rw [R₂.deref (by simp; omega) (by simp) (by simp [hB]), Run.ok_bind]
      obtain ⟨h', L, X', Y', Z, P, R', d, he⟩ := ih (h := h₁) (A := A ++ X₁ ++ [y]) (X := X₃)
        (Y := Y₃) (B := x :: (Y₂ ++ B)) (i := i + X₁.length + 1)
        (k := j + (Y₃ ++ [y]).length - 1) (by simpa using R₁) (by simp) (by simp)
        (by simp [hi]; omega) (by simp; omega) (by simp) (by omega)
      refine ⟨h', X₁ ++ y :: L, X', Y', Z ++ x :: Y₂, ⟨?_, ?_, P.ended, ?_, ?_, ?_⟩,
        by simpa using R', d₁.trans d, ?_⟩
      · have := P.left
        simp
        omega
      · have := P.right
        simp
        omega
      · intro z hz
        rcases List.mem_append.1 hz with hz | hz
        · exact hX₁ z hz
        · rcases List.mem_cons.1 hz with rfl | hz
          · exact Int.le_of_lt (hY₁ z (by simp))
          · exact P.below z hz
      · intro z hz
        rcases List.mem_append.1 hz with hz | hz
        · exact P.above z hz
        · rcases List.mem_cons.1 hz with rfl | hz
          · exact Int.le_of_lt (hX₂ z (by simp))
          · exact hY₂ z hz
      · classical
        refine List.perm_iff_count.2 fun a => ?_
        have hcount := List.perm_iff_count.1 P.perm a
        rw [hXs, hYs]
        simp only [List.count_append, List.count_cons, List.count_nil] at hcount ⊢
        omega
      · rw [he, show i + X₁.length + 1 + L.length = i + (X₁ ++ y :: L).length by simp; omega]

/-- Three data in a row of nodes are moved on: `x` to the place of the pivot, the pivot one to the
left, and the datum there to the place of `x`. -/
theorem Row.rotate {A M B : List (Option α)} {x z p : Option α}
    (R : Row h cells (A ++ x :: (M ++ z :: p :: B))) {i j : ℕ} (hi : i = A.length)
    (hj : j = A.length + 1 + M.length) :
    ∃ h₁ h₂ h₃, h.modify cells[i]? (fun e => { e with data := z }) = .ok h₁ ∧
      h₁.modify cells[j]? (fun e => { e with data := p }) = .ok h₂ ∧
      h₂.modify cells[j + 1]? (fun e => { e with data := x }) = .ok h₃ ∧
      Row h₁ cells (A ++ z :: (M ++ z :: p :: B)) ∧ Row h₃ cells (A ++ z :: (M ++ p :: x :: B)) ∧
      DataOnly h h₃ cells := by
  obtain ⟨h₁, e₁, R₁, d₁⟩ := R.set hi z
  have R₁' : Row h₁ cells ((A ++ z :: M) ++ z :: (p :: B)) := by simpa using R₁
  obtain ⟨h₂, e₂, R₂, d₂⟩ := R₁'.set (i := j) (by simp; omega) p
  have R₂' : Row h₂ cells ((A ++ z :: (M ++ [p])) ++ p :: B) := by simpa using R₂
  obtain ⟨h₃, e₃, R₃, d₃⟩ := R₂'.set (i := j + 1) (by simp; omega) x
  exact ⟨h₁, h₂, h₃, e₁, e₂, e₃, R₁, by simpa using R₃, (d₁.trans d₂).trans d₃⟩

/-- **The left part is longer**: what comes after the pivot goes behind it. -/
theorem longer_row (fuel : ℕ) {X A B : List (Option α)} {i j q : ℕ}
    (R : Row h cells (A ++ X ++ p :: B)) (hA : A ≠ []) (hB : B ≠ []) (hi : i = A.length)
    (hj : j = A.length + X.length) (hid : X.length ≤ q) (hfuel : X.length ≤ fuel) :
    ∃ h' L Z, Row h' cells (A ++ L ++ p :: (Z ++ B)) ∧ DataOnly h h' cells ∧
      listLonger comparator versus fuel h cells[i]? cells[j]? q =
        .ok (h', cells[i + L.length]?, q - Z.length) ∧
      (∀ x ∈ L, comparator.sign versus x p ≤ 0) ∧ (∀ x ∈ Z, 0 < comparator.sign versus x p) ∧
      (L ++ Z).Perm X := by
  induction fuel generalizing h X A B i j q with
  | zero =>
    obtain rfl : X = [] := by simpa using hfuel
    refine ⟨h, [], [], by simpa using R, DataOnly.refl h cells, ?_, by simp, by simp, .refl _⟩
    unfold listLonger
    rw [if_pos (by simp [hi, hj]), hi, hj]
    rfl
  | succ fuel ih =>
    cases X with
    | nil =>
      refine ⟨h, [], [], by simpa using R, DataOnly.refl h cells, ?_, by simp, by simp, .refl _⟩
      unfold listLonger
      rw [if_pos (by simp [hi, hj]), hi, hj]
      rfl
    | cons x X =>
      simp only [List.length_cons] at hj hid hfuel
      have hne : ¬cells[i]? = cells[j]? := by
        rw [R.ptr_eq (by rw [hi]; simp)]
        omega
      have R' : Row h cells (A ++ x :: (X ++ p :: B)) := by simpa using R
      have Rp : Row h cells ((A ++ x :: X) ++ p :: B) := by simpa using R
      have hcmp := R'.compare comparator versus (A ++ x :: X) B (b := p) (j := j) (by simp) hi (by simp; omega)
      unfold listLonger
      rw [if_neg hne]
      dsimp only
      rw [hcmp, Run.ok_bind]
      by_cases hgt : 0 < comparator.sign versus x p
      · rw [if_pos hgt, R'.deref hi hA (by simp), Run.ok_bind,
          Rp.deref (by simp; omega) (by simp) hB, Run.ok_bind]
        dsimp only
        rcases List.eq_nil_or_concat X with rfl | ⟨X, z, rfl⟩
        · -- the node before the pivot is `left` itself
          obtain rfl : j = i + 1 := by simp at hj; omega
          rw [Nat.add_sub_cancel]
          obtain ⟨h₁, e₁, R₁, d₁⟩ := R'.set hi x
          have R₁' : Row h₁ cells ((A ++ [x]) ++ p :: B) := by simpa using R₁
          obtain ⟨h₂, e₂, R₂, d₂⟩ := R₁.set hi p
          have R₂' : Row h₂ cells ((A ++ [p]) ++ p :: B) := by simpa using R₂
          obtain ⟨h₃, e₃, R₃, d₃⟩ := R₂'.set (i := i + 1) (by simp [hi]) x
          rw [R'.deref hi hA (by simp), Run.ok_bind]
          dsimp only
          rw [e₁, Run.ok_bind, R₁'.deref (by simp [hi]) (by simp) hB, Run.ok_bind]
          dsimp only
          rw [e₂, Run.ok_bind, e₃, Run.ok_bind, if_pos rfl]
          exact ⟨h₃, [], [x], by simpa using R₃, (d₁.trans d₂).trans d₃, rfl, by simp,
            by simpa using hgt, .refl _⟩
        · rw [List.concat_eq_append] at *
          simp only [List.length_append, List.length_cons, List.length_nil] at hj hid hfuel
          have Rr : Row h cells (A ++ x :: (X ++ z :: p :: B)) := by simpa using R
          have Rz : Row h cells ((A ++ x :: X) ++ z :: p :: B) := by simpa using R
          obtain ⟨h₁, h₂, h₃, e₁, e₂, e₃, R₁, R₃, d⟩ := Rr.rotate hi
            (j := j - 1) (by omega)
          have R₁' : Row h₁ cells ((A ++ z :: (X ++ [z])) ++ p :: B) := by simpa using R₁
          rw [Rz.deref (i := j - 1) (by simp; omega) (by simp) (by simp), Run.ok_bind]
          dsimp only
          rw [e₁, Run.ok_bind, R₁'.deref (by simp; omega) (by simp) hB, Run.ok_bind]
          dsimp only
          rw [Nat.sub_add_cancel (by omega)] at e₃
          have hleft : ¬cells[j - 1]? = cells[i]? := by
            rw [R₃.ptr_eq (by simp; omega)]
            omega
          rw [e₂, Run.ok_bind, e₃, Run.ok_bind, if_neg hleft]
          obtain ⟨h', L, Z, R₄, d', he, hL, hZ, hperm⟩ := ih (h := h₃) (A := A) (X := z :: X)
            (B := x :: B) (i := i) (j := j - 1) (q := q - 1) (by simpa using R₃) hA
            (by simp) hi (by simp; omega) (by simp; omega) (by simp; omega)
          refine ⟨h', L, Z ++ [x], by simpa using R₄, d.trans d', ?_, hL, ?_, ?_⟩
          · rw [he, List.length_append, List.length_singleton]
            congr 3
            omega
          · intro y hy
            rcases List.mem_append.1 hy with hy | hy
            · exact hZ y hy
            · rw [List.mem_singleton.1 hy]
              exact hgt
          · classical
            refine List.perm_iff_count.2 fun a => ?_
            have hcount := List.perm_iff_count.1 hperm a
            simp only [List.count_append, List.count_cons, List.count_nil] at hcount ⊢
            omega
      · rw [if_neg hgt, R'.deref hi hA (by simp), Run.ok_bind]
        obtain ⟨h', L, Z, R₁, d, he, hL, hZ, hperm⟩ := ih (A := A ++ [x]) (X := X) (i := i + 1)
          (j := j) (q := q) (by simpa using R) (by simp) hB (by simp [hi])
          (by simp; omega) (by omega) (by omega)
        refine ⟨h', x :: L, Z, by simpa using R₁, d, ?_, ?_, hZ, hperm.cons x⟩
        · dsimp only
          rw [he, show i + 1 + L.length = i + (x :: L).length by simp; omega]
        · intro y hy
          rcases List.mem_cons.1 hy with rfl | hy
          · exact Int.not_lt.1 hgt
          · exact hL y hy

/-- The same on the other side. -/
theorem Row.rotateRight {A M B : List (Option α)} {y z p : Option α}
    (R : Row h cells (A ++ p :: z :: (M ++ y :: B))) {i j : ℕ} (hj : j = A.length)
    (hi : i = A.length + 2 + M.length) :
    ∃ h₁ h₂ h₃, h.modify cells[i]? (fun e => { e with data := z }) = .ok h₁ ∧
      h₁.modify cells[j + 1]? (fun e => { e with data := p }) = .ok h₂ ∧
      h₂.modify cells[j]? (fun e => { e with data := y }) = .ok h₃ ∧
      Row h₁ cells (A ++ p :: z :: (M ++ z :: B)) ∧ Row h₃ cells (A ++ y :: p :: (M ++ z :: B)) ∧
      DataOnly h h₃ cells := by
  have R' : Row h cells ((A ++ p :: z :: M) ++ y :: B) := by simpa using R
  obtain ⟨h₁, e₁, R₁, d₁⟩ := R'.set (i := i) (by simp; omega) z
  have R₁' : Row h₁ cells ((A ++ [p]) ++ z :: (M ++ z :: B)) := by simpa using R₁
  obtain ⟨h₂, e₂, R₂, d₂⟩ := R₁'.set (i := j + 1) (by simp [hj]) p
  have R₂' : Row h₂ cells (A ++ p :: p :: (M ++ z :: B)) := by simpa using R₂
  obtain ⟨h₃, e₃, R₃, d₃⟩ := R₂'.set hj y
  exact ⟨h₁, h₂, h₃, e₁, e₂, e₃, by simpa using R₁, R₃, (d₁.trans d₂).trans d₃⟩

/-- **The right part is longer**: what comes before the pivot goes before it. -/
theorem longerRight_row (fuel : ℕ) {Y A B : List (Option α)} {i j q : ℕ}
    (R : Row h cells (A ++ p :: (Y ++ B))) (hA : A ≠ []) (hB : B ≠ []) (hj : j = A.length)
    (hi : i = A.length + Y.length) (hfuel : Y.length ≤ fuel) :
    ∃ h' L Z, Row h' cells (A ++ L ++ p :: (Z ++ B)) ∧ DataOnly h h' cells ∧
      listLongerRight comparator versus fuel h cells[i]? cells[j]? q =
        .ok (h', cells[j + L.length]?, q + L.length) ∧
      (∀ y ∈ L, comparator.sign versus y p < 0) ∧ (∀ y ∈ Z, 0 ≤ comparator.sign versus y p) ∧
      (L ++ Z).Perm Y := by
  induction fuel generalizing h Y A B i j q with
  | zero =>
    obtain rfl : Y = [] := by simpa using hfuel
    refine ⟨h, [], [], by simpa using R, DataOnly.refl h cells, ?_, by simp, by simp, .refl _⟩
    unfold listLongerRight
    rw [if_pos (by simp [hi, hj]), hj]
    rfl
  | succ fuel ih =>
    rcases List.eq_nil_or_concat Y with rfl | ⟨Y, y, rfl⟩
    · refine ⟨h, [], [], by simpa using R, DataOnly.refl h cells, ?_, by simp, by simp, .refl _⟩
      unfold listLongerRight
      rw [if_pos (by simp [hi, hj]), hj]
      rfl
    rw [List.concat_eq_append] at *
    simp only [List.length_append, List.length_cons, List.length_nil] at hi hfuel
    have hne : ¬cells[i]? = cells[j]? := by
      rw [R.ptr_eq (by rw [hi]; simp)]
      omega
    have R' : Row h cells ((A ++ p :: Y) ++ y :: B) := by simpa using R
    have Rp : Row h cells (A ++ p :: (Y ++ y :: B)) := by simpa using R
    have hcmp := R'.compare comparator versus A (Y ++ y :: B) (b := p) (i := i) (by simp) (by simp; omega) hj
    unfold listLongerRight
    rw [if_neg hne]
    dsimp only
    rw [hcmp, Run.ok_bind]
    by_cases hlt : comparator.sign versus y p < 0
    · rw [if_pos hlt, R'.deref (by simp; omega) (by simp) hB, Run.ok_bind,
        Rp.deref hj hA (by simp), Run.ok_bind]
      dsimp only
      cases Y with
      | nil =>
        -- the node behind the pivot is `right` itself
        obtain rfl : i = j + 1 := by simp at hi; omega
        have R₀ : Row h cells ((A ++ [p]) ++ y :: B) := by simpa using R
        obtain ⟨h₁, e₁, R₁, d₁⟩ := R₀.set (i := j + 1) (by simp [hj]) y
        have R₁' : Row h₁ cells (A ++ p :: y :: B) := by simpa using R₁
        obtain ⟨h₂, e₂, R₂, d₂⟩ := R₁.set (i := j + 1) (by simp [hj]) p
        have R₂' : Row h₂ cells (A ++ p :: p :: B) := by simpa using R₂
        obtain ⟨h₃, e₃, R₃, d₃⟩ := R₂'.set hj y
        rw [R₀.deref (by simp [hj]) (by simp) hB, Run.ok_bind]
        dsimp only
        rw [e₁, Run.ok_bind, R₁'.deref hj hA (by simp), Run.ok_bind]
        dsimp only
        rw [e₂, Run.ok_bind, e₃, Run.ok_bind, if_pos rfl]
        exact ⟨h₃, [y], [], by simpa using R₃, (d₁.trans d₂).trans d₃, rfl, by simpa using hlt,
          by simp, .refl _⟩
      | cons z Y =>
        simp only [List.length_cons] at hi hfuel
        have Rr : Row h cells (A ++ p :: z :: (Y ++ y :: B)) := by simpa using R
        have Rz : Row h cells ((A ++ [p]) ++ z :: (Y ++ y :: B)) := by simpa using R
        obtain ⟨h₁, h₂, h₃, e₁, e₂, e₃, R₁, R₃, d⟩ := Rr.rotateRight hj (i := i) (by omega)
        rw [Rz.deref (i := j + 1) (by simp [hj]) (by simp) (by simp), Run.ok_bind]
        dsimp only
        rw [e₁, Run.ok_bind, R₁.deref hj hA (by simp), Run.ok_bind]
        dsimp only
        have hright : ¬cells[j + 1]? = cells[i]? := by
          rw [R₃.ptr_eq (by simp [hj])]
          omega
        rw [e₂, Run.ok_bind, e₃, Run.ok_bind, if_neg hright]
        obtain ⟨h', L, Z, R₄, d', he, hL, hZ, hperm⟩ := ih (h := h₃) (A := A ++ [y])
          (Y := Y ++ [z]) (B := B) (i := i) (j := j + 1) (q := q + 1)
          (by simpa using R₃) (by simp) hB (by simp [hj]) (by simp; omega) (by simp; omega)
        refine ⟨h', y :: L, Z, by simpa using R₄, d.trans d', ?_, ?_, hZ, ?_⟩
        · rw [he, show j + 1 + L.length = j + (y :: L).length by simp; omega,
            show q + 1 + L.length = q + (y :: L).length by simp; omega]
        · intro x hx
          rcases List.mem_cons.1 hx with rfl | hx
          · exact hlt
          · exact hL x hx
        · classical
          refine List.perm_iff_count.2 fun a => ?_
          have hcount := List.perm_iff_count.1 hperm a
          simp only [List.cons_append, List.count_append, List.count_cons, List.count_nil]
            at hcount ⊢
          omega
    · rw [if_neg hlt, R'.deref (by simp; omega) (by simp) hB, Run.ok_bind]
      obtain ⟨h', L, Z, R₁, d, he, hL, hZ, hperm⟩ := ih (A := A) (Y := Y) (B := y :: B)
        (i := i - 1) (j := j) (q := q) (by simpa using R) hA (by simp) hj (by omega)
        (by omega)
      refine ⟨h', L, Z ++ [y], by simpa using R₁, d, he, hL, ?_, ?_⟩
      · intro x hx
        rcases List.mem_append.1 hx with hx | hx
        · exact hZ x hx
        · rw [List.mem_singleton.1 hx]
          exact Int.not_lt.1 hlt
      · rw [← List.append_assoc]
        exact hperm.append_right [y]

/-! ## Selection sort -/

/-- The inner loop finds a datum that comes after none of those it passes. -/
theorem toswap_row (V : List (Option α)) (fuel : ℕ) {A B : List (Option α)} {m : Option α} {t k e : ℕ}
    (R : Row h cells (A ++ V ++ B)) (hB : B ≠ []) (ht : t < A.length)
    (hm : (A ++ V ++ B)[t]? = some m) (hk : k = A.length) (he : e + 1 = A.length + V.length)
    (he0 : 0 < e) (hfuel : V.length ≤ fuel) :
    ∃ t' m', listToswap comparator versus h cells[e]? fuel cells[t]? cells[k]? = .ok cells[t']? ∧
      (A ++ V ++ B)[t']? = some m' ∧ (t' = t ∨ A.length ≤ t' ∧ t' < A.length + V.length) ∧
      (comparator.Orders versus → ∀ v ∈ m :: V, comparator.sign versus m' v ≤ 0) := by
  have hB' := List.length_pos_iff.2 hB
  obtain ⟨d, -, hlast⟩ := R.deref_at he0 (by simp; omega)
  induction V generalizing A m fuel t k with
  | nil =>
    refine ⟨t, m, ?_, hm, Or.inl rfl, fun o v hv => ?_⟩
    · unfold listToswap
      rw [hlast, Run.ok_bind, if_pos (by rw [hk, he]; rfl)]
      rfl
    · rw [List.mem_singleton.1 hv]
      rcases Int.le_total (comparator.sign versus m m) 0 with h | h
      · exact h
      · exact o.flip m m h
  | cons v V ih =>
    simp only [List.length_cons] at he hfuel
    obtain ⟨fuel, rfl⟩ : ∃ f, fuel = f + 1 := ⟨fuel - 1, by omega⟩
    have hassoc : A ++ v :: V ++ B = A ++ [v] ++ V ++ B := by simp
    have Rv : Row h cells (A ++ v :: (V ++ B)) := by simpa using R
    have hcmp := R.compare_at comparator versus (i := t) (j := k)
      (b := v) hm (by rw [hk]; simp)
    have hne : ¬cells[k]? = cells[e + 1]? := by
      rw [R.ptr_eq (by rw [hk]; simp)]
      omega
    unfold listToswap
    rw [hlast, Run.ok_bind, if_neg hne]
    dsimp only
    rw [hcmp, Run.ok_bind, Rv.deref hk (by rintro rfl; simp at ht) (by simp [hB]), Run.ok_bind]
    dsimp only
    by_cases hgt : 0 < comparator.sign versus m v
    · rw [if_pos hgt]
      obtain ⟨t', m', he', hm', hin, ho⟩ := ih fuel (A := A ++ [v]) (m := v) (t := k) (k := k + 1)
        (by simpa using R) (by simp [hk]) (by simp [hk]) (by simp [hk]) (by simp; omega)
        (by omega)
      refine ⟨t', m', he', hassoc ▸ hm', ?_, fun o w hw => ?_⟩
      · simp only [List.length_append, List.length_singleton] at hin
        simp only [List.length_cons]
        omega
      · rcases List.mem_cons.1 hw with rfl | hw
        · exact o.trans _ _ _ (ho o v (by simp)) (o.flip _ _ (Int.le_of_lt hgt))
        · exact ho o w hw
    · rw [if_neg hgt]
      obtain ⟨t', m', he', hm', hin, ho⟩ := ih fuel (A := A ++ [v]) (m := m) (t := t) (k := k + 1)
        (by simpa using R) (by simp; omega) (hassoc ▸ hm) (by simp [hk]) (by simp; omega)
        (by omega)
      refine ⟨t', m', he', hassoc ▸ hm', ?_, fun o w hw => ?_⟩
      · simp only [List.length_append, List.length_singleton] at hin
        simp only [List.length_cons]
        omega
      · rcases List.mem_cons.1 hw with rfl | hw
        · exact ho o w (by simp)
        · rcases List.mem_cons.1 hw with rfl | hw
          · exact o.trans _ _ _ (ho o m (by simp)) (Int.not_lt.1 hgt)
          · exact ho o w (List.mem_cons_of_mem _ hw)

/-- The data `M` were put in the order `M'`. -/
structure Sorted (comparator : ElementComparator α) (versus : ℤ) (M M' : List (Option α)) : Prop where
  perm : M'.Perm M
  pairwise : comparator.Orders versus → M'.Pairwise fun a b => comparator.sign versus a b ≤ 0

/-- One round of the outer loop: a datum that comes after none of the others is the first. -/
theorem select_round {U A B : List (Option α)} {x : Option α} {k e fuel : ℕ}
    (R : Row h cells (A ++ x :: U ++ B)) (hA : A ≠ []) (hB : B ≠ []) (hk : k = A.length)
    (he : e = k + U.length) (hfuel : U.length ≤ fuel) :
    ∃ toswap m rest h', listToswap comparator versus h cells[e]? fuel cells[k]? cells[k + 1]? =
        .ok toswap ∧
      (toswap = cells[k]? ∧ h' = h ∨ toswap ≠ cells[k]? ∧ h.swap cells[k]? toswap = .ok h') ∧
      Row h' cells (A ++ m :: rest ++ B) ∧ DataOnly h h' cells ∧ (m :: rest).Perm (x :: U) ∧
      (comparator.Orders versus → ∀ v ∈ rest, comparator.sign versus m v ≤ 0) := by
  have hA' := List.length_pos_iff.2 hA
  obtain ⟨t', m, het, hm, hin, ho⟩ := toswap_row comparator versus U fuel
    (A := A ++ [x]) (B := B) (m := x) (t := k) (k := k + 1) (e := e)
    (by simpa using R) hB (by simp [hk]) (by simp [hk]) (by simp [hk]) (by simp; omega) (by omega)
    hfuel
  simp only [List.length_append, List.length_singleton] at hin
  rcases hin with rfl | ⟨hge, hlt⟩
  · -- the first datum stays
    obtain rfl : x = m := by simpa [hk] using hm
    exact ⟨_, x, U, h, het, Or.inl ⟨rfl, rfl⟩, R, DataOnly.refl h cells, .refl _,
      fun o v hv => ho o v (List.mem_cons_of_mem _ hv)⟩
  · have hU : U[t' - (k + 1)]? = some m := by
      rw [List.append_assoc, List.getElem?_append_right (by simp; omega),
        List.getElem?_append_left (by simp; omega)] at hm
      rw [← hm]
      congr 1
      simp [hk]
    obtain ⟨hlt', hget⟩ := List.getElem?_eq_some_iff.1 hU
    obtain ⟨M, N, rfl, hM⟩ : ∃ M N, U = M ++ m :: N ∧ M.length = t' - (k + 1) := by
      refine ⟨U.take (t' - (k + 1)), U.drop (t' - (k + 1) + 1), ?_, ?_⟩
      · rw [← hget, ← List.drop_eq_getElem_cons hlt', List.take_append_drop]
      · rw [List.length_take]
        omega
    have hne : cells[t']? ≠ cells[k]? := by
      rw [Ne, R.ptr_eq (by simp; simp at hlt; omega)]
      omega
    obtain ⟨h', e', R', d⟩ := Row.swap (A := A) (M := M) (B := N ++ B) (x := x) (y := m) (i := k)
      (j := t') (by simpa using R) hk (by omega)
    refine ⟨_, m, M ++ x :: N, h', het, Or.inr ⟨hne, e'⟩, by simpa using R', d, ?_,
      fun o v hv => ho o v ?_⟩
    · classical
      refine List.perm_iff_count.2 fun a => ?_
      simp only [List.count_append, List.count_cons]
      omega
    · simp only [List.mem_append, List.mem_cons] at hv ⊢
      tauto

/-- The outer loop. -/
theorem select_row (fuel : ℕ) {U A B : List (Option α)} {x : Option α} {k e : ℕ}
    (R : Row h cells (A ++ x :: U ++ B)) (hA : A ≠ []) (hB : B ≠ []) (hk : k = A.length)
    (he : e = k + U.length) (hfuel : U.length ≤ fuel) :
    ∃ h' M, listSelect comparator versus cells[e]? fuel h cells[k]? = .ok h' ∧
      Row h' cells (A ++ M ++ B) ∧ DataOnly h h' cells ∧ Sorted comparator versus (x :: U) M := by
  induction fuel generalizing h U A x k with
  | zero =>
    obtain rfl : U = [] := by simpa using hfuel
    refine ⟨h, [x], ?_, R, DataOnly.refl h cells, .refl _, fun _ => List.pairwise_singleton _ _⟩
    unfold listSelect
    rw [if_pos (by simp [he])]
  | succ fuel ih =>
    cases hU : U with
    | nil =>
      subst hU
      refine ⟨h, [x], ?_, R, DataOnly.refl h cells, .refl _, fun _ => List.pairwise_singleton _ _⟩
      unfold listSelect
      rw [if_pos (by simp [he])]
    | cons u U' =>
      have htop : U.length ≤ h.top := by
        have := R.top
        rw [R.length] at this
        simp only [List.length_append, List.length_cons] at this
        omega
      have hpos : 0 < U.length := by rw [hU]; simp
      have hne : ¬cells[k]? = cells[e]? := by
        rw [R.ptr_eq (by simp; omega)]
        omega
      have Rx : Row h cells (A ++ x :: (U ++ B)) := by simpa using R
      obtain ⟨toswap, m, rest, h₁, het, hsw, R₁, d₁, hperm, ho⟩ := select_round
        comparator versus R hA hB hk he htop
      have hlen : rest.length = U.length := by simpa using hperm.length_eq
      obtain ⟨y, rest, rfl⟩ := List.exists_cons_of_length_pos (hlen ▸ hpos)
      have R₁' : Row h₁ cells (A ++ m :: (y :: rest ++ B)) := by simpa using R₁
      unfold listSelect
      rw [if_neg hne]
      dsimp only
      rw [Rx.deref hk hA (by simp [hB]), Run.ok_bind, het, Run.ok_bind]
      obtain ⟨h', M, he', R', d', srt⟩ := ih (h := h₁) (U := rest) (A := A ++ [m]) (x := y)
        (k := k + 1) (by simpa using R₁) (by simp) (by simp [hk]) (by simp at hlen; omega)
        (by simp at hlen; omega)
      refine ⟨h', m :: M, ?_, by simpa using R', d₁.trans d', ?_, fun o => ?_⟩
      · rcases hsw with ⟨hsame, rfl⟩ | ⟨hother, hsw⟩
        · rw [if_neg (fun hn => hn hsame), Run.ok_bind, R₁'.deref hk hA (by simp), Run.ok_bind]
          exact he'
        · rw [if_pos hother, hsw, Run.ok_bind, R₁'.deref hk hA (by simp), Run.ok_bind]
          exact he'
      · rw [← hU]
        exact (srt.perm.cons m).trans hperm
      · exact List.pairwise_cons.2 ⟨fun v hv => ho o v (srt.perm.mem_iff.1 hv), srt.pairwise o⟩

/-! ## Quicksort -/

theorem Row.forward (R : Row h cells ds) {i n : ℕ} (hi : 0 < i) (hn : i + n < ds.length) :
    h.forward n cells[i]? = .ok cells[i + n]? := by
  induction n generalizing i with
  | zero => rfl
  | succ n ih =>
    obtain ⟨a, -, he⟩ := R.deref_at hi (by omega)
    rw [NodeHeap.forward, he, Run.ok_bind]
    dsimp only
    rw [ih (by omega) (by omega), show i + 1 + n = i + (n + 1) by omega]

theorem Row.backward (R : Row h cells ds) {i n : ℕ} (hi : i + 1 < ds.length) (hn : n ≤ i) :
    h.backward n cells[i]? = .ok cells[i - n]? := by
  induction n generalizing i with
  | zero => rfl
  | succ n ih =>
    obtain ⟨a, -, he⟩ := R.deref_at (i := i) (by omega) hi
    rw [NodeHeap.backward, he, Run.ok_bind]
    dsimp only
    rw [ih (by omega) (by omega), show i - 1 - n = i - (n + 1) by omega]

/-- **The data around the pivot.** When the loops are done, none of the data before the pivot comes
after it, and none of those behind it comes before it. -/
theorem pivot_row {X Y A B : List (Option α)} {i j k : ℕ} (R : Row h cells (A ++ X ++ p :: (Y ++ B)))
    (hA : A ≠ []) (hB : B ≠ []) (hi : i = A.length) (hj : j = A.length + X.length)
    (hk : k = j + Y.length) :
    ∃ h₁ left right h₂ L Z,
      listPartition comparator versus cells[j]? h.top h cells[i]? cells[k]? = .ok (h₁, left, right) ∧
      (right = cells[j]? ∧ listLonger comparator versus h₁.top h₁ left cells[j]? X.length =
          .ok (h₂, cells[i + L.length]?, L.length) ∨
        right ≠ cells[j]? ∧ listLongerRight comparator versus h₁.top h₁ right cells[j]? X.length =
          .ok (h₂, cells[i + L.length]?, L.length)) ∧
      Row h₂ cells (A ++ L ++ p :: (Z ++ B)) ∧ DataOnly h h₂ cells ∧
      (∀ x ∈ L, comparator.sign versus x p ≤ 0) ∧ (∀ y ∈ Z, 0 ≤ comparator.sign versus y p) ∧
      (L ++ p :: Z).Perm (X ++ p :: Y) := by
  have htop : A.length + X.length + 1 + Y.length + B.length ≤ h.top := by
    have := R.top
    rw [R.length] at this
    simp at this
    omega
  obtain ⟨h₁, L, X', Y', Z, P, R₁, d₁, e₁⟩ := partition_row comparator versus h.top R hA hB hi hj hk (by omega)
  have hleft := P.left
  have hright := P.right
  have htop₁ := d₁.top
  by_cases hY : Y' = []
  · subst hY
    obtain ⟨h₂, L₂, Z₂, R₂, d₂, e₂, hL, hZ, hperm⟩ := longer_row comparator versus h₁.top
      (A := A ++ L) (X := X') (B := Z ++ B) (i := i + L.length) (j := j)
      (q := X.length) (by simpa using R₁) (by simp [hA]) (by simp [hB]) (by simp [hi])
      (by simp; omega) (by omega) (by omega)
    have hlen : L₂.length + Z₂.length = X'.length := by simpa using hperm.length_eq
    refine ⟨h₁, _, _, h₂, L ++ L₂, Z₂ ++ Z, e₁, Or.inl ⟨rfl, ?_⟩, by simpa using R₂, d₁.trans d₂,
      fun x hx => ?_, fun y hy => ?_, ?_⟩
    · rw [e₂, show i + L.length + L₂.length = i + (L ++ L₂).length by simp; omega,
        show X.length - Z₂.length = (L ++ L₂).length by simp; omega]
    · exact (List.mem_append.1 hx).elim (P.below x) (hL x)
    · exact (List.mem_append.1 hy).elim (fun h => Int.le_of_lt (hZ y h)) (P.above y)
    · classical
      refine (List.perm_iff_count.2 fun a => ?_).trans P.perm
      have hcount := List.perm_iff_count.1 hperm a
      simp only [List.count_append, List.count_cons, List.count_nil] at hcount ⊢
      omega
  · obtain rfl : X' = [] := P.ended.resolve_right hY
    have hYpos := List.length_pos_iff.2 hY
    obtain ⟨h₂, L₂, Z₂, R₂, d₂, e₂, hL, hZ, hperm⟩ := longerRight_row comparator versus h₁.top
      (A := A ++ L) (Y := Y') (B := Z ++ B) (i := j + Y'.length) (j := j)
      (q := X.length) (by simpa using R₁) (by simp [hA]) (by simp [hB])
      (by simp at hleft ⊢; omega) (by simp at hleft ⊢; omega) (by omega)
    have hne : cells[j + Y'.length]? ≠ cells[j]? := by
      rw [Ne, R₁.ptr_eq (by simp at hleft ⊢; omega)]
      omega
    simp only [List.length_nil, Nat.add_zero] at hleft
    refine ⟨h₁, _, _, h₂, L ++ L₂, Z₂ ++ Z, e₁, Or.inr ⟨hne, ?_⟩, by simpa using R₂, d₁.trans d₂,
      fun x hx => ?_, fun y hy => ?_, ?_⟩
    · rw [e₂, show j + L₂.length = i + (L ++ L₂).length by simp; omega,
        show X.length + L₂.length = (L ++ L₂).length by simp; omega]
    · exact (List.mem_append.1 hx).elim (P.below x) fun h => Int.le_of_lt (hL x h)
    · exact (List.mem_append.1 hy).elim (hZ y) (P.above y)
    · classical
      refine (List.perm_iff_count.2 fun a => ?_).trans P.perm
      have hcount := List.perm_iff_count.1 hperm a
      simp only [List.count_append, List.count_cons, List.count_nil] at hcount ⊢
      omega

variable {comparator versus}

/-- Two sorted parts around a pivot. -/
theorem Sorted.join {M L L' Z Z' : List (Option α)} (hL : Sorted comparator versus L L')
    (hZ : Sorted comparator versus Z Z') (hperm : (L ++ p :: Z).Perm M)
    (hbelow : ∀ x ∈ L, comparator.sign versus x p ≤ 0)
    (habove : ∀ y ∈ Z, 0 ≤ comparator.sign versus y p) :
    Sorted comparator versus M (L' ++ p :: Z') where
  perm := ((hL.perm.append_right _).trans ((hZ.perm.cons p).append_left L)).trans hperm
  pairwise := fun o => by
    have hp : ∀ y ∈ Z', comparator.sign versus p y ≤ 0 := fun y hy =>
      o.flip _ _ (habove y (hZ.perm.mem_iff.1 hy))
    have hb : ∀ x ∈ L', comparator.sign versus x p ≤ 0 := fun x hx =>
      hbelow x (hL.perm.mem_iff.1 hx)
    rw [List.pairwise_append, List.pairwise_cons]
    refine ⟨hL.pairwise o, ⟨hp, hZ.pairwise o⟩, fun x hx y hy => ?_⟩
    rcases List.mem_cons.1 hy with rfl | hy
    · exact hb x hx
    · exact o.trans _ _ _ (hb x hx) (hp y hy)

variable (comparator versus)

/-- **Quicksort sorts**, whatever the random numbers. -/
theorem quicksort_row (rand : ℕ → ℕ) (fuel : ℕ) {M A B : List (Option α)} {i e f m k : ℕ}
    (R : Row h cells (A ++ M ++ B)) (hA : A ≠ []) (hB : B ≠ []) (hM : M ≠ []) (hi : i = A.length)
    (he : e + 1 = A.length + M.length) (hlast : m + 1 = f + M.length)
    (hfuel : M.length ≤ fuel) :
    ∃ h' k' M', listSortQuicksort comparator versus rand fuel k h f cells[i]? m cells[e]? =
        .ok (h', k') ∧
      Row h' cells (A ++ M' ++ B) ∧ DataOnly h h' cells ∧ Sorted comparator versus M M' := by
  induction fuel generalizing h M A B i e f m k with
  | zero => exact absurd (List.length_eq_zero_iff.1 (by omega)) hM
  | succ fuel ih =>
    have hMpos := List.length_pos_iff.2 hM
    have hApos := List.length_pos_iff.2 hA
    have hBpos := List.length_pos_iff.2 hB
    unfold listSortQuicksort
    by_cases hone : m ≤ f
    · rw [if_pos hone]
      obtain ⟨x, rfl⟩ := List.length_eq_one_iff.1 (show M.length = 1 by omega)
      exact ⟨h, k, [x], rfl, R, DataOnly.refl h cells, .refl _, fun _ => List.pairwise_singleton _ _⟩
    rw [if_neg hone]
    have hsize : m - f + 1 = M.length := by omega
    rw [hsize]
    by_cases hsmall : M.length ≤ simclistMinQuicksortEls
    · rw [if_pos hsmall]
      obtain ⟨x, U, rfl⟩ := List.exists_cons_of_ne_nil hM
      have htop : U.length ≤ h.top := by
        have := R.top
        rw [R.length] at this
        simp only [List.length_append, List.length_cons] at this
        omega
      obtain ⟨h', M', es, R', d, srt⟩ := select_row comparator versus
        h.top R hA hB hi (e := e) (by simp at he; omega) htop
      refine ⟨h', k, M', ?_, R', d, srt⟩
      unfold listSortSelectionsort
      rw [if_neg hone, es]
      rfl
    rw [if_neg hsmall]
    dsimp only
    set r := rand k % M.length with hr
    have hrlt : r < M.length := Nat.mod_lt _ hMpos
    -- both ways lead to the node number `r`
    have hpivot : (if r < M.length / 2 then h.forward r cells[i]?
        else h.backward (m - f - r) cells[e]?) = .ok cells[i + r]? := by
      have hlen : (A ++ M ++ B).length = A.length + M.length + B.length := by simp; omega
      by_cases hhalf : r < M.length / 2
      · rw [if_pos hhalf, R.forward (by omega) (by omega)]
      · rw [if_neg hhalf, R.backward (by omega) (by omega)]
        congr 2
        omega
    rw [hpivot, Run.ok_bind]
    obtain ⟨X, p, Y, rfl, hX⟩ : ∃ X p Y, M = X ++ p :: Y ∧ X.length = r :=
      ⟨M.take r, M[r], M.drop (r + 1), by rw [← List.drop_eq_getElem_cons hrlt, List.take_append_drop],
        by rw [List.length_take]; omega⟩
    simp only [List.length_append, List.length_cons] at he hlast hfuel
    obtain ⟨h₁, left, right, h₂, L, Z, e₁, e₂, R₂, d₂, hL, hZ, hperm⟩ := pivot_row
      comparator versus (X := X) (Y := Y) (j := i + r) (k := e)
      (by simpa using R) hA hB hi (by omega) (by omega)
    have hcount : L.length + Z.length = X.length + Y.length := by
      have := hperm.length_eq
      simp at this
      omega
    rw [e₁, Run.ok_bind]
    dsimp only
    have hlong : (if right = cells[i + r]?
        then listLonger comparator versus h₁.top h₁ left cells[i + r]? r
        else listLongerRight comparator versus h₁.top h₁ right cells[i + r]? r) =
        .ok (h₂, cells[i + L.length]?, L.length) := by
      rw [hX] at e₂
      rcases e₂ with ⟨hsame, e₂⟩ | ⟨hne, e₂⟩
      · rw [if_pos hsame, e₂]
      · rw [if_neg hne, e₂]
    rw [hlong, Run.ok_bind]
    dsimp only
    -- the part before the pivot
    have hbefore : ∃ h₃ k₃ L', (if 0 < L.length then do
          listSortQuicksort comparator versus rand fuel (k + 1) h₂ f cells[i]?
            (f + L.length - 1) (← h₂.deref cells[i + L.length]?).prev
        else .ok (h₂, k + 1)) = .ok (h₃, k₃) ∧
        Row h₃ cells (A ++ L' ++ p :: (Z ++ B)) ∧ DataOnly h₂ h₃ cells ∧
        Sorted comparator versus L L' := by
      by_cases hLpos : 0 < L.length
      · rw [if_pos hLpos, R₂.deref (by simp [hi]) (by simp [hA]) (by simp [hB]), Run.ok_bind]
        exact ih (by simpa using R₂) hA (by simp) (List.length_pos_iff.1 hLpos) hi (by omega)
          (by omega) (by omega)
      · rw [if_neg hLpos]
        obtain rfl : L = [] := List.eq_nil_of_length_eq_zero (by omega)
        exact ⟨h₂, k + 1, [], rfl, R₂, DataOnly.refl _ _, .refl _, fun _ => .nil⟩
    obtain ⟨h₃, k₃, L', e₃, R₃, d₃, srtL⟩ := hbefore
    have hlenL : L'.length = L.length := srtL.perm.length_eq
    rw [e₃, Run.ok_bind]
    dsimp only
    -- the part behind it
    by_cases hZpos : 0 < Z.length
    · rw [if_pos (by omega), R₃.deref (by simp; omega) (by simp [hA]) (by simp [hB]), Run.ok_bind]
      obtain ⟨h₄, k₄, Z', e₄, R₄, d₄, srtZ⟩ := ih (h := h₃) (M := Z) (A := A ++ L' ++ [p]) (B := B)
        (i := i + L.length + 1) (e := e) (f := f + L.length + 1) (m := m) (k := k₃)
        (by simpa using R₃) (by simp) hB (List.length_pos_iff.1 hZpos) (by simp; omega)
        (by simp; omega) (by omega) (by omega)
      exact ⟨h₄, k₄, L' ++ p :: Z', e₄, by simpa using R₄, (d₂.trans d₃).trans d₄,
        srtL.join srtZ hperm hL hZ⟩
    · rw [if_neg (by omega)]
      obtain rfl : Z = [] := List.eq_nil_of_length_eq_zero (by omega)
      exact ⟨h₃, k₃, L' ++ [p], rfl, by simpa using R₃, d₂.trans d₃,
        srtL.join ⟨.refl _, fun _ => .nil⟩ hperm hL hZ⟩

variable {comparator versus}

/-! ## The whole list -/

variable {l : ListT α} {nodes : List ℕ} {v : ListVal α}

/-- The row of a list, with its sentinels. -/
theorem Seated.row (s : Seated h l nodes) (hf : h.Fresh) :
    Row h (l.cells nodes) ([none] ++ ListT.items h nodes ++ [none]) where
  nodup := s.cells_nodup
  linked := s.linked
  live := fun a ha => s.live a (List.mem_append_left _ ha)
  data := by
    rw [ListT.cells, List.map_cons, List.map_append, s.head, List.map_singleton, s.tail]
    rfl
  top := by
    have hsub : l.cells nodes ⊆ List.range h.top := fun a ha =>
      List.mem_range.2 (hf.lt (s.live a (List.mem_append_left _ ha)))
    simpa using (List.subperm_of_subset s.cells_nodup hsub).length_le

/-- A list whose data alone changed. -/
theorem Seated.of_row {M : List (Option α)} (s : Seated h l nodes)
    (R : Row h' (l.cells nodes) ([none] ++ M ++ [none])) (d : DataOnly h h' (l.cells nodes)) :
    Seated h' l nodes ∧ ListT.items h' nodes = M := by
  have hdata := R.data
  rw [ListT.cells, List.map_cons, List.map_append, List.map_singleton, List.cons_append,
    List.cons_append, List.nil_append, List.cons.injEq] at hdata
  obtain ⟨hhead, hrest⟩ := hdata
  obtain ⟨hitems, htail⟩ := List.append_inj' hrest rfl
  exact ⟨⟨s.nodup, fun a ha => (d.live a).2 (s.live a ha), R.linked, hhead, by simpa using htail,
    s.numels, s.mid, s.spares⟩, hitems⟩

/-- **`list_sort`.** -/
theorem Held.sort (H : Held h l nodes v) (hf : h.Fresh) (hcmp : v.comparator = some comparator)
    (versus : ℤ) (rand : ℕ → ℕ) :
    ∃ h' M, listSort h l versus rand = .ok (h', 0) ∧ Sorted comparator versus v.items M ∧
      Held h' l nodes { v with items := M } ∧ h.Moved h' (l.own nodes) (l.own nodes) := by
  unfold listSort
  rw [H.comparator.trans hcmp]
  dsimp only
  by_cases hone : l.numels ≤ 1
  · rw [if_pos hone]
    refine ⟨h, v.items, rfl, ⟨.refl _, fun _ => ?_⟩, H, NodeHeap.Moved.refl hf H.seated.live⟩
    rw [H.seated.numels, ← H.length] at hone
    cases hv : v.items with
    | nil => exact .nil
    | cons x M =>
      obtain rfl : M = [] := by simpa [hv] using hone
      exact List.pairwise_singleton _ _
  rw [if_neg hone]
  rw [H.seated.numels] at hone ⊢
  have R := H.seated.row hf
  rw [H.items] at R
  have hlen := H.length
  have hhead : (l.cells nodes)[0]? = some l.headSentinel := rfl
  have htail : (l.cells nodes)[nodes.length + 1]? = some l.tailSentinel := by simp [ListT.cells]
  obtain ⟨fst, hfst⟩ := l.cell_of_lt nodes (i := 1) (by omega)
  obtain ⟨lst, hlst⟩ := l.cell_of_lt nodes (i := nodes.length) (by omega)
  rw [NodeHeap.deref_eq (H.seated.live_of_cell hhead), Run.ok_bind,
    NodeHeap.deref_eq (H.seated.live_of_cell htail), Run.ok_bind, (H.seated.get hhead hfst).1,
    (H.seated.get hlst htail).2]
  dsimp only
  rw [← hfst, ← hlst]
  have htop := R.top
  rw [l.length_cells] at htop
  obtain ⟨h', k', M, he, R', d, srt⟩ := quicksort_row comparator versus rand h.top
    (i := 1) (e := nodes.length) (f := 0) (m := nodes.length - 1) (k := 0) R (by simp) (by simp)
    (by rw [← List.length_pos_iff]; omega) (by simp) (by simp; omega) (by omega) (by omega)
  rw [he, Run.ok_bind]
  obtain ⟨s', hitems⟩ := H.seated.of_row R' d
  refine ⟨h', M, rfl, srt, ⟨s', hitems, H.comparator⟩, fun a ha _ => d.rest a fun hm =>
    ha (List.mem_append_left _ hm), fun _ ha ha' => absurd ha ha', fun _ ha => Or.inl ha,
    fun a ha => ?_, Nat.le_of_eq d.top.symm⟩
  rw [d.top]
  exact hf.lt (H.seated.live a ha)

/-- **Sorting a list of a running program.** After any calls, `list_sort` on a list with a
comparator ends, whatever the comparator and the random numbers; the list then has the same data,
sorted if the comparator is an order, and the program goes on with that list in the place of the
old one. -/
theorem list_sort_run [DecidableEq α] (calls : List (ListCall α)) {shelf : Shelf α}
    {out : List (ListRes α)} (hrun : Shelf.run (fun _ => none) calls = some (shelf, out)) {i : ℕ}
    (hv : shelf i = some v) (hcmp : v.comparator = some comparator) (versus : ℤ) (rand : ℕ → ℕ) :
    ∃ ls ls' items, Lists.empty.run calls = .ok (ls, out) ∧ ls.sort i versus rand = .ok (ls', 0) ∧
      items.Perm v.items ∧
      (comparator.Orders versus →
        items.Pairwise fun a b => comparator.sign versus a b ≤ 0) ∧
      ∀ more shelf' out',
        Shelf.run (Function.update shelf i (some { v with items })) more = some (shelf', out') →
        ∃ ls'', ls'.run more = .ok (ls'', out') := by
  obtain ⟨ls, own, he, H⟩ := Lists.empty_holds.run calls hrun
  obtain ⟨l, hl⟩ := Option.isSome_iff_exists.1 ((H.isSome i).trans (by rw [hv]; rfl))
  obtain ⟨h', M, hs, srt, held, m⟩ := (H.held i l v hl hv).sort H.fresh hcmp versus rand
  have hown : ls.ownOf own i = l.own (own i) := by simp only [Lists.ownOf, hl]
  have H' := H.update i (some l) (some { v with items := M }) (own i)
    (by rw [hown]; simpa [Lists.ownOf] using m) rfl (fun l₁ v₁ hl₁ hv₁ => by
      cases hl₁
      cases hv₁
      exact held)
  rw [← hl, Function.update_eq_self] at H'
  refine ⟨ls, { ls with heap := h' }, M, he, ?_, srt.perm, srt.pairwise,
    fun more shelf' out' hmore => ?_⟩
  · unfold Lists.sort
    rw [hl]
    dsimp only
    rw [hs]
    rfl
  · obtain ⟨ls'', _, he', -⟩ := H'.run more hmore
    exact ⟨ls'', he'⟩

/-- The order of numbers, as a comparator. -/
def byValue : ElementComparator ℕ := fun a b => b.getD 0 - a.getD 0

theorem byValue_orders : byValue.Orders 1 where
  flip := fun a b h => by
    simp only [ElementComparator.sign, byValue] at h ⊢
    omega
  trans := fun a b d h h' => by
    simp only [ElementComparator.sign, byValue] at h h' ⊢
    omega

/-- Three items in the wrong order. -/
theorem list_sort_run_threeItems :
    ∃ (ls ls' : Lists ℕ) (items : List (Option ℕ)), Lists.empty.run [.init 0, .op 0 (.comparator (some byValue)),
        .op 0 (.append (some 3)), .op 0 (.append (some 1)), .op 0 (.append (some 2))] =
        .ok (ls, [.int 0, .int 0, .int 1, .int 1, .int 1]) ∧
      ls.sort 0 1 (fun _ => 7) = .ok (ls', 0) ∧ items.Perm [some 3, some 1, some 2] ∧
      (items.Pairwise fun a b => byValue.sign 1 a b ≤ 0) ∧
      ∃ ls'', ls'.run [.op 0 (.contains (some 2)), .destroy 0] = .ok (ls'', [.int 1, .int 0]) := by
  obtain ⟨ls, ls', items, he, hs, hperm, hpw, hmore⟩ := list_sort_run (α := ℕ)
    (v := ⟨[some 3, some 1, some 2], some byValue⟩) [.init 0, .op 0 (.comparator (some byValue)),
    .op 0 (.append (some 3)), .op 0 (.append (some 1)), .op 0 (.append (some 2))] rfl (i := 0) rfl
    rfl 1 (fun _ => 7)
  -- the item is found wherever the sort has put it
  have hany : items.any (ListVal.found ⟨items, some byValue⟩ (some 2)) = true := by
    rw [List.any_eq_true]
    exact ⟨some 2, hperm.mem_iff.2 (by simp), rfl⟩
  have hlen : items.length < 2 ^ 24 := by
    rw [hperm.length_eq]
    decide
  have hrest : ∀ shelf : Shelf ℕ, Shelf.run (Function.update shelf 0 (some ⟨items, some byValue⟩))
      [.op 0 (.contains (some 2)), .destroy 0] =
      some (Function.update (Function.update (Function.update shelf 0 (some ⟨items, some byValue⟩)) 0
        (some ⟨items, some byValue⟩)) 0 none, [.int 1, .int 0]) := fun shelf => by
    simp only [Shelf.run, Shelf.call, Function.update_self, if_pos hlen, ListVal.op, hany, if_true,
      Option.map_some]
  exact ⟨ls, ls', items, he, hs, hperm, hpw byValue_orders, hmore _ _ _ (hrest _)⟩

end Zimr
