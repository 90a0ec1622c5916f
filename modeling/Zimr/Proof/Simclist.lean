import Mathlib.Data.List.InsertIdx
import Mathlib.Data.List.Perm.Subperm
import Zimr.Lib.Chain
import Zimr.Lib.Run
import Zimr.Spec.Simclist

/-!
# The list library keeps lists

`Seated h l nodes` is the invariant: between the sentinels of `l` the heap holds the nodes
`nodes`, in both directions, `mid` points to the middle one, and the spare nodes lie apart. Each
operation keeps it, does to the data what it says, and leaves the nodes of other lists alone
(`NodeHeap.Moved`).
-/

namespace Zimr

open Chain

variable {α : Type} {h h' : NodeHeap α} {l l' : ListT α} {nodes : List ℕ}

/-! ## The heap -/

namespace NodeHeap

/-- The `next` of a node. -/
def next (h : NodeHeap α) (a : ℕ) : Option ℕ := (h.node a).bind (·.next)

/-- The `prev` of a node. -/
def prev (h : NodeHeap α) (a : ℕ) : Option ℕ := (h.node a).bind (·.prev)

/-- The data of a node. -/
def data (h : NodeHeap α) (a : ℕ) : Option α := (h.node a).bind (·.data)

/-- The node is allocated. -/
def Live (h : NodeHeap α) (a : ℕ) : Prop := (h.node a).isSome = true

/-- `h'` has the nodes of `h`, with other fields at most in `a`. -/
structure Sets (h h' : NodeHeap α) (a : ℕ) : Prop where
  live : ∀ x, h'.Live x ↔ h.Live x
  node : ∀ x, x ≠ a → h'.node x = h.node x
  top : h'.top = h.top

theorem deref_eq {a : ℕ} (ha : h.Live a) :
    h.deref (some a) = .ok ⟨h.data a, h.next a, h.prev a⟩ := by
  unfold Live at ha
  obtain ⟨e, he⟩ := Option.isSome_iff_exists.1 ha
  simp [deref, he, data, next, prev]

/-- Every field of every node, after one node was set. -/
theorem modify_eq {a : ℕ} (ha : h.Live a) (f : ListEntry α → ListEntry α) :
    ∃ h', h.modify (some a) f = .ok h' ∧ h.Sets h' a ∧
      h'.next = Function.update h.next a (f ⟨h.data a, h.next a, h.prev a⟩).next ∧
      h'.prev = Function.update h.prev a (f ⟨h.data a, h.next a, h.prev a⟩).prev ∧
      h'.data = Function.update h.data a (f ⟨h.data a, h.next a, h.prev a⟩).data := by
  unfold Live at ha
  obtain ⟨e, he⟩ := Option.isSome_iff_exists.1 ha
  have heq : e = ⟨h.data a, h.next a, h.prev a⟩ := by simp [data, next, prev, he]
  rw [← heq]
  refine ⟨{ h with node := Function.update h.node a (some (f e)) }, by simp [modify, he], ?_, ?_, ?_,
    ?_⟩
  · refine ⟨fun x => ?_, fun x hx => Function.update_of_ne hx _ _, rfl⟩
    by_cases hx : x = a
    · subst hx; simp [Live, he]
    · simp [Live, Function.update_of_ne hx]
  all_goals
    funext x
    by_cases hx : x = a
    · subst hx; simp [next, prev, data]
    · simp [next, prev, data, Function.update_of_ne hx]

/-- No node was allocated yet from `top` on. -/
def Fresh (h : NodeHeap α) : Prop := ∀ a, h.top ≤ a → h.node a = none

/-- `h'` comes from `h` by an operation on the nodes `own`, which are then `own'`: the other nodes
are as they were, and what is no longer owned is freed. -/
structure Moved (h h' : NodeHeap α) (own own' : List ℕ) : Prop where
  rest : ∀ a, a ∉ own → a ∉ own' → h'.node a = h.node a
  gone : ∀ a ∈ own, a ∉ own' → ¬h'.Live a
  fresh : ∀ a ∈ own', a ∈ own ∨ h.top ≤ a
  below : ∀ a ∈ own', a < h'.top
  top : h.top ≤ h'.top

theorem Fresh.lt {a : ℕ} (hf : h.Fresh) (ha : h.Live a) : a < h.top := by
  by_contra hle
  rw [Live, hf a (Nat.not_lt.1 hle)] at ha
  cases ha

theorem free_eq {a : ℕ} (ha : h.Live a) :
    ∃ h', h.free a = .ok h' ∧ ¬h'.Live a ∧ (∀ x, x ≠ a → h'.node x = h.node x) ∧ h'.top = h.top := by
  unfold Live at ha
  obtain ⟨e, he⟩ := Option.isSome_iff_exists.1 ha
  exact ⟨{ h with node := Function.update h.node a none }, by simp only [free, he], by simp [Live],
    fun x hx => Function.update_of_ne hx _ _, rfl⟩

theorem Moved.keepsFresh {own own' : List ℕ} (m : h.Moved h' own own') (hf : h.Fresh) :
    h'.Fresh := by
  intro a ha
  have hown' : a ∉ own' := fun hm => Nat.not_lt.2 ha (m.below a hm)
  by_cases hown : a ∈ own
  · simpa [Live] using m.gone a hown hown'
  · rw [m.rest a hown hown']
    exact hf a (Nat.le_trans m.top ha)

/-- An assignment to `data`. -/
theorem setData_eq {a : ℕ} (ha : h.Live a) (v : Option α) :
    ∃ h', h.modify (some a) (fun e => { e with data := v }) = .ok h' ∧ h.Sets h' a ∧
      h'.next = h.next ∧ h'.prev = h.prev ∧ h'.data = Function.update h.data a v := by
  obtain ⟨h', he, hs, hn, hp, hd⟩ := modify_eq ha fun e => { e with data := v }
  exact ⟨h', he, hs, hn.trans (Function.update_eq_self _ _), hp.trans (Function.update_eq_self _ _),
    hd⟩

/-- An assignment to `next`. -/
theorem setNext_eq {a : ℕ} (ha : h.Live a) (v : Option ℕ) :
    ∃ h', h.modify (some a) (fun e => { e with next := v }) = .ok h' ∧ h.Sets h' a ∧
      h'.next = Function.update h.next a v ∧ h'.prev = h.prev ∧ h'.data = h.data := by
  obtain ⟨h', he, hs, hn, hp, hd⟩ := modify_eq ha fun e => { e with next := v }
  exact ⟨h', he, hs, hn, hp.trans (Function.update_eq_self _ _),
    hd.trans (Function.update_eq_self _ _)⟩

/-- An assignment to `prev`. -/
theorem setPrev_eq {a : ℕ} (ha : h.Live a) (v : Option ℕ) :
    ∃ h', h.modify (some a) (fun e => { e with prev := v }) = .ok h' ∧ h.Sets h' a ∧
      h'.next = h.next ∧ h'.prev = Function.update h.prev a v ∧ h'.data = h.data := by
  obtain ⟨h', he, hs, hn, hp, hd⟩ := modify_eq ha fun e => { e with prev := v }
  exact ⟨h', he, hs, hn.trans (Function.update_eq_self _ _), hp,
    hd.trans (Function.update_eq_self _ _)⟩

end NodeHeap

/-! ## The invariant -/

/-- The sentinels and the nodes between them. -/
def ListT.cells (l : ListT α) (nodes : List ℕ) : List ℕ :=
  l.headSentinel :: (nodes ++ [l.tailSentinel])

/-- All nodes of a list, with the spare ones. -/
def ListT.own (l : ListT α) (nodes : List ℕ) : List ℕ := l.cells nodes ++ l.spareels

/-- The heap holds the list `l` with the nodes `nodes`. -/
structure Seated (h : NodeHeap α) (l : ListT α) (nodes : List ℕ) : Prop where
  nodup : (l.own nodes).Nodup
  live : ∀ a ∈ l.own nodes, h.Live a
  linked : Linked h.prev h.next (l.cells nodes)
  head : h.data l.headSentinel = none
  tail : h.data l.tailSentinel = none
  numels : l.numels = nodes.length
  mid : nodes ≠ [] → l.mid = (l.cells nodes)[(nodes.length - 1) / 2 + 1]?
  spares : l.spareels.length ≤ simclistMaxSpareElems

@[simp] theorem ListT.length_cells (l : ListT α) (nodes : List ℕ) :
    (l.cells nodes).length = nodes.length + 2 := by
  simp [ListT.cells]

theorem ListT.cell_of_lt (l : ListT α) (nodes : List ℕ) {i : ℕ} (hi : i < nodes.length + 2) :
    ∃ a, (l.cells nodes)[i]? = some a := by
  rw [← Option.isSome_iff_exists, isSome_getElem?, l.length_cells]
  exact hi

/-- The data of a list. -/
def ListT.items (h : NodeHeap α) (nodes : List ℕ) : List (Option α) := nodes.map h.data

namespace Seated

theorem cells_nodup (s : Seated h l nodes) : (l.cells nodes).Nodup :=
  (List.nodup_append.1 s.nodup).1

theorem live_of_cell (s : Seated h l nodes) {i a : ℕ} (ha : (l.cells nodes)[i]? = some a) :
    h.Live a :=
  s.live a (List.mem_append_left _ (List.mem_of_getElem? ha))

/-- Neighbours point to each other. -/
theorem get (s : Seated h l nodes) {i a b : ℕ} (ha : (l.cells nodes)[i]? = some a)
    (hb : (l.cells nodes)[i + 1]? = some b) : h.next a = some b ∧ h.prev b = some a :=
  s.linked.get s.cells_nodup ha hb

/-- So many nodes further. -/
theorem forward (s : Seated h l nodes) {i n : ℕ} (hi : i + n < nodes.length + 2) :
    h.forward n (l.cells nodes)[i]? = .ok (l.cells nodes)[i + n]? := by
  induction n generalizing i with
  | zero => rfl
  | succ n ih =>
    obtain ⟨a, ha⟩ := l.cell_of_lt nodes (i := i) (by omega)
    obtain ⟨b, hb⟩ := l.cell_of_lt nodes (i := i + 1) (by omega)
    rw [NodeHeap.forward, ha, NodeHeap.deref_eq (s.live_of_cell ha), (s.get ha hb).1, ← hb]
    rw [show i + (n + 1) = i + 1 + n by omega, ← ih (by omega)]
    rfl

/-- So many nodes back. -/
theorem backward (s : Seated h l nodes) {i n : ℕ} (hn : n ≤ i) (hi : i < nodes.length + 2) :
    h.backward n (l.cells nodes)[i]? = .ok (l.cells nodes)[i - n]? := by
  induction n generalizing i with
  | zero => rfl
  | succ n ih =>
    obtain ⟨i, rfl⟩ : ∃ j, i = j + 1 := ⟨i - 1, by omega⟩
    obtain ⟨a, ha⟩ := l.cell_of_lt nodes (i := i) (by omega)
    obtain ⟨b, hb⟩ := l.cell_of_lt nodes (i := i + 1) (by omega)
    rw [NodeHeap.backward, hb, NodeHeap.deref_eq (s.live_of_cell hb), (s.get ha hb).2, ← ha]
    rw [Nat.add_sub_add_right, ← ih (by omega) (by omega)]
    rfl

/-- **`list_findpos`.** It comes to every place from the nearest of the head, the middle and the
tail; `0` is the place of the head. -/
theorem findpos (s : Seated h l nodes) (hs : nodes.length < 2 ^ 24) {k : ℕ}
    (hk : k ≤ nodes.length + 1) :
    listFindpos h l ((k : ℤ) - 1) = .ok (l.cells nodes)[k]? := by
  have hpos : ((k : ℤ) - 1 + 1).toNat = k := by omega
  have hhead : some l.headSentinel = (l.cells nodes)[0]? := rfl
  have htail : some l.tailSentinel = (l.cells nodes)[nodes.length + 1]? := by
    simp [ListT.cells]
  unfold listFindpos
  rw [if_neg (by rw [s.numels]; omega), hpos, s.numels]
  have hmid : nodes.length ≠ 0 → l.mid = (l.cells nodes)[(nodes.length - 1) / 2 + 1]? :=
    fun hne => s.mid (by simpa using hne)
  unfold quarter
  by_cases h0 : nodes.length = 0
  · rw [if_pos h0]
    dsimp only
    rw [htail, s.backward (by omega) (by omega)]
    congr 2
    omega
  rw [if_neg h0]
  by_cases h1 : 2 ^ 26 * k ≤ (2 ^ 24 + 1) * nodes.length
  · rw [if_pos h1]
    dsimp only
    rw [hhead, s.forward (by omega), Nat.zero_add]
  rw [if_neg h1]
  by_cases h2 : 2 ^ 26 * k < (2 ^ 25 - 1) * nodes.length
  · -- the place is not after the middle
    rw [if_pos h2]
    dsimp only
    rw [hmid h0, s.backward (by omega) (by omega)]
    congr 2
    omega
  rw [if_neg h2]
  -- from here on it is not before the middle
  have hle : (nodes.length - 1) / 2 + 1 ≤ k := by omega
  by_cases h3 : 2 ^ 25 * k ≤ (3 * 2 ^ 23 + 1) * nodes.length
  · rw [if_pos h3]
    dsimp only
    rw [hmid h0, s.forward (by omega)]
    congr 2
    omega
  · rw [if_neg h3]
    dsimp only
    rw [htail, s.backward (by omega) (by omega)]
    congr 2
    omega

/-- What counts is the list's own nodes. -/
theorem congr (s : Seated h l nodes) (hn : ∀ a ∈ l.own nodes, h'.node a = h.node a) :
    Seated h' l nodes := by
  have hnext : ∀ a ∈ l.own nodes, h'.next a = h.next a := fun a ha => by
    simp only [NodeHeap.next, hn a ha]
  have hprev : ∀ a ∈ l.own nodes, h'.prev a = h.prev a := fun a ha => by
    simp only [NodeHeap.prev, hn a ha]
  have hdata : ∀ a ∈ l.own nodes, h'.data a = h.data a := fun a ha => by
    simp only [NodeHeap.data, hn a ha]
  refine ⟨s.nodup, fun a ha => ?_, ?_, ?_, ?_, s.numels, s.mid, s.spares⟩
  · rw [NodeHeap.Live, hn a ha]
    exact s.live a ha
  · exact s.linked.congr (fun a ha => hnext a (List.mem_append_left _ ha))
      (fun a ha => hprev a (List.mem_append_left _ ha))
  · rw [hdata _ (by simp [ListT.own, ListT.cells]), s.head]
  · rw [hdata _ (by simp [ListT.own, ListT.cells]), s.tail]

end Seated

/-! ## Inserting -/

/-- Two neighbours, with what lies before and after them. -/
theorem exists_pair (cells : List ℕ) {k : ℕ} (hk : k + 1 < cells.length) :
    ∃ p a b s, cells = p ++ a :: b :: s ∧ p.length = k := by
  refine ⟨cells.take k, cells[k], cells[k + 1], cells.drop (k + 2), ?_, ?_⟩
  · rw [← List.drop_eq_getElem_cons hk, ← List.drop_eq_getElem_cons (by omega),
      List.take_append_drop]
  · rw [List.length_take]
    omega

theorem ListT.cells_insertIdx (l : ListT α) {pos : ℕ} (hp : pos ≤ nodes.length) (c : ℕ) :
    l.cells (nodes.insertIdx pos c) = (l.cells nodes).insertIdx (pos + 1) c := by
  unfold ListT.cells
  rw [List.insertIdx_succ_cons]
  congr 1
  induction pos generalizing nodes with
  | zero => simp
  | succ pos ih =>
    cases nodes with
    | nil => simp at hp
    | cons n nodes =>
      rw [List.insertIdx_succ_cons, List.cons_append, List.cons_append, List.insertIdx_succ_cons,
        ih (Nat.le_of_succ_le_succ hp)]

theorem insertIdx_pair (p s : List ℕ) (a c : ℕ) :
    (p ++ a :: s).insertIdx (p.length + 1) c = p ++ a :: c :: s := by
  induction p with
  | nil => rfl
  | cons b p ih => rw [List.cons_append, List.length_cons, List.insertIdx_succ_cons, ih]; rfl

/-- A node to insert comes from the spare ones or is new. -/
structure Taken (h h₁ : NodeHeap α) (l l₁ : ListT α) (nodes : List ℕ) (lent : ℕ) : Prop where
  seated : Seated h₁ l₁ nodes
  list : l₁ = { l with spareels := l₁.spareels }
  live : h₁.Live lent
  apart : lent ∉ l₁.own nodes
  own : ∀ a, a ∈ l.own nodes → a = lent ∨ a ∈ l₁.own nodes
  mem : ∀ a, a ∈ l₁.own nodes → a ∈ l.own nodes
  fresh : lent ∈ l.own nodes ∨ h.top ≤ lent
  node : ∀ a, a ≠ lent → h₁.node a = h.node a
  below : lent < h₁.top
  top : h.top ≤ h₁.top

theorem Seated.takeNode (s : Seated h l nodes) (hf : h.Fresh) :
    ∃ h₁ l₁ lent, listTakeNode h l = (h₁, l₁, lent) ∧ Taken h h₁ l l₁ nodes lent := by
  unfold listTakeNode
  cases hsp : l.spareels with
  | nil =>
    have hlive : ∀ a ∈ l.own nodes, a ≠ h.top := fun a ha =>
      Nat.ne_of_lt (hf.lt (s.live a ha))
    have hnode : ∀ a, a ≠ h.top → h.malloc.1.node a = h.node a := fun a ha =>
      Function.update_of_ne ha _ _
    refine ⟨h.malloc.1, l, h.top, rfl, s.congr fun a ha => hnode a (hlive a ha), ?_, ?_, ?_,
      fun a ha => Or.inr ha, fun a ha => ha, Or.inr (Nat.le_refl _), hnode, Nat.lt_succ_self _,
      Nat.le_succ _⟩
    · rfl
    · simp [NodeHeap.Live, NodeHeap.malloc]
    · exact fun hm => hlive _ hm rfl
  | cons lent spareels =>
    have hown : l.own nodes = l.cells nodes ++ lent :: spareels := by rw [ListT.own, hsp]
    have hown₁ : ({ l with spareels } : ListT α).own nodes = l.cells nodes ++ spareels := rfl
    have hnd := hown ▸ s.nodup
    have hnd' := List.nodup_middle.1 hnd
    refine ⟨h, { l with spareels }, lent, rfl, ?_, rfl, ?_, ?_, fun a ha => ?_, fun a ha => ?_, ?_,
      fun a _ => rfl, ?_, Nat.le_refl _⟩
    · refine ⟨(List.nodup_cons.1 hnd').2, fun a ha => s.live a ?_, s.linked, s.head, s.tail,
        s.numels, s.mid, Nat.le_trans ?_ s.spares⟩
      · rw [hown₁] at ha
        rw [hown]
        simp only [List.mem_append, List.mem_cons] at ha ⊢
        tauto
      · rw [hsp]
        exact Nat.le_succ _
    · exact s.live _ (by rw [hown]; simp)
    · exact (List.nodup_cons.1 hnd').1
    · rw [hown] at ha
      rw [hown₁]
      simp only [List.mem_append, List.mem_cons] at ha ⊢
      tauto
    · rw [hown₁] at ha
      rw [hown]
      simp only [List.mem_append, List.mem_cons] at ha ⊢
      tauto
    · exact Or.inl (by rw [hown]; simp)
    · exact hf.lt (s.live _ (by rw [hown]; simp))

/-- Where an old place is after an insertion. -/
theorem getElem?_inserted {cells : List ℕ} (pos i lent : ℕ) :
    cells[i]? = if i < pos then (cells.insertIdx pos lent)[i]?
      else (cells.insertIdx pos lent)[i + 1]? := by
  by_cases hi : i < pos
  · rw [if_pos hi, List.getElem?_insertIdx_of_lt hi]
  · rw [if_neg hi, List.getElem?_insertIdx_of_gt (by omega), Nat.add_sub_cancel]

/-- A step of `mid` along the nodes. -/
theorem mid_next {cells : List ℕ} (hl : Linked h.prev h.next cells) (hnd : cells.Nodup)
    (hlive : ∀ a ∈ cells, h.Live a) {i : ℕ} (hi : i + 1 < cells.length) :
    (do return (← h.deref cells[i]?).next : Except ListFault (Option ℕ)) =
      .ok cells[i + 1]? := by
  have ha : cells[i]? = some cells[i] := List.getElem?_eq_getElem (by omega)
  have hb : cells[i + 1]? = some cells[i + 1] := List.getElem?_eq_getElem hi
  rw [ha, NodeHeap.deref_eq (hlive _ (List.getElem_mem _)), Run.ok_bind, (hl.get hnd ha hb).1, hb]
  rfl

theorem mid_prev {cells : List ℕ} (hl : Linked h.prev h.next cells) (hnd : cells.Nodup)
    (hlive : ∀ a ∈ cells, h.Live a) {i : ℕ} (hi : i + 1 < cells.length) :
    (do return (← h.deref cells[i + 1]?).prev : Except ListFault (Option ℕ)) =
      .ok cells[i]? := by
  have ha : cells[i]? = some cells[i] := List.getElem?_eq_getElem (by omega)
  have hb : cells[i + 1]? = some cells[i + 1] := List.getElem?_eq_getElem hi
  rw [hb, NodeHeap.deref_eq (hlive _ (List.getElem_mem _)), Run.ok_bind, (hl.get hnd ha hb).2, ha]
  rfl

/-- `mid` follows the middle when a node comes in. -/
theorem midInserted {cells : List ℕ} {n pos lent : ℕ} (hlen : cells.length = n + 2)
    (hpos : pos ≤ n) (hl : Linked h.prev h.next (cells.insertIdx (pos + 1) lent))
    (hnd : (cells.insertIdx (pos + 1) lent).Nodup)
    (hlive : ∀ a ∈ cells.insertIdx (pos + 1) lent, h.Live a) (hnum : l.numels = n + 1)
    (hmid : n ≠ 0 → l.mid = cells[(n - 1) / 2 + 1]?) :
    listMidInserted h l (some lent) pos =
      .ok (cells.insertIdx (pos + 1) lent)[n / 2 + 1]? := by
  have hlen' : (cells.insertIdx (pos + 1) lent).length = n + 3 := by
    rw [List.length_insertIdx_of_le_length (by omega), hlen]
  unfold listMidInserted
  rw [hnum, Nat.add_sub_cancel]
  by_cases h0 : n = 0
  · subst h0
    obtain rfl : pos = 0 := by omega
    rw [if_pos rfl, List.getElem?_insertIdx_self, if_pos (by omega)]
  rw [if_neg (by omega), hmid h0, getElem?_inserted (pos + 1) _ lent]
  by_cases hodd : (n + 1) % 2 = 1
  · rw [if_pos hodd]
    by_cases hp : n / 2 ≤ pos
    · rw [if_pos hp, if_pos (by omega), mid_next hl hnd hlive (by omega)]
      congr 2
      omega
    · rw [if_neg hp, if_neg (by omega)]
      congr 2
      omega
  · rw [if_neg hodd]
    by_cases hp : pos ≤ n / 2
    · rw [if_pos hp, if_neg (by omega), mid_prev hl hnd hlive (by omega)]
      congr 2
      omega
    · rw [if_neg hp, if_pos (by omega)]
      congr 2
      omega

/-- **`list_insert_at`.** The datum is in the list at its place. -/
theorem Seated.insertAt (s : Seated h l nodes) (hf : h.Fresh) (hs : nodes.length < 2 ^ 24)
    {pos : ℕ} (hp : pos ≤ nodes.length) (data : Option α) :
    ∃ h' l' lent, listInsertAt h l data pos = .ok (h', l', 1) ∧
      Seated h' l' (nodes.insertIdx pos lent) ∧
      ListT.items h' (nodes.insertIdx pos lent) = (ListT.items h nodes).insertIdx pos data ∧
      l'.comparator = l.comparator ∧
      h.Moved h' (l.own nodes) (l'.own (nodes.insertIdx pos lent)) := by
  obtain ⟨h₀, l₀, lent, htake, t⟩ := s.takeNode hf
  obtain ⟨p, a, b, q, hcells, hplen⟩ := exists_pair (l₀.cells nodes) (k := pos)
    (by rw [l₀.length_cells]; omega)
  have ha : (l₀.cells nodes)[pos]? = some a := by rw [hcells, ← hplen]; simp
  have hb : (l₀.cells nodes)[pos + 1]? = some b := by
    rw [hcells, ← hplen, List.getElem?_append_right (by omega)]
    simp
  have hcells' : (l₀.cells nodes).insertIdx (pos + 1) lent = p ++ a :: lent :: b :: q := by
    rw [hcells, ← hplen, insertIdx_pair]
  have hmem : ∀ x ∈ l₀.cells nodes, x ≠ lent := fun x hx e =>
    t.apart (e ▸ List.mem_append_left _ hx)
  have hal : a ≠ lent := hmem a (List.mem_of_getElem? ha)
  have hbl : b ≠ lent := hmem b (List.mem_of_getElem? hb)
  unfold listInsertAt
  rw [if_neg (by rw [s.numels]; omega), htake]
  dsimp only
  -- the five assignments, one after the other
  obtain ⟨h₁, e₁, sets₁, next₁, prev₁, data₁⟩ := NodeHeap.setData_eq t.live data
  have s₁ : Seated h₁ l₀ nodes :=
    t.seated.congr fun x hx => sets₁.node x fun e => t.apart (e ▸ hx)
  rw [e₁, Run.ok_bind, s₁.findpos hs (by omega), ha, Run.ok_bind,
    NodeHeap.deref_eq (s₁.live_of_cell ha), (s₁.get ha hb).1, Run.ok_bind]
  have live₁ := (sets₁.live lent).2 t.live
  obtain ⟨h₂, e₂, sets₂, next₂, prev₂, data₂⟩ :=
    NodeHeap.setNext_eq (s₁.live_of_cell ha) (some lent)
  have live₂ := (sets₂.live lent).2 live₁
  obtain ⟨h₃, e₃, sets₃, next₃, prev₃, data₃⟩ := NodeHeap.setPrev_eq live₂ (some a)
  have live₃ := (sets₃.live lent).2 live₂
  obtain ⟨h₄, e₄, sets₄, next₄, prev₄, data₄⟩ := NodeHeap.setNext_eq live₃ (some b)
  have liveb := (sets₄.live b).2 ((sets₃.live b).2 ((sets₂.live b).2 (s₁.live_of_cell hb)))
  obtain ⟨h₅, e₅, sets₅, next₅, prev₅, data₅⟩ := NodeHeap.setPrev_eq liveb (some lent)
  dsimp only
  rw [e₂, Run.ok_bind, e₃, Run.ok_bind, e₄, Run.ok_bind, e₅, Run.ok_bind]
  have hnext : h₅.next = fun x => if x = lent then some b else if x = a then some lent
      else h₁.next x := by
    rw [next₅, next₄, next₃, next₂]
    funext x
    simp only [Function.update_apply]
  have hprev : h₅.prev = fun x => if x = b then some lent else if x = lent then some a
      else h₁.prev x := by
    rw [prev₅, prev₄, prev₃, prev₂]
    funext x
    simp only [Function.update_apply]
  have hdata : ∀ x, x ≠ lent → h₅.data x = h₀.data x := fun x hx => by
    rw [data₅, data₄, data₃, data₂, data₁, Function.update_of_ne hx]
  have hdlent : h₅.data lent = data := by
    rw [data₅, data₄, data₃, data₂, data₁, Function.update_self]
  have hlive : ∀ x, h₅.Live x ↔ h₀.Live x := fun x => by
    rw [sets₅.live, sets₄.live, sets₃.live, sets₂.live, sets₁.live]
  have hnode : ∀ x, x ≠ lent → x ≠ a → x ≠ b → h₅.node x = h.node x := fun x hx hxa hxb => by
    rw [sets₅.node x hxb, sets₄.node x hx, sets₃.node x hx, sets₂.node x hxa, sets₁.node x hx,
      t.node x hx]
  have htop : h₅.top = h₀.top := by
    rw [sets₅.top, sets₄.top, sets₃.top, sets₂.top, sets₁.top]
  have hperm : (l₀.cells (nodes.insertIdx pos lent)).Perm (lent :: l₀.cells nodes) := by
    rw [l₀.cells_insertIdx hp]
    exact List.perm_insertIdx _ _ (by rw [l₀.length_cells]; omega)
  have hmem' : ∀ x, x ∈ l₀.own (nodes.insertIdx pos lent) ↔ x = lent ∨ x ∈ l₀.own nodes := by
    intro x
    rw [ListT.own, ListT.own, List.mem_append, List.mem_append, hperm.mem_iff, List.mem_cons,
      or_assoc]
  have hnd' : (l₀.own (nodes.insertIdx pos lent)).Nodup := by
    rw [ListT.own, (hperm.append_right _).nodup_iff]
    exact List.nodup_cons.2 ⟨t.apart, t.seated.nodup⟩
  have hlive' : ∀ x ∈ l₀.own (nodes.insertIdx pos lent), h₅.Live x := by
    intro x hx
    rw [hlive]
    rcases (hmem' x).1 hx with rfl | hx
    · exact t.live
    · exact t.seated.live x hx
  have hlinked : Linked h₅.prev h₅.next (l₀.cells (nodes.insertIdx pos lent)) := by
    have hndc := (List.nodup_append.1 hnd').1
    rw [l₀.cells_insertIdx hp, hcells'] at hndc ⊢
    rw [hprev, hnext]
    exact (hcells ▸ s₁.linked).insert hndc
  have hlen : (nodes.insertIdx pos lent).length = nodes.length + 1 :=
    List.length_insertIdx_of_le_length hp _
  have hmid := midInserted (l := { l₀ with numels := l₀.numels + 1 }) (l₀.length_cells nodes) hp
    (l₀.cells_insertIdx hp lent ▸ hlinked)
    (l₀.cells_insertIdx hp lent ▸ (List.nodup_append.1 hnd').1)
    (fun x hx => hlive' x (List.mem_append_left _ (l₀.cells_insertIdx hp lent ▸ hx)))
    (congrArg (· + 1) t.seated.numels) fun hne => t.seated.mid (by simpa using hne)
  rw [hmid, Run.ok_bind, ← l₀.cells_insertIdx hp]
  refine ⟨h₅, _, lent, rfl, ⟨hnd', hlive', hlinked, ?_, ?_, ?_, fun _ => ?_, t.seated.spares⟩, ?_, ?_,
    ⟨fun x hx hx' => ?_, fun x hx hx' => ?_, fun x hx => ?_, fun x hx => ?_, ?_⟩⟩
  · exact (hdata _ (hmem _ (by simp [ListT.cells]))).trans t.seated.head
  · exact (hdata _ (hmem _ (by simp [ListT.cells]))).trans t.seated.tail
  · rw [hlen]
    exact congrArg (· + 1) t.seated.numels
  · rw [hlen]
    rfl
  · rw [ListT.items, ListT.items, List.map_insertIdx, hdlent]
    congr 1
    refine List.map_congr_left fun x hx => ?_
    have hne : x ≠ lent := hmem x (by simp [ListT.cells, hx])
    rw [hdata x hne]
    simp only [NodeHeap.data, t.node x hne]
  · rw [t.list]
  · replace hx' := fun hm => hx' ((hmem' x).2 hm)
    have hown : x ∉ l₀.own nodes := fun hm => hx (t.mem x hm)
    refine hnode x (fun e => hx' (Or.inl e)) ?_ ?_
    · rintro rfl
      exact hown (List.mem_append_left _ (List.mem_of_getElem? ha))
    · rintro rfl
      exact hown (List.mem_append_left _ (List.mem_of_getElem? hb))
  · exact absurd ((hmem' x).2 (t.own x hx)) hx'
  · rcases (hmem' x).1 hx with rfl | hx
    · exact t.fresh
    · exact Or.inl (t.mem x hx)
  · rw [htop]
    rcases (hmem' x).1 hx with rfl | hx
    · exact t.below
    · exact Nat.lt_of_lt_of_le (hf.lt (s.live x (t.mem x hx))) t.top
  · rw [htop]
    exact t.top

/-! ## Taking out -/

theorem ListT.cells_eraseIdx (l : ListT α) {pos : ℕ} (hp : pos < nodes.length) :
    l.cells (nodes.eraseIdx pos) = (l.cells nodes).eraseIdx (pos + 1) := by
  unfold ListT.cells
  rw [List.eraseIdx_cons_succ, List.eraseIdx_append_of_lt_length hp]

theorem eraseIdx_pair (p s : List ℕ) (a c : ℕ) :
    (p ++ a :: c :: s).eraseIdx (p.length + 1) = p ++ a :: s := by
  rw [List.eraseIdx_append_of_length_le (by omega)]
  simp

/-- Where an old place is after one was taken out. -/
theorem getElem?_erased {cells : List ℕ} (pos : ℕ) {i : ℕ} (hi : i ≠ pos) :
    cells[i]? = if i < pos then (cells.eraseIdx pos)[i]? else (cells.eraseIdx pos)[i - 1]? := by
  by_cases hlt : i < pos
  · rw [if_pos hlt, List.getElem?_eraseIdx_of_lt hlt]
  · rw [if_neg hlt, List.getElem?_eraseIdx_of_ge (by omega), Nat.sub_add_cancel (by omega)]

/-- `mid` follows the middle when a node goes. -/
theorem Seated.midDropped (s : Seated h l nodes) {pos : ℕ} (hp : pos < nodes.length) :
    ∃ mid, listMidDropped h l pos = .ok mid ∧ (nodes.length ≠ 1 →
      mid = ((l.cells nodes).eraseIdx (pos + 1))[(nodes.length - 2) / 2 + 1]?) := by
  have hlive : ∀ a ∈ l.cells nodes, h.Live a := fun a ha => s.live a (List.mem_append_left _ ha)
  have hmid := s.mid fun e => by simp [e] at hp
  have hlen := l.length_cells nodes
  unfold listMidDropped
  rw [s.numels, hmid]
  by_cases hodd : nodes.length % 2 = 1
  · rw [if_pos hodd]
    by_cases hle : nodes.length / 2 ≤ pos
    · rw [if_pos hle, mid_prev s.linked s.cells_nodup hlive (by omega)]
      refine ⟨_, rfl, fun hne => ?_⟩
      rw [getElem?_erased (pos + 1) (by omega), if_pos (by omega)]
      congr 1
      omega
    · rw [if_neg hle]
      refine ⟨_, rfl, fun hne => ?_⟩
      rw [getElem?_erased (pos + 1) (by omega), if_neg (by omega)]
      congr 1
      omega
  · rw [if_neg hodd]
    by_cases hlt : pos < nodes.length / 2
    · rw [if_pos hlt, mid_next s.linked s.cells_nodup hlive (by omega)]
      refine ⟨_, rfl, fun hne => ?_⟩
      rw [getElem?_erased (pos + 1) (by omega), if_neg (by omega)]
      congr 1
      omega
    · rw [if_neg hlt]
      refine ⟨_, rfl, fun hne => ?_⟩
      rw [getElem?_erased (pos + 1) (by omega), if_pos (by omega)]
      congr 1
      omega

/-- The two assignments that take a node out. -/
theorem Seated.unlink (s : Seated h l nodes) {pos tmp : ℕ} (hp : pos < nodes.length)
    (htmp : (l.cells nodes)[pos + 1]? = some tmp) :
    ∃ a b h₁ h₂, h.deref (some tmp) = .ok ⟨h.data tmp, some b, some a⟩ ∧
      h.modify (some a) (fun e => { e with next := some b }) = .ok h₁ ∧
      h₁.deref (some tmp) = .ok ⟨h.data tmp, some b, some a⟩ ∧
      h₁.modify (some b) (fun e => { e with prev := some a }) = .ok h₂ ∧
      Linked h₂.prev h₂.next (l.cells (nodes.eraseIdx pos)) ∧ h₂.data = h.data ∧
      (∀ x, h₂.Live x ↔ h.Live x) ∧ (∀ x, x ∉ l.own nodes → h₂.node x = h.node x) ∧
      h₂.top = h.top := by
  obtain ⟨p, a, c, q, hcells, hplen⟩ := exists_pair (l.cells nodes) (k := pos)
    (by rw [l.length_cells]; omega)
  have ha : (l.cells nodes)[pos]? = some a := by rw [hcells, ← hplen]; simp
  have hc : (l.cells nodes)[pos + 1]? = some c := by
    rw [hcells, ← hplen, List.getElem?_append_right (by omega)]
    simp
  obtain rfl : tmp = c := Option.some.inj (htmp.symm.trans hc)
  obtain ⟨b, hb⟩ := l.cell_of_lt nodes (i := pos + 2) (by omega)
  obtain ⟨q, rfl⟩ : ∃ r, q = b :: r := by
    rw [hcells, ← hplen, List.getElem?_append_right (by omega)] at hb
    cases q with
    | nil => simp at hb
    | cons b' q =>
      obtain rfl : b' = b := by simpa using hb
      exact ⟨q, rfl⟩
  have hac : a ≠ tmp := by
    have hnd := hcells ▸ s.cells_nodup
    rintro rfl
    simp [List.nodup_append] at hnd
  have hnext := (s.get hc hb).1
  have hprev := (s.get ha hc).2
  obtain ⟨h₁, e₁, sets₁, next₁, prev₁, data₁⟩ :=
    NodeHeap.setNext_eq (s.live_of_cell ha) (some b)
  obtain ⟨h₂, e₂, sets₂, next₂, prev₂, data₂⟩ :=
    NodeHeap.setPrev_eq ((sets₁.live b).2 (s.live_of_cell hb)) (some a)
  refine ⟨a, b, h₁, h₂, ?_, e₁, ?_, e₂, ?_, data₂.trans data₁, fun x => ?_, fun x hx => ?_, ?_⟩
  · rw [NodeHeap.deref_eq (s.live_of_cell hc), hnext, hprev]
  · rw [NodeHeap.deref_eq ((sets₁.live tmp).2 (s.live_of_cell hc)), data₁, prev₁, next₁,
      Function.update_of_ne hac.symm, hnext, hprev]
  · have hn : h₂.next = fun x => if x = a then some b else h.next x := by
      rw [next₂, next₁]
      funext x
      rw [Function.update_apply]
    have hpr : h₂.prev = fun x => if x = b then some a else h.prev x := by
      rw [prev₂, prev₁]
      funext x
      rw [Function.update_apply]
    rw [hn, hpr, l.cells_eraseIdx hp, hcells, ← hplen, eraseIdx_pair]
    exact (hcells ▸ s.linked).remove (hcells ▸ s.cells_nodup)
  · rw [sets₂.live, sets₁.live]
  · rw [sets₂.node x, sets₁.node x]
    · rintro rfl
      exact hx (List.mem_append_left _ (List.mem_of_getElem? ha))
    · rintro rfl
      exact hx (List.mem_append_left _ (List.mem_of_getElem? hb))
  · rw [sets₂.top, sets₁.top]

/-- **`list_drop_elem`.** The node is out of the list, and spare or freed. -/
theorem Seated.dropElem (s : Seated h l nodes) (hf : h.Fresh) {pos tmp : ℕ} (hp : pos < nodes.length)
    (htmp : (l.cells nodes)[pos + 1]? = some tmp) :
    ∃ h' l', listDropElem h l tmp pos = .ok (h', l') ∧ l'.numels = l.numels ∧
      Seated h' { l' with numels := l'.numels - 1 } (nodes.eraseIdx pos) ∧
      ListT.items h' (nodes.eraseIdx pos) = (ListT.items h nodes).eraseIdx pos ∧
      l'.comparator = l.comparator ∧
      h.Moved h' (l.own nodes) (l'.own (nodes.eraseIdx pos)) := by
  obtain ⟨mid, hmid, hmideq⟩ := s.midDropped hp
  obtain ⟨a, b, h₁, h₂, hd₁, e₁, hd₂, e₂, hlinked, hdata, hlive, hnode, htop⟩ := s.unlink hp htmp
  have hlen : (nodes.eraseIdx pos).length = nodes.length - 1 := List.length_eraseIdx_of_lt hp
  have hperm : (l.cells nodes).Perm (tmp :: l.cells (nodes.eraseIdx pos)) := by
    rw [l.cells_eraseIdx hp]
    obtain ⟨hlt, rfl⟩ := List.getElem?_eq_some_iff.1 htmp
    exact (List.getElem_cons_eraseIdx_perm hlt).symm
  have hmemE : ∀ x ∈ nodes.eraseIdx pos, x ∈ nodes := fun x hx => List.mem_of_mem_eraseIdx hx
  have hnd : (tmp :: l.own (nodes.eraseIdx pos)).Nodup := by
    have := s.nodup
    rwa [ListT.own, (hperm.append_right _).nodup_iff] at this
  have hmem : ∀ x, x ∈ l.own nodes ↔ x = tmp ∨ x ∈ l.own (nodes.eraseIdx pos) := fun x => by
    rw [ListT.own, ListT.own, (hperm.append_right _).mem_iff, List.cons_append, List.mem_cons]
  have hitems : ∀ h' : NodeHeap α, (∀ x ∈ nodes.eraseIdx pos, h'.data x = h₂.data x) →
      ListT.items h' (nodes.eraseIdx pos) = (ListT.items h nodes).eraseIdx pos := by
    intro h' hd
    rw [ListT.items, ListT.items, List.eraseIdx_map]
    exact List.map_congr_left fun x hx => (hd x hx).trans (congrFun hdata x)
  have hmid' : nodes.eraseIdx pos ≠ [] → mid =
      (l.cells (nodes.eraseIdx pos))[((nodes.eraseIdx pos).length - 1) / 2 + 1]? := fun hne => by
    rw [l.cells_eraseIdx hp, hlen, hmideq]
    · congr 1
    · intro e
      exact hne (List.eq_nil_of_length_eq_zero (by rw [hlen, e]))
  have hsent : ∀ x ∈ l.cells (nodes.eraseIdx pos), x ≠ tmp := fun x hx e =>
    (List.nodup_cons.1 hnd).1 (e ▸ List.mem_append_left _ hx)
  unfold listDropElem
  rw [hmid, Run.ok_bind]
  dsimp only
  rw [hd₁, Run.ok_bind, e₁, Run.ok_bind, hd₂, Run.ok_bind, e₂, Run.ok_bind]
  have hlow : ∀ x ∈ l.own nodes, x < h.top := fun x hx => hf.lt (s.live x hx)
  by_cases hroom : l.spareels.length < simclistMaxSpareElems
  · rw [if_pos hroom]
    have hown : ∀ x, x ∈ l.cells (nodes.eraseIdx pos) ++ tmp :: l.spareels ↔ x ∈ l.own nodes := by
      intro x
      rw [hmem, ListT.own]
      simp only [List.mem_append, List.mem_cons]
      tauto
    refine ⟨h₂, _, rfl, rfl, ⟨List.nodup_middle.2 hnd, fun x hx => ?_, hlinked, ?_, ?_, ?_, hmid',
      hroom⟩, hitems h₂ fun _ _ => rfl, rfl, ⟨fun x hx _ => hnode x hx, fun x hx hx' => ?_,
      fun x hx => ?_, fun x hx => ?_, ?_⟩⟩
    · rw [hlive]
      exact s.live x ((hown x).1 hx)
    · rw [hdata]
      exact s.head
    · rw [hdata]
      exact s.tail
    · rw [hlen]
      exact congrArg (· - 1) s.numels
    · exact absurd ((hown x).2 hx) hx'
    · exact Or.inl ((hown x).1 hx)
    · rw [htop]
      exact hlow x ((hown x).1 hx)
    · exact Nat.le_of_eq htop.symm
  · rw [if_neg hroom]
    obtain ⟨h₃, e₃, hgone, hnode₃, htop₃⟩ :=
      NodeHeap.free_eq ((hlive tmp).2 (s.live_of_cell htmp))
    rw [e₃, Run.ok_bind]
    have hne : ∀ x ∈ l.own (nodes.eraseIdx pos), x ≠ tmp := fun x hx e =>
      (List.nodup_cons.1 hnd).1 (e ▸ hx)
    have hdata₃ : ∀ x, x ≠ tmp → h₃.data x = h.data x := fun x hx => by
      rw [← hdata, NodeHeap.data, NodeHeap.data, hnode₃ x hx]
    refine ⟨h₃, _, rfl, rfl, ⟨(List.nodup_cons.1 hnd).2, fun x hx => ?_, hlinked.congr ?_ ?_, ?_, ?_,
      ?_, hmid', s.spares⟩, hitems h₃ fun x hx => ?_, rfl, ⟨fun x hx hx' => ?_, fun x hx hx' => ?_,
      fun x hx => ?_, fun x hx => ?_, ?_⟩⟩
    · rw [NodeHeap.Live, hnode₃ x (hne x hx)]
      exact (hlive x).2 (s.live x ((hmem x).2 (Or.inr hx)))
    · intro x hx
      simp only [NodeHeap.next, hnode₃ x (hsent x hx)]
    · intro x hx
      simp only [NodeHeap.prev, hnode₃ x (hsent x hx)]
    · rw [hdata₃ _ (hsent _ (by simp [ListT.cells]))]
      exact s.head
    · rw [hdata₃ _ (hsent _ (by simp [ListT.cells]))]
      exact s.tail
    · rw [hlen]
      exact congrArg (· - 1) s.numels
    · rw [hdata₃ x (hsent x (by simp [ListT.cells, hx])), hdata]
    · rw [hnode₃ x fun e => hx ((hmem x).2 (Or.inl e)), hnode x hx]
    · rcases (hmem x).1 hx with rfl | hx
      · exact hgone
      · exact absurd hx hx'
    · exact Or.inl ((hmem x).2 (Or.inr hx))
    · rw [htop₃, htop]
      exact hlow x ((hmem x).2 (Or.inr hx))
    · exact Nat.le_of_eq (htop₃.trans htop).symm

/-- An operation that first sets a field of one of the nodes. -/
theorem NodeHeap.Sets.moved {h₁ : NodeHeap α} {own own' : List ℕ} {a : ℕ} (st : h.Sets h₁ a)
    (ha : a ∈ own) (m : h₁.Moved h' own own') : h.Moved h' own own' where
  rest := fun x hx hx' => by
    rw [m.rest x hx hx', st.node x fun e => hx (e ▸ ha)]
  gone := m.gone
  fresh := fun x hx => by
    rw [← st.top]
    exact m.fresh x hx
  below := m.below
  top := st.top ▸ m.top

/-- The place of an item, counted with the head. -/
theorem ListT.cells_succ (l : ListT α) {pos : ℕ} (hp : pos < nodes.length) :
    (l.cells nodes)[pos + 1]? = some nodes[pos] := by
  rw [ListT.cells, List.getElem?_cons_succ, List.getElem?_append_left hp,
    List.getElem?_eq_getElem hp]

/-- `list_findpos`, at the place of an item. -/
theorem Seated.findpos_item (s : Seated h l nodes) (hs : nodes.length < 2 ^ 24) {pos : ℕ}
    (hp : pos < nodes.length) : listFindpos h l (toInt32 pos) = .ok (some nodes[pos]) := by
  have hint : toInt32 pos = ((pos + 1 : ℕ) : ℤ) - 1 := by
    unfold toInt32
    rw [if_pos (by omega)]
    omega
  rw [hint, s.findpos hs (by omega), l.cells_succ hp]

/-- **`list_delete_at`.** -/
theorem Seated.deleteAt (s : Seated h l nodes) (hf : h.Fresh) (hs : nodes.length < 2 ^ 24) {pos : ℕ}
    (hp : pos < nodes.length) :
    ∃ h' l', listDeleteAt h l pos = .ok (h', l', 0) ∧ Seated h' l' (nodes.eraseIdx pos) ∧
      ListT.items h' (nodes.eraseIdx pos) = (ListT.items h nodes).eraseIdx pos ∧
      l'.comparator = l.comparator ∧
      h.Moved h' (l.own nodes) (l'.own (nodes.eraseIdx pos)) := by
  obtain ⟨h', l', hdrop, -, s', hitems, hcmp, m⟩ := s.dropElem hf hp (l.cells_succ hp)
  unfold listDeleteAt
  rw [if_neg (by rw [s.numels]; omega), s.findpos_item hs hp, Run.ok_bind]
  dsimp only
  rw [hdrop, Run.ok_bind]
  exact ⟨h', _, rfl, s', hitems, hcmp, m⟩

/-- **`list_extract_at`.** -/
theorem Seated.extractAt (s : Seated h l nodes) (hf : h.Fresh) (hs : nodes.length < 2 ^ 24)
    {pos : ℕ} (hp : pos < nodes.length) :
    ∃ h' l', listExtractAt h l pos = .ok (h', l', h.data nodes[pos]) ∧
      Seated h' l' (nodes.eraseIdx pos) ∧
      ListT.items h' (nodes.eraseIdx pos) = (ListT.items h nodes).eraseIdx pos ∧
      l'.comparator = l.comparator ∧
      h.Moved h' (l.own nodes) (l'.own (nodes.eraseIdx pos)) := by
  have hcell := l.cells_succ hp
  have hlive := s.live_of_cell hcell
  obtain ⟨h₁, e₁, sets₁, next₁, prev₁, data₁⟩ := NodeHeap.setData_eq hlive none
  have hown : nodes[pos] ∈ l.own nodes := List.mem_append_left _ (List.mem_of_getElem? hcell)
  have hzero : ∀ x, h.data x = none → h₁.data x = none := fun x hx => by
    rw [data₁, Function.update_apply, hx, ite_self]
  have s₁ : Seated h₁ l nodes :=
    ⟨s.nodup, fun a ha => (sets₁.live a).2 (s.live a ha),
      s.linked.congr (fun _ _ => congrFun next₁ _) (fun _ _ => congrFun prev₁ _),
      hzero _ s.head, hzero _ s.tail, s.numels, s.mid, s.spares⟩
  have hf₁ : h₁.Fresh := fun a ha => by
    have hlt := hf.lt hlive
    rw [sets₁.top] at ha
    rw [sets₁.node a (by omega), hf a ha]
  obtain ⟨h', l', hdrop, -, s', hitems, hcmp, m⟩ := s₁.dropElem hf₁ hp hcell
  unfold listExtractAt
  rw [if_neg (by rw [s.numels]; omega), s.findpos_item hs hp, Run.ok_bind]
  dsimp only
  rw [NodeHeap.deref_eq hlive, Run.ok_bind, e₁, Run.ok_bind, hdrop, Run.ok_bind]
  refine ⟨h', _, rfl, s', ?_, hcmp, sets₁.moved hown m⟩
  -- the node that lost its datum is not among those that stay
  have hnd : nodes.Nodup := (List.nodup_append.1 (List.nodup_cons.1 s.cells_nodup).2).1
  rw [hitems, ListT.items, ListT.items, List.eraseIdx_map, List.eraseIdx_map]
  refine List.map_congr_left fun x hx => ?_
  rw [data₁, Function.update_of_ne]
  rintro rfl
  obtain ⟨i, hi, hne, e⟩ := List.mem_eraseIdx_iff_getElem.1 hx
  exact hne (hnd.getElem_inj_iff.1 e)

/-! ## Looking -/

/-- **`list_get_at`.** Past the end, and for every number that is no place, it is `NULL`. -/
theorem Seated.getAt (s : Seated h l nodes) (hs : nodes.length < 2 ^ 24) {pos : ℕ}
    (hp : pos < 2 ^ 32) : listGetAt h l pos = .ok ((ListT.items h nodes).getD pos none) := by
  unfold listGetAt
  by_cases hlt : pos < nodes.length
  · rw [s.findpos_item hs hlt, Run.ok_bind]
    dsimp only
    rw [NodeHeap.deref_eq (s.live_of_cell (l.cells_succ hlt)), Run.ok_bind]
    simp [ListT.items, hlt]
    rfl
  have hnone : (ListT.items h nodes).getD pos none = none := by
    simp [ListT.items, List.getD, Nat.not_lt.1 hlt]
  rw [hnone]
  by_cases hint : toInt32 pos < -1 ∨ (l.numels : ℤ) < toInt32 pos
  · unfold listFindpos
    rw [if_pos hint]
    rfl
  -- what is left are the places of the two sentinels
  rw [s.numels] at hint
  have hcase : pos = nodes.length ∨ toInt32 pos = -1 := by
    unfold toInt32 at hint ⊢
    split_ifs at hint ⊢ <;> omega
  rcases hcase with rfl | hneg
  · have htail : (l.cells nodes)[nodes.length + 1]? = some l.tailSentinel := by
      simp [ListT.cells]
    have hi : toInt32 nodes.length = ((nodes.length + 1 : ℕ) : ℤ) - 1 := by
      unfold toInt32
      rw [if_pos (by omega)]
      omega
    rw [hi, s.findpos hs (Nat.le_refl _), htail, Run.ok_bind]
    dsimp only
    rw [NodeHeap.deref_eq (s.live_of_cell htail), Run.ok_bind, s.tail]
    rfl
  · rw [hneg, show (-1 : ℤ) = ((0 : ℕ) : ℤ) - 1 by rfl, s.findpos hs (by omega)]
    have hhead : (l.cells nodes)[0]? = some l.headSentinel := rfl
    rw [hhead, Run.ok_bind]
    dsimp only
    rw [NodeHeap.deref_eq (s.live_of_cell hhead), Run.ok_bind, s.head]
    rfl

/-- The first place of an item. -/
def placeOf (found : Option α → Bool) (items : List (Option α)) : ℤ :=
  match items.findIdx? found with
  | some i => i
  | none => -1

theorem locateFrom_eq (found : Option α → Bool) (tail : ℕ) (rest : List ℕ) {fuel : ℕ}
    (hl : Linked h.prev h.next (rest ++ [tail])) (hnd : (rest ++ [tail]).Nodup)
    (hlive : ∀ a ∈ rest, h.Live a) (hfuel : rest.length ≤ fuel) (pos : ℕ) :
    listLocateFrom h tail found fuel (rest ++ [tail]).head? pos =
      .ok (match (rest.map h.data).findIdx? found with
        | some i => ((pos + i : ℕ) : ℤ)
        | none => -1) := by
  induction rest generalizing fuel pos with
  | nil =>
    unfold listLocateFrom
    rw [List.nil_append, List.head?_cons, if_pos rfl]
    rfl
  | cons a rest ih =>
    obtain ⟨fuel, rfl⟩ : ∃ f, fuel = f + 1 := ⟨fuel - 1, by simp at hfuel; omega⟩
    have hne : a ≠ tail := by
      rintro rfl
      simp at hnd
    have hnext : h.next a = (rest ++ [tail]).head? := by
      obtain ⟨b, hb⟩ : ∃ b, (rest ++ [tail]).head? = some b := by
        cases rest <;> exact ⟨_, rfl⟩
      rw [hb]
      exact (hl a b (by rw [List.cons_append, nextIn, if_pos rfl, hb])).1
    unfold listLocateFrom
    rw [List.cons_append, List.head?_cons, if_neg (by simpa using hne)]
    dsimp only
    rw [NodeHeap.deref_eq (hlive a (by simp)), Run.ok_bind, List.map_cons, List.findIdx?_cons]
    dsimp only
    by_cases hfound : found (h.data a) = true
    · rw [if_pos hfound, if_pos hfound]
      rfl
    · rw [if_neg hfound, if_neg hfound, hnext]
      have := ih (hl.drop_first hnd) (List.nodup_cons.1 hnd).2 (fun b hb => hlive b (by simp [hb]))
        (Nat.le_of_succ_le_succ hfuel) (pos + 1)
      rw [Int.natCast_add, Int.natCast_one] at this
      rw [this]
      cases (rest.map h.data).findIdx? found with
      | none => rfl
      | some i =>
        simp only [Option.map_some]
        congr 2
        omega

/-- No list has more nodes than addresses were handed out. -/
theorem Seated.length_le (s : Seated h l nodes) (hf : h.Fresh) : nodes.length ≤ h.top := by
  have hnd : nodes.Nodup := (List.nodup_append.1 (List.nodup_cons.1 s.cells_nodup).2).1
  have hsub : nodes ⊆ List.range h.top := fun a ha =>
    List.mem_range.2 (hf.lt (s.live a (by simp [ListT.own, ListT.cells, ha])))
  have := (List.subperm_of_subset hnd hsub).length_le
  rwa [List.length_range] at this

/-- The first node. -/
theorem Seated.first (s : Seated h l nodes) :
    h.next l.headSentinel = (nodes ++ [l.tailSentinel]).head? := by
  obtain ⟨b, hb⟩ := l.cell_of_lt nodes (i := 1) (by omega)
  have hhead : (l.cells nodes)[0]? = some l.headSentinel := rfl
  rw [(s.get hhead hb).1, ← hb, ListT.cells, List.getElem?_cons_succ, List.head?_eq_getElem?]

/-- **`list_locate`.** -/
theorem Seated.locate [DecidableEq α] (s : Seated h l nodes) (hf : h.Fresh) (data : Option α) :
    listLocate h l data = .ok (placeOf (l.found data) (ListT.items h nodes)) := by
  have hhead : (l.cells nodes)[0]? = some l.headSentinel := rfl
  unfold listLocate
  rw [NodeHeap.deref_eq (s.live_of_cell hhead), Run.ok_bind, s.first]
  have := locateFrom_eq (l.found data) l.tailSentinel nodes
    (s.linked.drop_first s.cells_nodup) (List.nodup_cons.1 s.cells_nodup).2
    (fun a ha => s.live a (by simp [ListT.own, ListT.cells, ha])) (s.length_le hf) 0
  rw [Int.natCast_zero] at this
  dsimp only
  rw [this, placeOf, ListT.items]
  simp only [Nat.zero_add]

/-! ## From the start to the end -/

/-- **`list_init`.** -/
theorem listInit_seated :
    Seated (listInit h).1 (listInit h).2 [] ∧ (listInit h).2.comparator = none ∧
      h.Moved (listInit h).1 [] ((listInit h).2.own []) := by
  have hne : h.top ≠ h.top + 1 := by omega
  have hown : (listInit h).2.own [] = [h.top, h.top + 1] := rfl
  have hnode : ∀ x, (listInit h).1.node x =
      if x = h.top + 1 then some { data := none, next := none, prev := some h.top }
      else if x = h.top then some { data := none, next := some (h.top + 1), prev := none }
      else h.node x := by
    intro x
    simp only [listInit, NodeHeap.malloc, Function.update_apply]
    split_ifs <;> rfl
  have hhead := hnode h.top
  have htail := hnode (h.top + 1)
  rw [if_neg hne, if_pos rfl] at hhead
  rw [if_pos rfl] at htail
  refine ⟨⟨by simp [hown], fun a ha => ?_, ?_, ?_, ?_, rfl, fun e => absurd rfl e, Nat.zero_le _⟩,
    rfl, ⟨fun a _ ha => ?_, fun a ha => ?_, fun a ha => ?_, fun a ha => ?_, ?_⟩⟩
  · rw [hown] at ha
    rcases List.mem_pair.1 ha with rfl | rfl <;> simp [NodeHeap.Live, hhead, htail]
  · intro x y hxy
    obtain ⟨rfl, rfl⟩ : x = h.top ∧ y = h.top + 1 := by
      change nextIn [h.top, h.top + 1] x = some y at hxy
      simp only [nextIn, List.head?_cons, List.head?_nil] at hxy
      split_ifs at hxy with hx
      exact ⟨hx, (Option.some.inj hxy).symm⟩
    simp [NodeHeap.next, NodeHeap.prev, hhead, htail]
  · change (listInit h).1.data h.top = none
    simp [NodeHeap.data, hhead]
  · change (listInit h).1.data (h.top + 1) = none
    simp [NodeHeap.data, htail]
  · rw [hown, List.mem_pair, not_or] at ha
    rw [hnode, if_neg ha.2, if_neg ha.1]
  · cases ha
  · rw [hown] at ha
    rcases List.mem_pair.1 ha with rfl | rfl <;> right <;> omega
  · rw [hown] at ha
    change a < h.top + 1 + 1
    rcases List.mem_pair.1 ha with rfl | rfl <;> omega
  · change h.top ≤ h.top + 1 + 1
    omega

/-- What frees the nodes `gone` and nothing else. -/
structure NodeHeap.Frees (h h' : NodeHeap α) (gone : List ℕ) : Prop where
  freed : ∀ a ∈ gone, h'.node a = none
  rest : ∀ a, a ∉ gone → h'.node a = h.node a
  top : h'.top = h.top

/-- The loop that frees one node after the other. -/
theorem freeAll_eq (gone : List ℕ) (hnd : gone.Nodup) (hlive : ∀ a ∈ gone, h.Live a) :
    ∃ h', gone.foldlM NodeHeap.free h = .ok h' ∧ h.Frees h' gone := by
  induction gone generalizing h with
  | nil => exact ⟨h, rfl, by simp, fun _ _ => rfl, rfl⟩
  | cons a gone ih =>
    obtain ⟨ha, hnd⟩ := List.nodup_cons.1 hnd
    obtain ⟨h₁, e₁, hgone, hnode, htop⟩ := NodeHeap.free_eq (hlive a (by simp))
    have hlive₁ : ∀ b ∈ gone, h₁.Live b := fun b hb => by
      rw [NodeHeap.Live, hnode b fun e => ha (e ▸ hb)]
      exact hlive b (by simp [hb])
    obtain ⟨h', e', f⟩ := ih hnd hlive₁
    rw [List.foldlM_cons, e₁, Run.ok_bind]
    refine ⟨h', e', fun b hb => ?_, fun b hb => ?_, f.top.trans htop⟩
    · rcases List.mem_cons.1 hb with rfl | hb
      · rw [f.rest b ha]
        simpa [NodeHeap.Live] using hgone
      · exact f.freed b hb
    · rw [List.mem_cons, not_or] at hb
      rw [f.rest b hb.2, hnode b hb.1]

/-- The first node of a chain points to the next one. -/
theorem next_first {a : ℕ} (rest : List ℕ) (hl : Linked h.prev h.next (a :: rest))
    (hne : rest ≠ []) : h.next a = rest.head? ∧ ∀ b, rest.head? = some b → h.prev b = some a := by
  obtain ⟨b, hb⟩ : ∃ b, rest.head? = some b := by
    cases rest with
    | nil => exact absurd rfl hne
    | cons b rest => exact ⟨b, rfl⟩
  obtain ⟨hn, hp⟩ := hl a b (by rw [nextIn, if_pos rfl, hb])
  refine ⟨hn.trans hb.symm, fun b' hb' => ?_⟩
  rw [← Option.some.inj (hb.symm.trans hb')]
  exact hp

/-- The second loop of `list_clear`. -/
theorem listFree_eq {tail : ℕ} (rest : List ℕ) (fuel : ℕ)
    (hl : Linked h.prev h.next (rest ++ [tail])) (hnd : (rest ++ [tail]).Nodup)
    (hlive : ∀ a ∈ rest ++ [tail], h.Live a) (hfuel : rest.length ≤ fuel) :
    ∃ h', listFree tail fuel h (rest ++ [tail]).head? = .ok h' ∧ h.Frees h' rest := by
  induction rest generalizing fuel h with
  | nil =>
    refine ⟨h, ?_, by simp, fun _ _ => rfl, rfl⟩
    unfold listFree
    rw [List.nil_append, List.head?_cons, if_pos rfl]
  | cons a rest ih =>
    obtain ⟨fuel, rfl⟩ : ∃ f, fuel = f + 1 := ⟨fuel - 1, by simp at hfuel; omega⟩
    have hnd' := List.nodup_cons.1 hnd
    have hne : a ≠ tail := by
      rintro rfl
      exact hnd'.1 (by simp)
    obtain ⟨hnext, hprev⟩ := next_first (rest ++ [tail]) hl (by simp)
    obtain ⟨b, hb⟩ : ∃ b, (rest ++ [tail]).head? = some b := by
      cases rest <;> exact ⟨_, rfl⟩
    have hblive : h.Live b := hlive b (List.mem_cons_of_mem _ (List.mem_of_mem_head? hb))
    obtain ⟨h₁, e₁, hgone, hnode, htop⟩ := NodeHeap.free_eq (hlive a (by simp))
    have hkeep : ∀ x ∈ rest ++ [tail], h₁.node x = h.node x := fun x hx =>
      hnode x fun e => hnd'.1 (e ▸ hx)
    have hl₁ : Linked h₁.prev h₁.next (rest ++ [tail]) :=
      (hl.drop_first hnd).congr (fun x hx => by simp only [NodeHeap.next, hkeep x hx])
        fun x hx => by simp only [NodeHeap.prev, hkeep x hx]
    obtain ⟨h', e', f⟩ := ih fuel hl₁ hnd'.2
      (fun x hx => by
        rw [NodeHeap.Live, hkeep x hx]
        exact hlive x (List.mem_cons_of_mem _ hx)) (Nat.le_of_succ_le_succ hfuel)
    unfold listFree
    rw [List.cons_append, List.head?_cons, if_neg (by simpa using hne)]
    dsimp only
    rw [NodeHeap.deref_eq (hlive a (by simp)), Run.ok_bind, hnext, hb]
    dsimp only
    rw [NodeHeap.deref_eq hblive, Run.ok_bind, hprev b hb]
    dsimp only
    rw [e₁, Run.ok_bind, ← hb]
    refine ⟨h', e', fun x hx => ?_, fun x hx => ?_, f.top.trans htop⟩
    · rcases List.mem_cons.1 hx with rfl | hx
      · rw [f.rest x fun hm => hnd'.1 (List.mem_append_left _ hm)]
        simpa [NodeHeap.Live] using hgone
      · exact f.freed x hx
    · rw [List.mem_cons, not_or] at hx
      rw [f.rest x hx.2, hnode x hx.1]

/-- The first loop of `list_clear`. -/
theorem listSpare_eq {tail : ℕ} (rest : List ℕ) (hl : Linked h.prev h.next (rest ++ [tail]))
    (hnd : (rest ++ [tail]).Nodup) (hlive : ∀ a ∈ rest, h.Live a) (room : ℕ) (spareels : List ℕ) :
    listSpare h tail room spareels (rest ++ [tail]).head? =
      .ok ((rest.take room).reverse ++ spareels, (rest.drop room ++ [tail]).head?) := by
  induction rest generalizing room spareels with
  | nil =>
    cases room with
    | zero => rfl
    | succ room =>
      unfold listSpare
      rw [List.nil_append, List.head?_cons, if_pos rfl]
      rfl
  | cons a rest ih =>
    cases room with
    | zero => rfl
    | succ room =>
      have hnd' := List.nodup_cons.1 hnd
      have hne : a ≠ tail := by
        rintro rfl
        exact hnd'.1 (by simp)
      unfold listSpare
      rw [List.cons_append, List.head?_cons, if_neg (by simpa using hne)]
      dsimp only
      rw [NodeHeap.deref_eq (hlive a (by simp)), Run.ok_bind, (next_first _ hl (by simp)).1]
      have := ih (hl.drop_first hnd) hnd'.2 (fun x hx => hlive x (by simp [hx])) room
        (a :: spareels)
      simpa using this

/-- **`list_clear`.** -/
theorem Seated.clear (s : Seated h l nodes) (hf : h.Fresh) :
    ∃ h' l', listClear h l = .ok (h', l', 0) ∧ Seated h' l' [] ∧ l'.comparator = l.comparator ∧
      h.Moved h' (l.own nodes) (l'.own []) := by
  set room := simclistMaxSpareElems - l.spareels.length with hroom
  set spareels := (nodes.take room).reverse ++ l.spareels with hspare
  have hnd := s.cells_nodup
  have hnd' := (List.nodup_cons.1 hnd).2
  have hl := s.linked.drop_first hnd
  have hsplit : nodes ++ [l.tailSentinel] =
      nodes.take room ++ (nodes.drop room ++ [l.tailSentinel]) := by
    rw [← List.append_assoc, List.take_append_drop]
  have hlive : ∀ a ∈ nodes ++ [l.tailSentinel], h.Live a := fun a ha =>
    s.live a (List.mem_append_left _ (List.mem_cons_of_mem _ ha))
  have hhead : h.Live l.headSentinel := s.live _ (by simp [ListT.own, ListT.cells])
  obtain ⟨h₁, e₁, f⟩ := listFree_eq (nodes.drop room) h.top
    ((hsplit ▸ hl).suffix (hsplit ▸ hnd')) (List.nodup_append.1 (hsplit ▸ hnd')).2.1
    (fun a ha => hlive a (hsplit ▸ List.mem_append_right _ ha))
    (Nat.le_trans (by rw [List.length_drop]; omega) (s.length_le hf))
  -- the nodes freed are the others of the list
  have hperm : (l.own nodes).Perm
      (nodes.drop room ++ (l.headSentinel :: l.tailSentinel :: spareels)) := by
    refine List.perm_iff_count.2 fun a => ?_
    have hcount := congrArg (List.count a) (List.take_append_drop room nodes)
    simp only [ListT.own, ListT.cells, hspare, List.cons_append, List.count_cons,
      List.count_append, List.count_nil, List.count_reverse] at hcount ⊢
    omega
  have hndp := hperm.nodup_iff.1 s.nodup
  have hkept : ∀ a ∈ l.headSentinel :: l.tailSentinel :: spareels, a ∉ nodes.drop room :=
    fun a ha hm => (List.nodup_append.1 hndp).2.2 a hm a ha rfl
  have hmem : ∀ a, a ∈ l.own nodes ↔
      a ∈ nodes.drop room ∨ a ∈ l.headSentinel :: l.tailSentinel :: spareels := fun a => by
    rw [hperm.mem_iff, List.mem_append]
  have hlive₁ : ∀ a ∈ l.headSentinel :: l.tailSentinel :: spareels, h₁.Live a := fun a ha => by
    rw [NodeHeap.Live, f.rest a (hkept a ha)]
    exact s.live a ((hmem a).2 (Or.inr ha))
  obtain ⟨h₂, e₂, sets₂, next₂, prev₂, data₂⟩ :=
    NodeHeap.setNext_eq (hlive₁ l.headSentinel (by simp)) (some l.tailSentinel)
  obtain ⟨h₃, e₃, sets₃, next₃, prev₃, data₃⟩ :=
    NodeHeap.setPrev_eq ((sets₂.live _).2 (hlive₁ l.tailSentinel (by simp))) (some l.headSentinel)
  unfold listClear
  rw [NodeHeap.deref_eq hhead, Run.ok_bind, s.first]
  dsimp only
  rw [listSpare_eq nodes hl hnd' (fun a ha => hlive a (List.mem_append_left _ ha)), Run.ok_bind]
  dsimp only
  rw [e₁, Run.ok_bind, e₂, Run.ok_bind, e₃, Run.ok_bind]
  have hdata : ∀ a ∈ l.headSentinel :: l.tailSentinel :: spareels, h₃.data a = h.data a :=
    fun a ha => by
      rw [data₃, data₂]
      simp only [NodeHeap.data, f.rest a (hkept a ha)]
  have hnode : ∀ a, a ≠ l.headSentinel → a ≠ l.tailSentinel → h₃.node a = h₁.node a :=
    fun a hh ht => by rw [sets₃.node a ht, sets₂.node a hh]
  have htop : h₃.top = h.top := by rw [sets₃.top, sets₂.top, f.top]
  refine ⟨h₃, _, rfl, ⟨(List.nodup_append.1 hndp).2.1, fun a ha => ?_, ?_, ?_, ?_, rfl,
    fun e => absurd rfl e, ?_⟩, rfl, ⟨fun a ha ha' => ?_, fun a ha ha' => ?_, fun a ha => ?_,
    fun a ha => ?_, Nat.le_of_eq htop.symm⟩⟩
  · rw [sets₃.live, sets₂.live]
    exact hlive₁ a ha
  · intro x y hxy
    obtain ⟨rfl, rfl⟩ : x = l.headSentinel ∧ y = l.tailSentinel := by
      change nextIn [l.headSentinel, l.tailSentinel] x = some y at hxy
      simp only [nextIn, List.head?_cons, List.head?_nil] at hxy
      split_ifs at hxy with hx
      exact ⟨hx, (Option.some.inj hxy).symm⟩
    rw [next₃, next₂, prev₃]
    simp
  · exact (hdata _ (by simp)).trans s.head
  · exact (hdata _ (by simp)).trans s.tail
  · have := s.spares
    simp only [List.length_append, List.length_reverse, List.length_take]
    omega
  · rw [hnode, f.rest a fun hm => ha ((hmem a).2 (Or.inl hm))]
    · exact fun e => ha ((hmem a).2 (Or.inr (by simp [e])))
    · exact fun e => ha ((hmem a).2 (Or.inr (by simp [e])))
  · rcases (hmem a).1 ha with hm | hm
    · rw [NodeHeap.Live, hnode, f.freed a hm]
      · simp
      · exact fun e => ha' (by simp [ListT.own, ListT.cells, e])
      · exact fun e => ha' (by simp [ListT.own, ListT.cells, e])
    · exact absurd hm ha'
  · exact Or.inl ((hmem a).2 (Or.inr ha))
  · rw [htop]
    exact hf.lt (s.live a ((hmem a).2 (Or.inr ha)))

/-- **`list_destroy`.** Every node of the list is freed, and no other. -/
theorem Seated.destroy (s : Seated h l nodes) (hf : h.Fresh) :
    ∃ h', listDestroy h l = .ok h' ∧ h.Moved h' (l.own nodes) [] := by
  obtain ⟨h₁, l₁, e₁, s₁, -, m⟩ := s.clear hf
  have hown : l₁.own [] = l₁.headSentinel :: l₁.tailSentinel :: l₁.spareels := rfl
  have hperm : (l₁.spareels.reverse ++ [l₁.headSentinel, l₁.tailSentinel]).Perm (l₁.own []) := by
    rw [hown]
    exact (List.perm_append_comm.trans ((List.reverse_perm _).append_left _))
  obtain ⟨h', e', f⟩ := freeAll_eq (h := h₁) _ (hperm.nodup_iff.2 s₁.nodup)
    fun a ha => s₁.live a (hperm.mem_iff.1 ha)
  refine ⟨h', ?_, fun a ha _ => ?_, fun a ha _ => ?_, by simp, by simp, ?_⟩
  · unfold listDestroy
    rw [e₁, Run.ok_bind]
    dsimp only
    rw [List.foldlM_append] at e'
    simpa [List.foldlM] using e'
  · by_cases hm : a ∈ l₁.own []
    · rcases m.fresh a hm with h | h
      · exact absurd h ha
      · rw [f.freed a (hperm.mem_iff.2 hm), hf a h]
    · rw [f.rest a fun h => hm (hperm.mem_iff.1 h), m.rest a ha hm]
  · by_cases hm : a ∈ l₁.own []
    · rw [NodeHeap.Live, f.freed a (hperm.mem_iff.2 hm)]
      simp
    · rw [NodeHeap.Live, f.rest a fun h => hm (hperm.mem_iff.1 h)]
      exact m.gone a ha hm
  · rw [f.top]
    exact m.top

end Zimr
