import Mathlib.Algebra.Group.Int.Defs
import Mathlib.Algebra.Group.Nat.Defs
import Mathlib.Data.Nat.Notation
import Mathlib.Data.Int.Notation
import Mathlib.Logic.Function.Basic

/-!
# The list library (`simclist.c`)

`list_t` as zimr uses it: the data are the caller's pointers (`copy_data` is 0), and no list is
iterated over. All lists share one heap of nodes. A pointer to a node is its address, and `NULL` is
`none`.
-/

namespace Zimr

/-- What a list operation must not do. -/
inductive ListFault
  /-- A `NULL` pointer is followed. -/
  | null
  /-- A node is used or freed that is not allocated. -/
  | freed
  /-- A loop over the nodes does not come to the tail. -/
  | endless
  deriving DecidableEq, Repr

/-- `struct list_entry_s`. -/
structure ListEntry (α : Type) where
  data : Option α := none
  next : Option ℕ := none
  prev : Option ℕ := none
  deriving DecidableEq, Repr

/-- The nodes allocated; no address from `top` on was handed out. -/
structure NodeHeap (α : Type) where
  node : ℕ → Option (ListEntry α)
  top : ℕ

/-- No node is allocated. -/
def NodeHeap.empty {α : Type} : NodeHeap α := ⟨fun _ => none, 0⟩

/-- `element_comparator`: negative, zero, positive where the first is above, equal to, below the
second. -/
abbrev ElementComparator (α : Type) := Option α → Option α → ℤ

/-- `list_t`; `spareels` has the last one first. -/
structure ListT (α : Type) where
  headSentinel : ℕ
  tailSentinel : ℕ
  mid : Option ℕ
  numels : ℕ
  spareels : List ℕ
  comparator : Option (ElementComparator α)

/-- `SIMCLIST_MAX_SPARE_ELEMS`. -/
def simclistMaxSpareElems : ℕ := 5

variable {α : Type}

/-! ## Nodes -/

/-- `malloc( sizeof( struct list_entry_s ) )`. -/
def NodeHeap.malloc (h : NodeHeap α) : NodeHeap α × ℕ :=
  (⟨Function.update h.node h.top (some {}), h.top + 1⟩, h.top)

/-- `free`. -/
def NodeHeap.free (h : NodeHeap α) (a : ℕ) : Except ListFault (NodeHeap α) :=
  match h.node a with
  | none => .error .freed
  | some _ => .ok { h with node := Function.update h.node a none }

/-- `*p`. -/
def NodeHeap.deref (h : NodeHeap α) : Option ℕ → Except ListFault (ListEntry α)
  | none => .error .null
  | some a =>
    match h.node a with
    | none => .error .freed
    | some e => .ok e

/-- An assignment to a field of `*p`. -/
def NodeHeap.modify (h : NodeHeap α) (p : Option ℕ) (f : ListEntry α → ListEntry α) :
    Except ListFault (NodeHeap α) :=
  match p with
  | none => .error .null
  | some a =>
    match h.node a with
    | none => .error .freed
    | some e => .ok { h with node := Function.update h.node a (some (f e)) }

/-- `ptr = ptr->next`, so many times. -/
def NodeHeap.forward (h : NodeHeap α) : ℕ → Option ℕ → Except ListFault (Option ℕ)
  | 0, ptr => .ok ptr
  | n + 1, ptr => do
    let e ← h.deref ptr
    h.forward n e.next

/-- `ptr = ptr->prev`, so many times. -/
def NodeHeap.backward (h : NodeHeap α) : ℕ → Option ℕ → Except ListFault (Option ℕ)
  | 0, ptr => .ok ptr
  | n + 1, ptr => do
    let e ← h.deref ptr
    h.backward n e.prev

/-! ## The operations -/

/-- `list_init`. -/
def listInit (h : NodeHeap α) : NodeHeap α × ListT α :=
  let (h, head) := h.malloc
  let (h, tail) := h.malloc
  let node := Function.update h.node head (some { data := none, next := some tail, prev := none })
  let node := Function.update node tail (some { data := none, next := none, prev := some head })
  ({ h with node }, ⟨head, tail, none, 0, [], none⟩)

/-- `list_attributes_comparator`. -/
def listAttributesComparator (l : ListT α) (comparator : Option (ElementComparator α)) : ListT α :=
  { l with comparator }

/-- The four cases of `list_findpos`. -/
inductive Quarter
  | first | second | third | fourth
  deriving DecidableEq, Repr

/-- Where `x = (float) a / n` lies. A float has 24 significant bits and a quotient is rounded to
the nearest one, so that it is at most `0.25` up to `0.25 + 2^-26`, below `0.5` up to
`0.5 - 2^-26`, and at most `0.75` up to `0.75 + 2^-25`. Numbers from `2^24` on would be rounded
before the division. Division by 0 leaves infinity or no number, which pass none of the tests. -/
def quarter (a n : ℕ) : Quarter :=
  if n = 0 then .fourth
  else if 2 ^ 26 * a ≤ (2 ^ 24 + 1) * n then .first
  else if 2 ^ 26 * a < (2 ^ 25 - 1) * n then .second
  else if 2 ^ 25 * a ≤ (3 * 2 ^ 23 + 1) * n then .third
  else .fourth

/-- `list_findpos`. -/
def listFindpos (h : NodeHeap α) (l : ListT α) (posstart : ℤ) :
    Except ListFault (Option ℕ) :=
  if posstart < -1 ∨ (l.numels : ℤ) < posstart then .ok none
  else
    match quarter (posstart + 1).toNat l.numels with
    | .first => h.forward (posstart + 1).toNat (some l.headSentinel)
    | .second => h.backward (((l.numels - 1) / 2 : ℕ) - posstart).toNat l.mid
    | .third => h.forward (posstart - ((l.numels - 1) / 2 : ℕ)).toNat l.mid
    | .fourth => h.backward (l.numels - posstart).toNat (some l.tailSentinel)

/-- An `unsigned int` as an `int`. -/
def toInt32 (pos : ℕ) : ℤ := if pos < 2 ^ 31 then pos else pos - 2 ^ 32

/-- `list_get_at`. -/
def listGetAt (h : NodeHeap α) (l : ListT α) (pos : ℕ) : Except ListFault (Option α) := do
  let tmp ← listFindpos h l (toInt32 pos)
  match tmp with
  | some _ => return (← h.deref tmp).data
  | none => return none

/-- A node to insert: a spare one, or a new one. -/
def listTakeNode (h : NodeHeap α) (l : ListT α) : NodeHeap α × ListT α × ℕ :=
  match l.spareels with
  | lent :: spareels => (h, { l with spareels }, lent)
  | [] =>
    let (h, lent) := h.malloc
    (h, l, lent)

/-- `mid` after an insertion at `pos`; `numels` counts the new node. -/
def listMidInserted (h : NodeHeap α) (l : ListT α) (lent : Option ℕ) (pos : ℕ) :
    Except ListFault (Option ℕ) :=
  if l.numels = 1 then .ok lent
  else if l.numels % 2 = 1 then
    if (l.numels - 1) / 2 ≤ pos then do return (← h.deref l.mid).next else .ok l.mid
  else
    if pos ≤ (l.numels - 1) / 2 then do return (← h.deref l.mid).prev else .ok l.mid

/-- `list_insert_at`. -/
def listInsertAt (h : NodeHeap α) (l : ListT α) (data : Option α) (pos : ℕ) :
    Except ListFault (NodeHeap α × ListT α × ℤ) :=
  if l.numels < pos then .ok (h, l, -1)
  else do
    let (h, l, lent) := listTakeNode h l
    let h ← h.modify (some lent) fun e => { e with data }
    let prec ← listFindpos h l ((pos : ℤ) - 1)
    let succ := (← h.deref prec).next
    let h ← h.modify prec fun e => { e with next := some lent }
    let h ← h.modify (some lent) fun e => { e with prev := prec }
    let h ← h.modify (some lent) fun e => { e with next := succ }
    let h ← h.modify succ fun e => { e with prev := some lent }
    let l := { l with numels := l.numels + 1 }
    let mid ← listMidInserted h l (some lent) pos
    return (h, { l with mid }, 1)

/-- `list_append`. -/
def listAppend (h : NodeHeap α) (l : ListT α) (data : Option α) :
    Except ListFault (NodeHeap α × ListT α × ℤ) :=
  listInsertAt h l data l.numels

/-- `list_prepend`. -/
def listPrepend (h : NodeHeap α) (l : ListT α) (data : Option α) :
    Except ListFault (NodeHeap α × ListT α × ℤ) :=
  listInsertAt h l data 0

/-- `mid` before the node at `pos` is taken out. -/
def listMidDropped (h : NodeHeap α) (l : ListT α) (pos : ℕ) : Except ListFault (Option ℕ) :=
  if l.numels % 2 = 1 then
    if l.numels / 2 ≤ pos then do return (← h.deref l.mid).prev else .ok l.mid
  else
    if pos < l.numels / 2 then do return (← h.deref l.mid).next else .ok l.mid

/-- `list_drop_elem`, of a node that is not `NULL`. -/
def listDropElem (h : NodeHeap α) (l : ListT α) (tmp pos : ℕ) :
    Except ListFault (NodeHeap α × ListT α) := do
  let mid ← listMidDropped h l pos
  let l := { l with mid }
  let e ← h.deref (some tmp)
  let h ← h.modify e.prev fun p => { p with next := e.next }
  let e ← h.deref (some tmp)
  let h ← h.modify e.next fun n => { n with prev := e.prev }
  if l.spareels.length < simclistMaxSpareElems then
    return (h, { l with spareels := tmp :: l.spareels })
  else
    let h ← h.free tmp
    return (h, l)

/-- `list_extract_at`. -/
def listExtractAt (h : NodeHeap α) (l : ListT α) (pos : ℕ) :
    Except ListFault (NodeHeap α × ListT α × Option α) :=
  if l.numels ≤ pos then .ok (h, l, none)
  else do
    let tmp ← listFindpos h l (toInt32 pos)
    match tmp with
    | none => .error .null
    | some tmp =>
      let data := (← h.deref (some tmp)).data
      let h ← h.modify (some tmp) fun e => { e with data := none }
      let (h, l) ← listDropElem h l tmp pos
      return (h, { l with numels := l.numels - 1 }, data)

/-- `list_fetch`. -/
def listFetch (h : NodeHeap α) (l : ListT α) :
    Except ListFault (NodeHeap α × ListT α × Option α) :=
  listExtractAt h l 0

/-- `list_delete_at`; `list_drop_elem` does nothing to `NULL`. -/
def listDeleteAt (h : NodeHeap α) (l : ListT α) (pos : ℕ) :
    Except ListFault (NodeHeap α × ListT α × ℤ) :=
  if l.numels ≤ pos then .ok (h, l, -1)
  else do
    let delendo ← listFindpos h l (toInt32 pos)
    let (h, l) ← match delendo with
      | none => .ok (h, l)
      | some delendo => listDropElem h l delendo pos
    return (h, { l with numels := l.numels - 1 }, 0)

/-- The first loop of `list_clear`: nodes become spare ones while there is room. -/
def listSpare (h : NodeHeap α) (tail : ℕ) :
    ℕ → List ℕ → Option ℕ → Except ListFault (List ℕ × Option ℕ)
  | 0, spareels, s => .ok (spareels, s)
  | room + 1, spareels, s =>
    if s = some tail then .ok (spareels, s)
    else
      match s with
      | none => .error .null
      | some a => do listSpare h tail room (a :: spareels) (← h.deref s).next

/-- The second loop of `list_clear`: the other nodes are freed. The loop goes on to the tail, and no
more nodes than `fuel` can lie before it. -/
def listFree (tail : ℕ) : ℕ → NodeHeap α → Option ℕ → Except ListFault (NodeHeap α)
  | fuel, h, s =>
    if s = some tail then .ok h
    else
      match fuel with
      | 0 => .error .endless
      | fuel + 1 => do
        let s := (← h.deref s).next
        match (← h.deref s).prev with
        | none => listFree tail fuel h s
        | some a => listFree tail fuel (← h.free a) s

/-- `list_clear`. -/
def listClear (h : NodeHeap α) (l : ListT α) :
    Except ListFault (NodeHeap α × ListT α × ℤ) := do
  let s := (← h.deref (some l.headSentinel)).next
  let (spareels, s) ←
    listSpare h l.tailSentinel (simclistMaxSpareElems - l.spareels.length) l.spareels s
  let h ← listFree l.tailSentinel h.top h s
  let h ← h.modify (some l.headSentinel) fun e => { e with next := some l.tailSentinel }
  let h ← h.modify (some l.tailSentinel) fun e => { e with prev := some l.headSentinel }
  return (h, { l with spareels, numels := 0, mid := none }, 0)

/-- `list_destroy`. -/
def listDestroy (h : NodeHeap α) (l : ListT α) : Except ListFault (NodeHeap α) := do
  let (h, l, _) ← listClear h l
  let h ← l.spareels.reverse.foldlM NodeHeap.free h
  let h ← h.free l.headSentinel
  h.free l.tailSentinel

/-- `list_size`. -/
def listSize (l : ListT α) : ℕ := l.numels

/-- The loops of `list_locate`, from `el` at `pos` on. -/
def listLocateFrom (h : NodeHeap α) (tail : ℕ) (found : Option α → Bool) :
    ℕ → Option ℕ → ℤ → Except ListFault ℤ
  | fuel, el, pos =>
    if el = some tail then .ok (-1)
    else
      match fuel with
      | 0 => .error .endless
      | fuel + 1 => do
        let e ← h.deref el
        if found e.data then return pos else listLocateFrom h tail found fuel e.next (pos + 1)

/-- What `list_locate` looks for. -/
def ListT.found [DecidableEq α] (l : ListT α) (data : Option α) : Option α → Bool :=
  match l.comparator with
  | some comparator => fun el => comparator data el == 0
  | none => fun el => el == data

/-- `list_locate`. -/
def listLocate [DecidableEq α] (h : NodeHeap α) (l : ListT α) (data : Option α) :
    Except ListFault ℤ := do
  let el := (← h.deref (some l.headSentinel)).next
  listLocateFrom h l.tailSentinel (l.found data) h.top el 0

/-- `list_contains`. -/
def listContains [DecidableEq α] (h : NodeHeap α) (l : ListT α) (data : Option α) :
    Except ListFault Bool := do
  return 0 ≤ (← listLocate h l data)

/-! ## Sorting -/

/-- `SIMCLIST_MINQUICKSORTELS`. -/
def simclistMinQuicksortEls : ℕ := 24

/-- `comparator( a->data, b->data ) * -versus`, a product that is taken to fit an `int`. -/
def NodeHeap.compare (h : NodeHeap α) (comparator : ElementComparator α) (versus : ℤ)
    (a b : Option ℕ) : Except ListFault ℤ := do
  return comparator (← h.deref a).data (← h.deref b).data * -versus

/-- The data of two nodes change places, through `tmpdata`. -/
def NodeHeap.swap (h : NodeHeap α) (a b : Option ℕ) : Except ListFault (NodeHeap α) := do
  let tmpdata := (← h.deref a).data
  let bdata := (← h.deref b).data
  let h ← h.modify a fun e => { e with data := bdata }
  h.modify b fun e => { e with data := tmpdata }

section Sorting

variable (comparator : ElementComparator α) (versus : ℤ)

/-- The inner loop of `list_sort_selectionsort`. -/
def listToswap (h : NodeHeap α) (lel : Option ℕ) :
    ℕ → Option ℕ → Option ℕ → Except ListFault (Option ℕ)
  | fuel, toswap, cursor => do
    if cursor = (← h.deref lel).next then return toswap
    else
      match fuel with
      | 0 => .error .endless
      | fuel + 1 => do
        let toswap := if 0 < (← h.compare comparator versus toswap cursor) then cursor else toswap
        listToswap h lel fuel toswap (← h.deref cursor).next

/-- The outer loop of `list_sort_selectionsort`. -/
def listSelect (lel : Option ℕ) : ℕ → NodeHeap α → Option ℕ → Except ListFault (NodeHeap α)
  | fuel, h, firstunsorted =>
    if firstunsorted = lel then .ok h
    else
      match fuel with
      | 0 => .error .endless
      | fuel + 1 => do
        let toswap ← listToswap comparator versus h lel h.top firstunsorted
          (← h.deref firstunsorted).next
        let h ← if toswap ≠ firstunsorted then h.swap firstunsorted toswap else .ok h
        listSelect lel fuel h (← h.deref firstunsorted).next

/-- `list_sort_selectionsort`. -/
def listSortSelectionsort (h : NodeHeap α) (first : ℕ) (fel : Option ℕ) (last : ℕ)
    (lel : Option ℕ) : Except ListFault (NodeHeap α) :=
  if last ≤ first then .ok h else listSelect comparator versus lel h.top h fel

/-- `left` goes on to a node above the pivot, or to the pivot. -/
def listSkipLeft (h : NodeHeap α) (pivot : Option ℕ) :
    ℕ → Option ℕ → Except ListFault (Option ℕ)
  | fuel, left => do
    if left = pivot then return left
    else if (← h.compare comparator versus left pivot) ≤ 0 then
      match fuel with
      | 0 => .error .endless
      | fuel + 1 => listSkipLeft h pivot fuel (← h.deref left).next
    else return left

/-- `right` goes back to a node below the pivot, or to the pivot. -/
def listSkipRight (h : NodeHeap α) (pivot : Option ℕ) :
    ℕ → Option ℕ → Except ListFault (Option ℕ)
  | fuel, right => do
    if right = pivot then return right
    else if 0 ≤ (← h.compare comparator versus right pivot) then
      match fuel with
      | 0 => .error .endless
      | fuel + 1 => listSkipRight h pivot fuel (← h.deref right).prev
    else return right

/-- The loop that moves both iterators towards the pivot. -/
def listPartition (pivot : Option ℕ) :
    ℕ → NodeHeap α → Option ℕ → Option ℕ → Except ListFault (NodeHeap α × Option ℕ × Option ℕ)
  | fuel, h, left, right =>
    if left ≠ pivot ∧ right ≠ pivot then
      match fuel with
      | 0 => .error .endless
      | fuel + 1 => do
        let left ← listSkipLeft comparator versus h pivot h.top left
        let right ← listSkipRight comparator versus h pivot h.top right
        if left ≠ pivot ∧ right ≠ pivot then
          let h ← h.swap left right
          listPartition pivot fuel h (← h.deref left).next (← h.deref right).prev
        else listPartition pivot fuel h left right
    else .ok (h, left, right)

/-- The loop over a left part that is longer: a node above the pivot comes after it, and the pivot
moves one to the left. -/
def listLonger (fuel : ℕ) (h : NodeHeap α) (left pivot : Option ℕ) (pivotid : ℕ) :
    Except ListFault (NodeHeap α × Option ℕ × ℕ) :=
  if left = pivot then .ok (h, pivot, pivotid)
  else
    match fuel with
    | 0 => .error .endless
    | fuel + 1 => do
      if 0 < (← h.compare comparator versus left pivot) then
        let tmpdata := (← h.deref left).data
        let prev := (← h.deref pivot).prev
        let data := (← h.deref prev).data
        let h ← h.modify left fun e => { e with data }
        let data := (← h.deref pivot).data
        let h ← h.modify prev fun e => { e with data }
        let h ← h.modify pivot fun e => { e with data := tmpdata }
        let pivot := prev
        if pivot = left then return (h, pivot, pivotid - 1)
        else listLonger fuel h left pivot (pivotid - 1)
      else listLonger fuel h (← h.deref left).next pivot pivotid

/-- The loop over a right part that is longer. -/
def listLongerRight (fuel : ℕ) (h : NodeHeap α) (right pivot : Option ℕ) (pivotid : ℕ) :
    Except ListFault (NodeHeap α × Option ℕ × ℕ) :=
  if right = pivot then .ok (h, pivot, pivotid)
  else
    match fuel with
    | 0 => .error .endless
    | fuel + 1 => do
      if (← h.compare comparator versus right pivot) < 0 then
        let tmpdata := (← h.deref right).data
        let next := (← h.deref pivot).next
        let data := (← h.deref next).data
        let h ← h.modify right fun e => { e with data }
        let data := (← h.deref pivot).data
        let h ← h.modify next fun e => { e with data }
        let h ← h.modify pivot fun e => { e with data := tmpdata }
        let pivot := next
        if pivot = right then return (h, pivot, pivotid + 1)
        else listLongerRight fuel h right pivot (pivotid + 1)
      else listLongerRight fuel h (← h.deref right).prev pivot pivotid

/-- `list_sort_quicksort`. `rand` are the numbers that `random` returns, from number `k` on; the
next one to use is returned. -/
def listSortQuicksort (rand : ℕ → ℕ) :
    ℕ → ℕ → NodeHeap α → ℕ → Option ℕ → ℕ → Option ℕ → Except ListFault (NodeHeap α × ℕ)
  | fuel, k, h, first, fel, last, lel =>
    if last ≤ first then .ok (h, k)
    else if last - first + 1 ≤ simclistMinQuicksortEls then do
      return (← listSortSelectionsort comparator versus h first fel last lel, k)
    else
      match fuel with
      | 0 => .error .endless
      | fuel + 1 => do
        let pivotid := rand k % (last - first + 1)
        let pivot ←
          (if pivotid < (last - first + 1) / 2 then h.forward pivotid fel
          else h.backward (last - first - pivotid) lel)
        let (h, left, right) ← listPartition comparator versus pivot h.top h fel lel
        let (h, pivot, pivotid) ←
          (if right = pivot then listLonger comparator versus h.top h left pivot pivotid
          else listLongerRight comparator versus h.top h right pivot pivotid)
        let (h, k) ←
          (if 0 < pivotid then do
            listSortQuicksort rand fuel (k + 1) h first fel (first + pivotid - 1)
              (← h.deref pivot).prev
          else .ok (h, k + 1))
        if first + pivotid < last then do
          listSortQuicksort rand fuel k h (first + pivotid + 1) (← h.deref pivot).next last lel
        else .ok (h, k)

end Sorting

/-- `list_sort`. -/
def listSort (h : NodeHeap α) (l : ListT α) (versus : ℤ) (rand : ℕ → ℕ) :
    Except ListFault (NodeHeap α × ℤ) :=
  match l.comparator with
  | none => .ok (h, -1)
  | some comparator =>
    if l.numels ≤ 1 then .ok (h, 0)
    else do
      let fel := (← h.deref (some l.headSentinel)).next
      let lel := (← h.deref (some l.tailSentinel)).prev
      let (h, _) ← listSortQuicksort comparator versus rand h.top 0 h 0 fel (l.numels - 1) lel
      return (h, 0)

/-! ## Programs with lists -/

/-- An operation on a list; `pos` is an `unsigned int`. -/
inductive ListOp (α : Type)
  | comparator (comparator : Option (ElementComparator α))
  | append (data : Option α)
  | prepend (data : Option α)
  | insertAt (data : Option α) (pos : UInt32)
  | fetch
  | extractAt (pos : UInt32)
  | deleteAt (pos : UInt32)
  | getAt (pos : UInt32)
  | size
  | locate (data : Option α)
  | contains (data : Option α)
  | clear

/-- What an operation returns. -/
inductive ListRes (α : Type)
  | int (n : ℤ)
  | data (data : Option α)
  deriving DecidableEq, Repr

/-- One operation on one list. -/
def listOp [DecidableEq α] (h : NodeHeap α) (l : ListT α) :
    ListOp α → Except ListFault (NodeHeap α × ListT α × ListRes α)
  | .comparator c => .ok (h, listAttributesComparator l c, .int 0)
  | .append data => do
    let (h, l, n) ← listAppend h l data
    return (h, l, .int n)
  | .prepend data => do
    let (h, l, n) ← listPrepend h l data
    return (h, l, .int n)
  | .insertAt data pos => do
    let (h, l, n) ← listInsertAt h l data pos.toNat
    return (h, l, .int n)
  | .fetch => do
    let (h, l, data) ← listFetch h l
    return (h, l, .data data)
  | .extractAt pos => do
    let (h, l, data) ← listExtractAt h l pos.toNat
    return (h, l, .data data)
  | .deleteAt pos => do
    let (h, l, n) ← listDeleteAt h l pos.toNat
    return (h, l, .int n)
  | .getAt pos => do return (h, l, .data (← listGetAt h l pos.toNat))
  | .size => .ok (h, l, .int (listSize l))
  | .locate data => do return (h, l, .int (← listLocate h l data))
  | .contains data => do return (h, l, .int (if ← listContains h l data then 1 else 0))
  | .clear => do
    let (h, l, n) ← listClear h l
    return (h, l, .int n)

/-- A call that a program with several lists makes. -/
inductive ListCall (α : Type)
  | init (i : ℕ)
  | op (i : ℕ) (o : ListOp α)
  | destroy (i : ℕ)

/-- The heap and the lists of a program, by name; a list that is not initialised is `none`. -/
structure Lists (α : Type) where
  heap : NodeHeap α
  list : ℕ → Option (ListT α)

/-- A program before its first list. -/
def Lists.empty : Lists α := ⟨NodeHeap.empty, fun _ => none⟩

/-- One call. -/
def Lists.call [DecidableEq α] (ls : Lists α) : ListCall α → Except ListFault (Lists α × ListRes α)
  | .init i =>
    let (h, l) := listInit ls.heap
    .ok (⟨h, Function.update ls.list i (some l)⟩, .int 0)
  | .op i o =>
    match ls.list i with
    | none => .error .freed
    | some l => do
      let (h, l, r) ← listOp ls.heap l o
      return (⟨h, Function.update ls.list i (some l)⟩, r)
  | .destroy i =>
    match ls.list i with
    | none => .error .freed
    | some l => do
      let h ← listDestroy ls.heap l
      return (⟨h, Function.update ls.list i none⟩, .int 0)

/-- `list_sort` of one list. -/
def Lists.sort (ls : Lists α) (i : ℕ) (versus : ℤ) (rand : ℕ → ℕ) :
    Except ListFault (Lists α × ℤ) :=
  match ls.list i with
  | none => .error .freed
  | some l => do
    let (h, n) ← listSort ls.heap l versus rand
    return ({ ls with heap := h }, n)

/-- The calls of a program, and what they return. -/
def Lists.run [DecidableEq α] :
    Lists α → List (ListCall α) → Except ListFault (Lists α × List (ListRes α))
  | ls, [] => .ok (ls, [])
  | ls, c :: cs => do
    let (ls, r) ← ls.call c
    let (ls, rs) ← ls.run cs
    return (ls, r :: rs)

end Zimr
