import Mathlib.Data.Nat.Notation
import Mathlib.Logic.Function.Basic

/-!
# The descriptor list (`fd_hash.c`)

A doubly linked list threaded through a table with one element per descriptor.
A pointer into the table is the index of its element, `NULL` is `none`, and the
`-1` that `fd_hash_head` and `fd_hash_next` return at the end is `none` too.
-/

namespace Zimr

/-- `FD_SETSIZE`. -/
def fdSetSize : ℕ := 1024

/-- `fd_hash_el_t`. -/
structure FdHashEl where
  previous : Option ℕ := none
  next : Option ℕ := none
  deriving DecidableEq, Repr

/-- `fd_hash_t`. -/
structure FdHash where
  table : ℕ → FdHashEl
  head : Option ℕ
  tail : Option ℕ

/-- `fd_hash_init`: everything zeroed. -/
def fdHashInit : FdHash := ⟨fun _ => {}, none, none⟩

/-- The test both updates start with: the element is linked in. -/
def FdHash.linked (hash : FdHash) (fd : ℕ) : Bool :=
  (hash.table fd).next.isSome || (hash.table fd).previous.isSome || decide (hash.head = some fd)

/-- `fd_hash_add`. -/
def fdHashAdd (hash : FdHash) (fd : ℕ) : FdHash :=
  if hash.linked fd then hash
  else
    let table := match hash.tail with
      | some t =>
        let table := Function.update hash.table fd { hash.table fd with previous := some t }
        Function.update table t { table t with next := some fd }
      | none => hash.table
    { table := table
      tail := some fd
      head := match hash.head with
        | some h => some h
        | none => some fd }

/-- `fd_hash_remove`. -/
def fdHashRemove (hash : FdHash) (fd : ℕ) : FdHash :=
  if !hash.linked fd then hash
  else
    let table := match (hash.table fd).previous with
      | some p => Function.update hash.table p { hash.table p with next := (hash.table fd).next }
      | none => hash.table
    let table := match (table fd).next with
      | some n => Function.update table n { table n with previous := (table fd).previous }
      | none => table
    { head := if hash.head = some fd then (table fd).next else hash.head
      tail := if hash.tail = some fd then (table fd).previous else hash.tail
      table := Function.update table fd {} }

/-- `fd_hash_head`. -/
def fdHashHead (hash : FdHash) : Option ℕ := hash.head

/-- `fd_hash_next`. -/
def fdHashNext (hash : FdHash) (fd : ℕ) : Option ℕ := (hash.table fd).next

end Zimr
