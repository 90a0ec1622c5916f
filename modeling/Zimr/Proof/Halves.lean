import Zimr.Lib.Links
import Zimr.Proof.Events

/-!
# The two endpoints as links

`Net.half σ str s x` is the half of a link that the object `x` of side `s` is: its
`Msg.view` while it lives, the frames it has committed to the wire, and its history.
With `str`, an object made by the peer's first packet is strict.
-/

namespace Zimr

open Link (Item Step Steps Half Stage)

variable {sw sw' : MsgSwitch} {σ σ' : Net} {s : Side} {j x : ℕ} {m m' : Msg} {str : Bool}

@[simp] theorem Side.other_other (s : Side) : s.other.other = s := by cases s <;> rfl

theorem Side.other_ne (s : Side) : s.other ≠ s := by cases s <;> simp [Side.other]

theorem Side.eq_or (s t : Side) : t = s ∨ t = s.other := by cases s <;> cases t <;> simp [Side.other]

/-- A frame on the link. -/
def Frame.item : Frame → Item UInt8
  | .resp r => r.item
  | .pack p => .data p.data

/-- What the object `x` has sent and the other side has not read. -/
def outOf (wire : List Frame) (x : ℕ) : List (Item UInt8) :=
  (wire.filter (·.owner = x)).map Frame.item

theorem outOf_append (w w' : List Frame) (x : ℕ) : outOf (w ++ w') x = outOf w x ++ outOf w' x := by
  simp [outOf]

theorem outOf_cons (f : Frame) (w : List Frame) (x : ℕ) :
    outOf (f :: w) x = (if f.owner = x then [f.item] else []) ++ outOf w x := by
  by_cases h : f.owner = x <;> simp [outOf, h]

theorem outOf_eq_nil {w : List Frame} (h : ∀ f ∈ w, f.owner ≠ x) : outOf w x = [] := by
  simp only [outOf, List.map_eq_nil_iff, List.filter_eq_nil_iff]
  intro f hf
  simpa using h f hf

theorem outOf_self {w : List Frame} (h : ∀ f ∈ w, f.owner = x) : outOf w x = w.map Frame.item := by
  rw [outOf, List.filter_eq_self.2]
  intro f hf
  simpa using h f hf

theorem mem_outOf {w : List Frame} {i : Item UInt8} :
    i ∈ outOf w x ↔ ∃ f ∈ w, f.owner = x ∧ f.item = i := by
  simp [outOf, and_assoc]

open Classical in
/-- The stage of the object `x`. -/
noncomputable def MsgSwitch.stage (sw : MsgSwitch) (x : ℕ) : Stage UInt8 :=
  if h : ∃ m, (∃ j, sw.msgs j = some m) ∧ m.addr = x then .live h.choose.view else .gone

theorem MsgSwitch.stage_live (hs : Slots sw.msgs sw.nextAddr) (hj : sw.msgs j = some m) :
    sw.stage m.addr = .live m.view := by
  have h : ∃ n, (∃ i, sw.msgs i = some n) ∧ n.addr = m.addr := ⟨m, ⟨j, hj⟩, rfl⟩
  rw [MsgSwitch.stage, dif_pos h]
  obtain ⟨⟨i, hi⟩, ha⟩ := h.choose_spec
  have hij := hs.inj _ _ _ _ hi hj ha
  subst hij
  rw [hj] at hi
  rw [← Option.some.inj hi]

theorem MsgSwitch.stage_gone (h : ∀ j m, sw.msgs j = some m → m.addr ≠ x) : sw.stage x = .gone := by
  rw [MsgSwitch.stage, dif_neg]
  rintro ⟨m, ⟨j, hj⟩, ha⟩
  exact h j m hj ha

/-- The object lives, or it is gone. -/
theorem MsgSwitch.stage_cases (hs : Slots sw.msgs sw.nextAddr) (x : ℕ) :
    (∃ j m, sw.msgs j = some m ∧ m.addr = x ∧ sw.stage x = .live m.view) ∨
      ((∀ j m, sw.msgs j = some m → m.addr ≠ x) ∧ sw.stage x = .gone) := by
  by_cases h : ∃ j m, sw.msgs j = some m ∧ m.addr = x
  · obtain ⟨j, m, hj, rfl⟩ := h
    exact Or.inl ⟨j, m, hj, rfl, MsgSwitch.stage_live hs hj⟩
  · have h : ∀ j m, sw.msgs j = some m → m.addr ≠ x := fun j m hj ha => h ⟨j, m, hj, ha⟩
    exact Or.inr ⟨h, MsgSwitch.stage_gone h⟩

theorem MsgSwitch.stage_congr (h : sw'.msgs = sw.msgs) (x : ℕ) : sw'.stage x = sw.stage x := by
  unfold MsgSwitch.stage
  rw [h]

/-- Writing one slot leaves the other objects alone. -/
theorem MsgSwitch.stage_update {o : Option Msg} (hj : sw.msgs j = some m)
    (hs : Slots sw.msgs sw.nextAddr) (ho : ∀ n, o = some n → n.addr = m.addr)
    (h : sw'.msgs = Function.update sw.msgs j o) (hs' : Slots sw'.msgs sw'.nextAddr)
    (hx : x ≠ m.addr) : sw'.stage x = sw.stage x := by
  rcases MsgSwitch.stage_cases hs x with ⟨i, n, hi, rfl, hst⟩ | ⟨hno, hst⟩
  · have hij : i ≠ j := by rintro rfl; rw [hj] at hi; cases hi; exact hx rfl
    have hi' : sw'.msgs i = some n := by rw [h, Function.update_of_ne hij]; exact hi
    rw [hst, MsgSwitch.stage_live hs' hi']
  · rw [hst]
    refine MsgSwitch.stage_gone fun i n hi => ?_
    rw [h] at hi
    rcases update_some hi with ⟨-, hn⟩ | ⟨-, hi⟩
    · rw [ho n hn]; exact hx.symm
    · exact hno i n hi

namespace Net

/-- The half of the link that the object `x` of side `s` is. -/
noncomputable def half (σ : Net) (str : Bool) (s : Side) (x : ℕ) : Half UInt8 :=
  (σ.log s x).half ((σ.ep s).stage x) (outOf (σ.wire s) x) (str && decide (0 < (σ.log s x).wid))

/-- The object at the other end. -/
def peer (σ : Net) (s : Side) (x : ℕ) : Option ℕ := (σ.log s x).peer

/-- How many objects side `s` has made. -/
def made (σ : Net) (s : Side) : ℕ := (σ.ep s).nextAddr

/-- Every link is sound. -/
def Linked (σ : Net) (str dns : Bool) : Prop :=
  Link.AllSound (str = false) (dns = false) Side.other (.unborn str) (σ.half str) σ.peer σ.made

end Net

end Zimr
