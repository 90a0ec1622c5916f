import Mathlib.Data.List.Flatten
import Mathlib.Data.Nat.Notation

/-!
# A two-party link with acknowledgements and a disconnect handshake

Two ends exchange items over a FIFO in each direction. Data is acknowledged; an
end that is done sends a disconnect after its last data, and the other end answers
with its own. An end can be created by the first data it receives (`unborn` until
then) and is `gone` once it is released.

`Step x y x' y'` is what the end `x` can do, with `y` the other half of the link.
`Inv` is kept by every step of either end (`Inv.step`, `Inv.symm`):

* after a disconnect an end sends no data, and whoever has seen the other's
  disconnect has nothing but acknowledgements left to receive (`Shake`);
* an end that waits has a packet, an unsent or a sent acknowledgement on the way
  (`Waits`), and exactly one when no stray acknowledgement reaches it (`Exact`);
* nothing is lost, duplicated or reordered, and an end that has seen the other's
  disconnect and is not closed has everything (`Flow`);
* no end is released before one of the two was closed (`Gone`);
* an empty packet, when only a closed end sends one, is the last of all (`Dense`).

All of it is about one link; nothing is said about how items are routed to it.
-/

namespace Link

variable {β : Type*}

/-- What travels on the link. -/
inductive Item (β : Type*)
  | data (bs : List β)
  | ok
  | discon

/-- The bytes of an item. -/
def Item.bytes : Item β → List β
  | .data bs => bs
  | .ok => []
  | .discon => []

def Item.isData : Item β → Bool
  | .data _ => true
  | _ => false

def Item.isOk : Item β → Bool
  | .ok => true
  | _ => false

/-- An end that exists. `unsent` holds packets, `unread` bytes. -/
structure End (β : Type*) where
  used : Bool
  sent : Bool
  disc : Bool
  closed : Bool
  need : Bool
  waiting : Bool
  unread : List β
  /-- An empty packet is among the unread ones. -/
  hollow : Bool
  unsent : List (List β)

/-- The end the first data creates. -/
def End.fresh (bs : List β) : End β where
  used := true
  sent := false
  disc := false
  closed := false
  need := true
  waiting := false
  unread := bs
  hollow := bs.isEmpty
  unsent := []

inductive Stage (β : Type*)
  | unborn
  | live (e : End β)
  | gone

/-- One half of a link: the end, what it has sent and the other end has not
received, and its history. A `strict` end acknowledges nothing after its disconnect. -/
structure Half (β : Type*) where
  stage : Stage β
  out : List (Item β)
  acc : List β
  got : List β
  clo : Bool
  strict : Bool

/-- The end has received the other's disconnect. -/
def Half.Seen (h : Half β) : Prop := h.stage = .gone ∨ ∃ e, h.stage = .live e ∧ e.disc = true

/-- The end has sent its disconnect. -/
def Half.Sent (h : Half β) : Prop := h.stage = .gone ∨ ∃ e, h.stage = .live e ∧ e.sent = true

/-- An acknowledgement is owed. -/
def Half.owes (h : Half β) : ℕ :=
  match h.stage with
  | .live e => e.need.toNat
  | _ => 0

/-- The packets on the way from `x`, and the acknowledgements owed or on the way
from `y`. -/
def tokens (x y : Half β) : ℕ := x.out.countP Item.isData + y.owes + y.out.countP Item.isOk

/-- What the end `x` can do. `S` says whether an acknowledgement that is not from
this link may reach it, `H` whether an end that is not closed may send an empty
packet. -/
inductive Step (S H : Prop) : Half β → Half β → Half β → Half β → Prop
  | write {x y : Half β} {e : End β} (h : x.stage = .live e) (hc : e.closed = false)
      (hd : e.disc = false) (bs : List β) (u : List (List β))
      (hu : u.flatten = e.unsent.flatten ++ bs) (hne : u ≠ []) :
      Step S H x y
        { x with stage := .live { e with used := true, unsent := u }, acc := x.acc ++ bs } y
  | send {x y : Half β} {e : End β} (h : x.stage = .live e) (hs : e.sent = false)
      (hw : e.waiting = false) {bs : List β} {rest : List (List β)} (hu : e.unsent = bs :: rest)
      (hz : H ∨ (bs = [] → e.closed = true ∧ rest = [])) :
      Step S H x y
        { x with stage := .live { e with unsent := rest, waiting := true },
                 out := x.out ++ [.data bs] } y
  | ack {x y : Half β} {e : End β} (h : x.stage = .live e) (hn : e.need = true)
      (hd : e.disc = false) (hs : x.strict = true → e.sent = false) :
      Step S H x y
        { x with stage := .live { e with need := false }, out := x.out ++ [.ok] } y
  | close {x y : Half β} {e : End β} (h : x.stage = .live e) (hc : e.closed = false)
      (hd : e.disc = false) :
      Step S H x y { x with stage := .live { e with closed := true, unread := [] }, clo := true } y
  | shut {x y : Half β} {e : End β} (h : x.stage = .live e) (hc : e.closed = true)
      (hs : e.sent = false) (hu : e.unsent = []) (hused : e.used = true) :
      Step S H x y
        { x with stage := .live { e with sent := true }, out := x.out ++ [.discon] } y
  | read {x y : Half β} {e : End β} (h : x.stage = .live e) {bs rest : List β}
      (hu : e.unread = bs ++ rest) (h' : Bool) (hh : h' = true → e.hollow = true) :
      Step S H x y
        { x with stage := .live { e with unread := rest, hollow := h' }, got := x.got ++ bs } y
  | recvData {x y : Half β} {e : End β} (h : x.stage = .live e) (hd : e.disc = false)
      {bs : List β} {rest : List (Item β)} (ho : y.out = .data bs :: rest) :
      Step S H x y
        { x with stage := .live { e with used := true, need := true,
                                         unread := if e.closed then [] else e.unread ++ bs,
                                         hollow := if e.closed then e.hollow else e.hollow || bs.isEmpty } }
        { y with out := rest }
  | recvOk {x y : Half β} {e : End β} (h : x.stage = .live e) (hs : e.sent = false)
      (hw : e.waiting = true) {rest : List (Item β)} (ho : y.out = .ok :: rest) :
      Step S H x y { x with stage := .live { e with waiting := false } } { y with out := rest }
  | ignoreOk {x y : Half β} (hs : x.Sent) {rest : List (Item β)} (ho : y.out = .ok :: rest) :
      Step S H x y x { y with out := rest }
  | strayOk {x y : Half β} {e : End β} (hst : S) (h : x.stage = .live e) :
      Step S H x y { x with stage := .live { e with waiting := false } } y
  | recvDiscon {x y : Half β} {e : End β} (h : x.stage = .live e) (hs : e.sent = false)
      {rest : List (Item β)} (ho : y.out = .discon :: rest) (need waiting h' : Bool)
      (unsent : List (List β)) :
      Step S H x y
        { x with stage := .live { e with sent := true, disc := true, need, waiting, hollow := h',
                                         unsent },
                 out := x.out ++ [.discon] }
        { y with out := rest }
  | freed {x y : Half β} {e : End β} (h : x.stage = .live e) (hs : e.sent = true)
      {rest : List (Item β)} (ho : y.out = .discon :: rest) :
      Step S H x y { x with stage := .gone } { y with out := rest }
  | free {x y : Half β} {e : End β} (h : x.stage = .live e) (hd : e.disc = true) (c : Bool)
      (hc : x.clo = true → c = true) :
      Step S H x y { x with stage := .gone, clo := c } y
  | freeUnused {x y : Half β} {e : End β} (h : x.stage = .live e) (hu : e.used = false)
      (hc : e.closed = true) :
      Step S H x y { x with stage := .gone } y
  | born {x y : Half β} (h : x.stage = .unborn) {bs : List β} {rest : List (Item β)}
      (ho : y.out = .data bs :: rest) :
      Step S H x y
        { x with stage := .live (.fresh bs) } { y with out := rest }

/-- After the disconnect come only acknowledgements, and none from a strict end. -/
def Tail (strict : Bool) : List (Item β) → Prop
  | [] => True
  | .discon :: l => (∀ i ∈ l, i = .ok) ∧ (strict = true → l = [])
  | _ :: l => Tail strict l

/-- The flags of an end that exists. -/
structure EndOK (x : Half β) : Prop where
  disc_sent : ∀ e, x.stage = .live e → e.disc = true → e.sent = true
  sent_closed : ∀ e, x.stage = .live e → e.sent = true → e.disc = false → e.closed = true
  sent_unsent : ∀ e, x.stage = .live e → e.sent = true → e.disc = false → e.unsent = []
  closed_clo : ∀ e, x.stage = .live e → (e.closed = true ↔ x.clo = true)
  unborn_clo : x.stage = .unborn → x.clo = false

/-- The disconnect handshake, for what `x` sends to `y`. -/
structure Shake (x y : Half β) : Prop where
  unborn : x.stage = .unborn → x.out = [] ∧ x.acc = [] ∧ x.got = []
  /-- An end that has sent and received nothing is alone. -/
  unused : ∀ e, x.stage = .live e → e.used = false →
    e.unsent = [] ∧ e.sent = false ∧ x.out = [] ∧ y.stage = .unborn
  tail : Tail x.strict x.out
  /-- Until `y` has seen it, the disconnect `x` has sent is on the way. -/
  pending : ∀ e, y.stage = .live e → e.disc = false → (.discon ∈ x.out ↔ x.Sent)
  seen : y.Seen → (∀ i ∈ x.out, i = .ok) ∧ (x.strict = true → x.out = []) ∧
    (x.stage = .unborn ∨ x.Sent)
  /-- Before `y` exists the first thing `x` sends is data. -/
  alone : y.stage = .unborn → (x.stage = .gone ∧ x.out = []) ∨
    ∃ e, x.stage = .live e ∧ e.disc = false ∧ e.need = false ∧ e.unread = [] ∧
      e.hollow = false ∧ x.got = [] ∧ .ok ∉ x.out ∧
      (.discon ∈ x.out ↔ e.sent = true) ∧
      (x.out = [] ∨ ∃ bs rest, x.out = .data bs :: rest) ∧
      (e.used = true → e.unsent ≠ [] ∨ x.out ≠ [])

/-- An end that waits has something to wait for. -/
def Waits (x y : Half β) : Prop :=
  ∀ e, x.stage = .live e → e.sent = false → e.waiting.toNat ≤ tokens x y

/-- And nothing else is on the way. -/
def Exact (x y : Half β) : Prop :=
  ∀ e, x.stage = .live e → e.sent = false → tokens x y ≤ e.waiting.toNat

/-- The bytes `x` has accepted are those `y` has returned, then those in `y`, on the
way, and in `x`. -/
structure Flow (x y : Half β) : Prop where
  stream : ∀ f, y.stage = .live f → f.closed = false → f.disc = false → x.stage ≠ .unborn →
    ∃ e, x.stage = .live e ∧ e.disc = false ∧
      x.acc = y.got ++ f.unread ++ (x.out.map Item.bytes).flatten ++ e.unsent.flatten
  alone : y.stage = .unborn → ∀ e, x.stage = .live e →
    x.acc = (x.out.map Item.bytes).flatten ++ e.unsent.flatten
  /-- With the disconnect seen, `y` has everything. -/
  ended : ∀ f, y.stage = .live f → f.closed = false → f.disc = true →
    x.acc = y.got ++ f.unread ∧ x.clo = true

/-- An end is released only after one of the two was closed. -/
def Gone (x y : Half β) : Prop := x.stage = .gone → x.clo = true ∨ y.clo = true

/-- Nothing follows an empty packet. -/
def Last : List (Item β) → Prop
  | [] => True
  | .data [] :: l => ∀ i ∈ l, i.isData = false
  | _ :: l => Last l

/-- Only a closed end sends an empty packet, after everything else it has. -/
structure Dense (x y : Half β) : Prop where
  last : Last x.out
  sent : ∀ e, x.stage = .live e → e.disc = false → .data [] ∈ x.out →
    e.closed = true ∧ e.unsent = []
  unread : ∀ e f, x.stage = .live e → e.disc = false → y.stage = .live f → f.hollow = true →
    f.closed = false → f.disc = false →
    e.closed = true ∧ e.unsent = [] ∧ ∀ i ∈ x.out, i.isData = false

variable {S H : Prop} {x y x' y' : Half β} {strict : Bool}

theorem Tail.of_cons {i : Item β} {l : List (Item β)} (h : Tail strict (i :: l)) :
    Tail strict l := by
  cases i with
  | data bs => exact h
  | ok => exact h
  | discon =>
    have hok : ∀ m : List (Item β), (∀ i ∈ m, i = .ok) → Tail strict m := by
      intro m
      induction m with
      | nil => intro _; trivial
      | cons j m ih =>
        intro hj
        rw [hj j List.mem_cons_self]
        exact ih fun i hi => hj i (List.mem_cons_of_mem _ hi)
    exact hok l h.1

theorem Tail.snoc {i : Item β} : ∀ {l : List (Item β)}, Tail strict l → .discon ∉ l →
    Tail strict (l ++ [i]) := by
  intro l
  induction l with
  | nil => intro _ _; cases i <;> simp [Tail]
  | cons j l ih =>
    intro h hl
    cases j with
    | discon => simp at hl
    | data bs => exact ih h fun hm => hl (List.mem_cons_of_mem _ hm)
    | ok => exact ih h fun hm => hl (List.mem_cons_of_mem _ hm)

theorem Tail.snoc_ok : ∀ {l : List (Item β)}, Tail strict l → (strict = true → .discon ∉ l) →
    Tail strict (l ++ [.ok]) := by
  intro l
  induction l with
  | nil => intro _ _; trivial
  | cons j l ih =>
    intro h hl
    cases j with
    | discon =>
      refine ⟨?_, fun hs => absurd List.mem_cons_self (hl hs)⟩
      intro i hi
      rcases List.mem_append.1 hi with hi | hi
      · exact h.1 i hi
      · exact List.mem_singleton.1 hi
    | data bs => exact ih h fun hs hm => hl hs (List.mem_cons_of_mem _ hm)
    | ok => exact ih h fun hs hm => hl hs (List.mem_cons_of_mem _ hm)

/-- The other end is only relieved of what it has on the way. -/
theorem Step.other_eq (hs : Step S H x y x' y') :
    ∃ o, y' = { y with out := o } ∧ (o = y.out ∨ ∃ i, y.out = i :: o) := by
  cases hs with
  | recvData _ _ ho => exact ⟨_, rfl, Or.inr ⟨_, ho⟩⟩
  | recvOk _ _ _ ho => exact ⟨_, rfl, Or.inr ⟨_, ho⟩⟩
  | ignoreOk _ ho => exact ⟨_, rfl, Or.inr ⟨_, ho⟩⟩
  | recvDiscon _ _ ho => exact ⟨_, rfl, Or.inr ⟨_, ho⟩⟩
  | freed _ _ ho => exact ⟨_, rfl, Or.inr ⟨_, ho⟩⟩
  | born _ ho => exact ⟨_, rfl, Or.inr ⟨_, ho⟩⟩
  | _ => exact ⟨_, rfl, Or.inl rfl⟩

theorem EndOK.of_live {e : End β} (h : x.stage = .live e) (hd : e.disc = true → e.sent = true)
    (hc : e.sent = true → e.disc = false → e.closed = true)
    (hu : e.sent = true → e.disc = false → e.unsent = []) (hi : e.closed = true ↔ x.clo = true) :
    EndOK x := by
  refine ⟨?_, ?_, ?_, ?_, fun hb => by rw [h] at hb; cases hb⟩
  all_goals
    intro e' he'
    rw [h] at he'
    cases he'
    assumption

theorem EndOK.of_gone (h : x.stage = .gone) : EndOK x := by
  refine ⟨?_, ?_, ?_, ?_, ?_⟩ <;> simp [h]

theorem EndOK.step (h1 : EndOK x) (h2 : EndOK y) (hs : Step S H x y x' y') :
    EndOK x' ∧ EndOK y' := by
  constructor
  · cases hs with
    | ignoreOk => exact h1
    | freed => exact .of_gone rfl
    | free => exact .of_gone rfl
    | freeUnused => exact .of_gone rfl
    | born h ho =>
      have := h1.unborn_clo h
      apply EndOK.of_live rfl <;> simp [End.fresh, this]
    | strayOk hst h =>
      have a := h1.disc_sent _ h
      have b := h1.sent_closed _ h
      have c := h1.sent_unsent _ h
      have d := h1.closed_clo _ h
      apply EndOK.of_live rfl <;> assumption
    | _ h =>
      have a := h1.disc_sent _ h
      have b := h1.sent_closed _ h
      have c := h1.sent_unsent _ h
      have d := h1.closed_clo _ h
      apply EndOK.of_live rfl <;> simp_all
  · obtain ⟨o, rfl, -⟩ := hs.other_eq
    exact ⟨h2.disc_sent, h2.sent_closed, h2.sent_unsent, h2.closed_clo, h2.unborn_clo⟩

/-- An end that has not sent its disconnect has none on the way. -/
theorem Shake.discon_notMem (h1 : Shake x y) {e : End β} (h : x.stage = .live e)
    (hs : e.sent = false) : .discon ∉ x.out := by
  have hns : ¬ x.Sent := by
    rintro (hg | ⟨e', he', hs'⟩)
    · rw [h] at hg; cases hg
    · rw [h] at he'; cases he'; rw [hs] at hs'; cases hs'
  cases hy : y.stage with
  | unborn =>
    rcases h1.alone hy with ⟨hg, -⟩ | ⟨e', he', -, -, -, -, -, -, hd, -⟩
    · rw [h] at hg; cases hg
    · rw [h] at he'; cases he'; rw [hd, hs]; simp
  | live f =>
    cases hf : f.disc with
    | false => rw [h1.pending f hy hf]; exact hns
    | true =>
      intro hm
      have := (h1.seen (Or.inr ⟨f, hy, hf⟩)).1 _ hm
      cases this
  | gone =>
    intro hm
    have := (h1.seen (Or.inl hy)).1 _ hm
    cases this

/-- A disconnect on the way to an end that exists was sent by the other end. -/
theorem Shake.sent_of_mem (h2 : Shake y x) {e : End β} (h : x.stage = .live e)
    (hm : .discon ∈ y.out) : y.Sent := by
  cases hd : e.disc with
  | false => exact (h2.pending e h hd).1 hm
  | true =>
    have := (h2.seen (Or.inr ⟨e, h, hd⟩)).1 _ hm
    cases this

/-- Whoever has a disconnect on the way has sent it. -/
theorem Shake.sent_of_out (h1 : Shake x y) (hm : .discon ∈ x.out) : x.Sent := by
  cases hy : y.stage with
  | unborn =>
    rcases h1.alone hy with ⟨hg, -⟩ | ⟨e, he, -, -, -, -, -, -, hiff, -⟩
    · exact Or.inl hg
    · exact Or.inr ⟨e, he, hiff.1 hm⟩
  | live f => exact h1.sent_of_mem hy hm
  | gone => exact absurd ((h1.seen (Or.inl hy)).1 _ hm) (by simp)

theorem Half.Sent.not_open {e : End β} (hs : x.Sent) (h : x.stage = .live e) : e.sent = true := by
  rcases hs with hg | ⟨e', he', hs'⟩
  · rw [h] at hg; cases hg
  · rw [h] at he'; cases he'; exact hs'

/-- The handshake of an end that exists. -/
theorem Shake.live_iff {e : End β} (h : x.stage = .live e) :
    Shake x y ↔
      (e.used = false → e.unsent = [] ∧ e.sent = false ∧ x.out = [] ∧ y.stage = .unborn) ∧
      Tail x.strict x.out ∧
      (∀ f, y.stage = .live f → f.disc = false → (.discon ∈ x.out ↔ e.sent = true)) ∧
      (y.Seen → (∀ i ∈ x.out, i = .ok) ∧ (x.strict = true → x.out = []) ∧ e.sent = true) ∧
      (y.stage = .unborn → e.disc = false ∧ e.need = false ∧ e.unread = [] ∧ e.hollow = false ∧
        x.got = [] ∧ .ok ∉ x.out ∧ (.discon ∈ x.out ↔ e.sent = true) ∧
        (x.out = [] ∨ ∃ bs rest, x.out = .data bs :: rest) ∧
        (e.used = true → e.unsent ≠ [] ∨ x.out ≠ [])) := by
  have hsent : x.Sent ↔ e.sent = true := by simp [Half.Sent, h]
  constructor
  · intro hs
    refine ⟨hs.unused e h, hs.tail, fun f hf hd => (hs.pending f hf hd).trans hsent, ?_, ?_⟩
    · intro hy
      obtain ⟨hok, hst, hu | hse⟩ := hs.seen hy
      · rw [h] at hu; cases hu
      · exact ⟨hok, hst, hsent.1 hse⟩
    · intro hy
      rcases hs.alone hy with ⟨hg, -⟩ | ⟨e', he', hrest⟩
      · rw [h] at hg; cases hg
      · rw [h] at he'; cases he'; exact hrest
  · rintro ⟨hused, ht, hp, hseen, hal⟩
    refine ⟨fun hb => ?_, fun e' he' => ?_, ht, fun f hf hd => (hp f hf hd).trans hsent.symm,
      fun hy => ?_, fun hy => Or.inr ⟨e, h, hal hy⟩⟩
    · rw [h] at hb; cases hb
    · rw [h] at he'; cases he'; exact hused
    · obtain ⟨hok, hst, hse⟩ := hseen hy
      exact ⟨hok, hst, Or.inr (hsent.2 hse)⟩

/-- The handshake of an end that is released. -/
theorem Shake.of_gone (h : x.stage = .gone) (ht : Tail x.strict x.out)
    (hp : ∀ f, y.stage = .live f → f.disc = false → .discon ∈ x.out)
    (hs : y.Seen → (∀ i ∈ x.out, i = .ok) ∧ (x.strict = true → x.out = []))
    (ha : y.stage = .unborn → x.out = []) : Shake x y := by
  refine ⟨fun hb => ?_, fun e he => ?_, ht, fun f hf hd => iff_of_true (hp f hf hd) (Or.inl h),
    fun hy => ⟨(hs hy).1, (hs hy).2, Or.inr (Or.inl h)⟩, fun hy => Or.inl ⟨h, ha hy⟩⟩
  · rw [h] at hb; cases hb
  · rw [h] at he; cases he

/-- An end that does not exist has nothing on the way. -/
theorem Shake.out_ne (h2 : Shake y x) {i : Item β} {rest : List (Item β)}
    (ho : y.out = i :: rest) : y.stage ≠ .unborn := by
  intro hy
  rw [(h2.unborn hy).1] at ho
  cases ho

theorem Shake.step_left (he : EndOK x) (h1 : Shake x y) (h2 : Shake y x)
    (hs : Step S H x y x' y') : Shake x' y' := by
  cases hs with
  | write h hc hd bs u hu hne =>
    obtain ⟨-, ht, hp, hy, ha⟩ := (Shake.live_iff h).1 h1
    apply (Shake.live_iff rfl).2
    refine ⟨by simp, ht, hp, hy, fun hb => ?_⟩
    obtain ⟨hd, hn, hr, hh, hg, hk, hi, ho, -⟩ := ha hb
    exact ⟨hd, hn, hr, hh, hg, hk, hi, ho, fun _ => Or.inl hne⟩
  | @send e h hs hw bs rest hu hz =>
    have hnd := h1.discon_notMem h hs
    obtain ⟨hun, ht, hp, hy, ha⟩ := (Shake.live_iff h).1 h1
    apply (Shake.live_iff rfl).2
    refine ⟨fun hf => ?_, ht.snoc hnd, fun f hf hd => ?_, fun hb => ?_,
      fun hb => ?_⟩
    · rw [(hun hf).1] at hu; cases hu
    · simpa using hp f hf hd
    · rw [(hy hb).2.2] at hs; cases hs
    · obtain ⟨hd, hn, hr, hh, hg, hk, hi, ho, -⟩ := ha hb
      refine ⟨hd, hn, hr, hh, hg, by simpa using hk, by simpa using hi, Or.inr ?_,
        fun _ => Or.inr (by simp)⟩
      rcases ho with ho | ⟨bs', rest', ho⟩
      · exact ⟨bs, [], by simp [ho]⟩
      · exact ⟨bs', rest' ++ [.data bs], by simp [ho]⟩
  | ack h hn hd hs =>
    have ht' := h1.tail.snoc_ok fun hst => h1.discon_notMem h (hs hst)
    obtain ⟨hun, ht, hp, hy, ha⟩ := (Shake.live_iff h).1 h1
    apply (Shake.live_iff rfl).2
    refine ⟨fun hf => ?_, ht', fun f hf hd => by simpa using hp f hf hd,
      fun hb => ?_, fun hb => ?_⟩
    · obtain ⟨hu, hse, ho, hb⟩ := hun hf
      rw [(ha hb).2.1] at hn; cases hn
    · obtain ⟨hok, hst, hse⟩ := hy hb
      refine ⟨fun i hi => ?_, fun hs' => ?_, hse⟩
      · rcases List.mem_append.1 hi with hi | hi
        · exact hok i hi
        · exact List.mem_singleton.1 hi
      · rw [hs hs'] at hse; cases hse
    · rw [(ha hb).2.1] at hn; cases hn
  | close h hc hd =>
    obtain ⟨hun, ht, hp, hy, ha⟩ := (Shake.live_iff h).1 h1
    apply (Shake.live_iff rfl).2
    refine ⟨hun, ht, hp, hy, fun hb => ?_⟩
    obtain ⟨hd, hn, -, hh, hrest⟩ := ha hb
    exact ⟨hd, hn, rfl, hh, hrest⟩
  | shut h hc hs hu hused =>
    have ht' := h1.tail.snoc (i := .discon) (h1.discon_notMem h hs)
    obtain ⟨hun, ht, hp, hy, ha⟩ := (Shake.live_iff h).1 h1
    apply (Shake.live_iff rfl).2
    refine ⟨fun hf => ?_, ht', by simp, fun hb => ?_, fun hb => ?_⟩
    · rw [hused] at hf; cases hf
    · rw [(hy hb).2.2] at hs; cases hs
    · obtain ⟨hd, hn, hr, hh, hg, hk, hi, ho, hne⟩ := ha hb
      have hout : _ ≠ [] := (hne hused).resolve_left fun hn => hn hu
      refine ⟨hd, hn, hr, hh, hg, by simpa using hk, by simp, Or.inr ?_,
        fun _ => Or.inr (by simp)⟩
      rcases ho with ho | ⟨bs', rest', ho⟩
      · exact absurd ho hout
      · exact ⟨bs', rest' ++ [.discon], by simp [ho]⟩
  | read h hu h' hh =>
    obtain ⟨hun, ht, hp, hy, ha⟩ := (Shake.live_iff h).1 h1
    apply (Shake.live_iff rfl).2
    refine ⟨hun, ht, hp, hy, fun hb => ?_⟩
    obtain ⟨hd, hn, hr, hh', hg, hrest⟩ := ha hb
    rw [hr] at hu
    obtain ⟨rfl, rfl⟩ := List.append_eq_nil_iff.1 hu.symm
    have hf : h' = false := by
      cases h' with
      | false => rfl
      | true => rw [hh rfl] at hh'; cases hh'
    exact ⟨hd, hn, rfl, hf, by simpa using hg, hrest⟩
  | recvData h hd ho =>
    obtain ⟨hun, ht, hp, hy, -⟩ := (Shake.live_iff h).1 h1
    apply (Shake.live_iff rfl).2
    exact ⟨by simp, ht, hp, hy, fun hb => absurd hb (h2.out_ne ho)⟩
  | recvOk h hs hw ho =>
    obtain ⟨hun, ht, hp, hy, -⟩ := (Shake.live_iff h).1 h1
    apply (Shake.live_iff rfl).2
    exact ⟨hun, ht, hp, hy, fun hb => absurd hb (h2.out_ne ho)⟩
  | ignoreOk hs ho => exact ⟨h1.unborn, h1.unused, h1.tail, h1.pending, h1.seen, h1.alone⟩
  | strayOk hst h =>
    apply (Shake.live_iff rfl).2
    exact (Shake.live_iff h).1 h1
  | recvDiscon h hs ho need waiting h' unsent =>
    have ht' := h1.tail.snoc (i := .discon) (h1.discon_notMem h hs)
    obtain ⟨hun, ht, hp, hy, -⟩ := (Shake.live_iff h).1 h1
    apply (Shake.live_iff rfl).2
    refine ⟨fun hf => ?_, ht', by simp, fun hb => ?_,
      fun hb => absurd hb (h2.out_ne ho)⟩
    · exact absurd (hun hf).2.2.2 (h2.out_ne ho)
    · rw [(hy hb).2.2] at hs; cases hs
  | freed h hs ho =>
    obtain ⟨-, ht, hp, hy, -⟩ := (Shake.live_iff h).1 h1
    exact .of_gone rfl ht (fun f hf hd => (hp f hf hd).2 hs) (fun hb => ⟨(hy hb).1, (hy hb).2.1⟩)
      fun hb => absurd hb (h2.out_ne ho)
  | free h hd c hc =>
    obtain ⟨-, ht, hp, hy, ha⟩ := (Shake.live_iff h).1 h1
    refine .of_gone rfl ht (fun f hf hd' => (hp f hf hd').2 (he.disc_sent _ h hd))
      (fun hb => ⟨(hy hb).1, (hy hb).2.1⟩) fun hb => ?_
    rw [(ha hb).1] at hd; cases hd
  | freeUnused h hu hc =>
    obtain ⟨hun, ht, hp, hy, -⟩ := (Shake.live_iff h).1 h1
    obtain ⟨-, -, ho, hb⟩ := hun hu
    refine .of_gone rfl ht (fun f hf _ => ?_) (fun hb => ⟨(hy hb).1, (hy hb).2.1⟩) fun _ => ho
    rw [hb] at hf; cases hf
  | born h ho =>
    obtain ⟨hout, -, hg⟩ := h1.unborn h
    apply (Shake.live_iff rfl).2
    refine ⟨by simp [End.fresh], by simp [hout, Tail], ?_, ?_,
      fun hb => absurd hb (h2.out_ne ho)⟩
    · intro f hf hd
      simp [hout, End.fresh]
    · -- `y` has not seen a disconnect: it is alone
      intro hb
      rcases h2.alone h with ⟨-, hn⟩ | ⟨f, hf, hd, -⟩
      · rw [ho] at hn; cases hn
      · rcases hb with hb | ⟨f', hf', hd'⟩
        · rw [hf] at hb; cases hb
        · rw [hf] at hf'; cases hf'; rw [hd] at hd'; cases hd'

/-- What is left on the way when the other end has taken a step and received no disconnect. -/
theorem Shake.relieve (h2 : Shake y x) (hx : x.stage ≠ .unborn) (hx' : x'.stage ≠ .unborn)
    (hl : ∀ e', x'.stage = .live e' → e'.disc = false → ∃ e, x.stage = .live e ∧ e.disc = false)
    (hs : x'.Seen → x.Seen) {o : List (Item β)}
    (ho : o = y.out ∨ ∃ i, y.out = i :: o ∧ i ≠ .discon) : Shake { y with out := o } x' := by
  have hnil : y.out = [] → o = [] := by
    intro hn
    rcases ho with rfl | ⟨i, hi, -⟩
    · exact hn
    · rw [hn] at hi; cases hi
  have hdis : .discon ∈ o ↔ .discon ∈ y.out := by
    rcases ho with rfl | ⟨i, hy, hi⟩
    · rfl
    · rw [hy, List.mem_cons]
      exact ⟨Or.inr, fun h => h.resolve_left (Ne.symm hi)⟩
  have hsub : ∀ i ∈ o, i ∈ y.out := by
    rcases ho with rfl | ⟨i, hy, -⟩
    · exact fun _ => id
    · rw [hy]; exact fun _ => List.mem_cons_of_mem _
  refine ⟨fun hb => ?_, fun e he hu => ?_, ?_, fun e' he' hd => ?_, fun hb => ?_,
    fun hb => absurd hb hx'⟩
  · obtain ⟨h, ha, hg⟩ := h2.unborn hb
    exact ⟨hnil h, ha, hg⟩
  · exact absurd (h2.unused e he hu).2.2.2 hx
  · rcases ho with rfl | ⟨i, hy, -⟩
    · exact h2.tail
    · have ht := h2.tail
      rw [hy] at ht
      exact ht.of_cons
  · obtain ⟨e, he, hd⟩ := hl e' he' hd
    exact hdis.trans (h2.pending e he hd)
  · obtain ⟨hok, hst, hse⟩ := h2.seen (hs hb)
    exact ⟨fun i hi => hok i (hsub i hi), fun h => hnil (hst h), hse⟩

/-- The same for a step of an end that exists before and after it. -/
theorem Shake.relieve_live (h2 : Shake y x) {e : End β} (h : x.stage = .live e)
    (h' : ∃ e', x'.stage = .live e') (hd : ∀ e', x'.stage = .live e' → e'.disc = e.disc)
    {o : List (Item β)}
    (ho : o = y.out ∨ ∃ i, y.out = i :: o ∧ i ≠ .discon) : Shake { y with out := o } x' := by
  obtain ⟨e', h'⟩ := h'
  have hd := hd e' h'
  apply h2.relieve _ _ _ _ ho
  · rw [h]; rintro ⟨⟩
  · rw [h']; rintro ⟨⟩
  · intro f hf hdf
    rw [h'] at hf
    cases hf
    exact ⟨e, h, by rw [← hd, hdf]⟩
  · rintro (hg | ⟨f, hf, hdf⟩)
    · rw [h'] at hg; cases hg
    · rw [h'] at hf; cases hf
      exact Or.inr ⟨e, h, by rw [← hd, hdf]⟩

/-- A disconnect has been received: nothing but acknowledgements can follow. -/
theorem Shake.seen_discon (h2 : Shake y x) {e : End β} (h : x.stage = .live e)
    {rest : List (Item β)} (ho : y.out = .discon :: rest) (hx' : x'.Seen) :
    Shake { y with out := rest } x' := by
  have hsent : y.Sent := h2.sent_of_mem h (by rw [ho]; exact List.mem_cons_self)
  have ht := h2.tail
  rw [ho] at ht
  refine ⟨fun hb => absurd hb (h2.out_ne ho), fun f hf hu => ?_, ht.of_cons, fun f hf hd => ?_,
    fun _ => ⟨ht.1, ht.2, Or.inr hsent⟩, fun hb => ?_⟩
  · rw [(h2.unused f hf hu).2.2.1] at ho; cases ho
  · rcases hx' with hg | ⟨f', hf', hd'⟩
    · rw [hf] at hg; cases hg
    · rw [hf] at hf'; cases hf'; rw [hd] at hd'; cases hd'
  · rcases hx' with hg | ⟨f', hf', -⟩
    · rw [hb] at hg; cases hg
    · rw [hb] at hf'; cases hf'

theorem Shake.step_right (h1 : Shake x y) (h2 : Shake y x)
    (hs : Step S H x y x' y') : Shake y' x' := by
  cases hs with
  | recvData h hd ho => exact h2.relieve_live h ⟨_, rfl⟩ (fun _ hf => by cases hf; rfl) (Or.inr ⟨_, ho, by simp⟩)
  | recvOk h hs hw ho => exact h2.relieve_live h ⟨_, rfl⟩ (fun _ hf => by cases hf; rfl) (Or.inr ⟨_, ho, by simp⟩)
  | ignoreOk hs ho =>
    have hx : x.stage ≠ .unborn := by
      rcases hs with hg | ⟨e, he, -⟩
      · rw [hg]; rintro ⟨⟩
      · rw [he]; rintro ⟨⟩
    exact h2.relieve hx hx (fun e he hd => ⟨e, he, hd⟩) id (Or.inr ⟨_, ho, by simp⟩)
  | strayOk hst h => exact h2.relieve_live h ⟨_, rfl⟩ (fun _ hf => by cases hf; rfl) (Or.inl rfl)
  | recvDiscon h hs ho need waiting h' unsent =>
    exact h2.seen_discon h ho (Or.inr ⟨_, rfl, rfl⟩)
  | freed h hs ho => exact h2.seen_discon h ho (Or.inl rfl)
  | free h hd c hc =>
    apply h2.relieve _ _ _ _ (Or.inl rfl)
    · rw [h]; rintro ⟨⟩
    · rintro ⟨⟩
    · rintro _ ⟨⟩
    · exact fun _ => Or.inr ⟨_, h, hd⟩
  | freeUnused h hu hc =>
    -- nothing was ever sent: the other end does not exist
    have hy := (h1.unused _ h hu).2.2.2
    have ho := (h2.unborn hy).1
    refine ⟨h2.unborn, fun f hf _ => ?_, h2.tail, (by simp), fun _ => ?_, (by simp)⟩
    · rw [hy] at hf; cases hf
    · rw [ho]; exact ⟨(by simp), fun _ => rfl, Or.inl hy⟩
  | born h ho =>
    have ht := h2.tail
    rw [ho] at ht
    rcases h2.alone h with ⟨-, hn⟩ | ⟨f, hf, -, -, -, -, -, -, hi, -⟩
    · rw [ho] at hn; cases hn
    · refine ⟨fun hb => absurd hb (h2.out_ne ho), fun f hf hu => ?_, ht.of_cons,
        fun e he hd => ?_, fun hb => ?_, (by simp)⟩
      · rw [(h2.unused f hf hu).2.2.1] at ho; cases ho
      · have hsent : y.Sent ↔ f.sent = true := by simp [Half.Sent, hf]
        refine Iff.trans ?_ (hi.trans hsent.symm)
        simp [ho]
      · rcases hb with hb | ⟨e, he, hd⟩
        · cases hb
        · cases he; cases hd
  | _ h => exact h2.relieve_live h ⟨_, rfl⟩ (fun _ hf => by cases hf; rfl) (Or.inl rfl)

theorem Waits.step_left (h1 : Waits x y) (hs : Step S H x y x' y') : Waits x' y' := by
  cases hs with
  | ignoreOk hs ho =>
    intro e he hs'
    rw [hs.not_open he] at hs'; cases hs'
  | _ => grind [Waits, Link.tokens, Half.owes, End.fresh, Item.isData, Item.isOk]

theorem Waits.step_right (hS1 : Shake x y) (hS2 : Shake y x) (h2 : Waits y x)
    (hs : Step S H x y x' y') : Waits y' x' := by
  cases hs with
  | recvData h hd ho =>
    -- whatever was owed before, one acknowledgement is owed now
    intro f hf _
    have := f.waiting.toNat_le
    simp only [Link.tokens, Half.owes, Bool.toNat_true]
    omega
  | recvDiscon h hs ho need waiting h' unsent =>
    intro f hf hs'
    have hm : Item.discon ∈ y.out := by rw [ho]; exact List.mem_cons_self
    rw [(hS2.sent_of_mem h hm).not_open hf] at hs'; cases hs'
  | freed h hs ho =>
    intro f hf hs'
    have hm : Item.discon ∈ y.out := by rw [ho]; exact List.mem_cons_self
    rw [(hS2.sent_of_mem h hm).not_open hf] at hs'; cases hs'
  | free h hd c hc =>
    intro f hf hs'
    rcases (hS2.seen (Or.inr ⟨_, h, hd⟩)).2.2 with hu | hse
    · rw [hf] at hu; cases hu
    · rw [hse.not_open hf] at hs'; cases hs'
  | freeUnused h hu hc =>
    intro f hf
    rw [(hS1.unused _ h hu).2.2.2] at hf; cases hf
  | _ => grind [Waits, Link.tokens, Half.owes, End.fresh, Item.isData, Item.isOk]

theorem Exact.step_left (hS1 : Shake x y) (hS2 : Shake y x) (h1 : Exact x y)
    (hs : Step False H x y x' y') : Exact x' y' := by
  cases hs with
  | born h ho =>
    intro e he hs
    cases he
    rcases hS2.alone h with ⟨-, hn⟩ | ⟨f, hf, -, hn, -, -, -, hk, -⟩
    · rw [ho] at hn; cases hn
    · rw [ho] at hk
      simp only [List.mem_cons, not_or] at hk
      have hok : List.countP Item.isOk _ = 0 := List.countP_eq_zero.2 fun i hi hoki => by
        cases i with
        | ok => exact hk.2 hi
        | data bs => cases hoki
        | discon => cases hoki
      simp [Link.tokens, (hS1.unborn h).1, Half.owes, hf, hn, hok]
  | _ => grind [Exact, Link.tokens, Half.owes, End.fresh, Item.isData, Item.isOk, Half.Sent]

theorem Exact.step_right (hS2 : Shake y x) (h2 : Exact y x) (hs : Step False H x y x' y') :
    Exact y' x' := by
  cases hs with
  | recvDiscon h hs ho need waiting h' unsent =>
    intro f hf hs'
    have hm : Item.discon ∈ y.out := by rw [ho]; exact List.mem_cons_self
    rw [(hS2.sent_of_mem h hm).not_open hf] at hs'; cases hs'
  | _ => grind [Exact, Link.tokens, Half.owes, End.fresh, Item.isData, Item.isOk]

/-- The bytes of an end that exists. -/
theorem Flow.live_iff {e : End β} (h : x.stage = .live e) :
    Flow x y ↔
      (∀ f, y.stage = .live f → f.closed = false → f.disc = false → e.disc = false ∧
        x.acc = y.got ++ f.unread ++ (x.out.map Item.bytes).flatten ++ e.unsent.flatten) ∧
      (y.stage = .unborn → x.acc = (x.out.map Item.bytes).flatten ++ e.unsent.flatten) ∧
      (∀ f, y.stage = .live f → f.closed = false → f.disc = true →
        x.acc = y.got ++ f.unread ∧ x.clo = true) := by
  constructor
  · intro hf
    refine ⟨fun f hy hc hd => ?_, fun hy => hf.alone hy e h, hf.ended⟩
    obtain ⟨e', he', hrest⟩ := hf.stream f hy hc hd (by simp [h])
    rw [h] at he'; cases he'; exact hrest
  · rintro ⟨hst, hal, hen⟩
    refine ⟨fun f hy hc hd _ => ⟨e, h, hst f hy hc hd⟩, fun hy e' he' => ?_, hen⟩
    rw [h] at he'; cases he'; exact hal hy

/-- What carries no byte changes nothing. -/
theorem Flow.silent (h1 : Flow x y) {e : End β} (h : x.stage = .live e) {e' : End β} {i : Item β}
    (hb : i.bytes = []) (h' : x'.stage = .live e') (ho : x'.out = x.out ++ [i])
    (hx : (e'.disc, e'.unsent) = (e.disc, e.unsent)) (hh : (x'.acc, x'.clo) = (x.acc, x.clo)) :
    Flow x' y := by
  obtain ⟨hst, hal, hen⟩ := (Flow.live_iff h).1 h1
  obtain ⟨hd, hu⟩ := Prod.mk.inj hx
  obtain ⟨ha, hc⟩ := Prod.mk.inj hh
  apply (Flow.live_iff h').2
  have hbytes : ((x.out ++ [i]).map Item.bytes).flatten = (x.out.map Item.bytes).flatten := by
    simp [hb]
  rw [ho, ha, hc, hd, hu, hbytes]
  exact ⟨hst, hal, hen⟩

theorem Flow.step_left (hex : EndOK x) (hey : EndOK y) (hS1 : Shake x y) (hS2 : Shake y x)
    (h1 : Flow x y) (hs : Step S H x y x' y') : Flow x' y' := by
  -- a disconnect from `y` is on the way, so `y` is closed or has seen one itself
  have hcl : ∀ e, x.stage = .live e → Item.discon ∈ y.out → ∀ f, y.stage = .live f →
      f.disc = false → f.closed = true := by
    intro e h hm f hf hd
    exact hey.sent_closed f hf ((hS2.sent_of_mem h hm).not_open hf) hd
  cases hs with
  | write h hc hd bs u hu hne =>
    obtain ⟨hst, hal, -⟩ := (Flow.live_iff h).1 h1
    apply (Flow.live_iff rfl).2
    refine ⟨fun f hy hc' hd' => ⟨hd, ?_⟩, fun hy => ?_, fun f hy _ hd' => ?_⟩
    · simp [(hst f hy hc' hd').2, hu]
    · simp [hal hy, hu]
    · have hse := ((Shake.live_iff h).1 hS1).2.2.2.1 (Or.inr ⟨f, hy, hd'⟩)
      rw [hex.sent_closed _ h hse.2.2 hd] at hc; cases hc
  | send h hs hw hu hz =>
    obtain ⟨hst, hal, hen⟩ := (Flow.live_iff h).1 h1
    rw [hu] at hst hal
    apply (Flow.live_iff rfl).2
    refine ⟨fun f hy hc hd => ⟨(hst f hy hc hd).1, ?_⟩, fun hy => ?_, hen⟩
    · simp [(hst f hy hc hd).2, Item.bytes]
    · simp [hal hy, Item.bytes]
  | ack h hn hd hs => exact h1.silent h rfl rfl rfl rfl rfl
  | close h hc hd =>
    obtain ⟨hst, hal, hen⟩ := (Flow.live_iff h).1 h1
    apply (Flow.live_iff rfl).2
    exact ⟨hst, hal, fun f hy hc hd => ⟨(hen f hy hc hd).1, rfl⟩⟩
  | shut h hc hs hu hused => exact h1.silent h rfl rfl rfl rfl rfl
  | ignoreOk hs ho => exact ⟨h1.stream, h1.alone, h1.ended⟩
  | strayOk hst h =>
    apply (Flow.live_iff rfl).2
    exact (Flow.live_iff h).1 h1
  | recvDiscon h hs ho need waiting h' unsent =>
    obtain ⟨-, -, hen⟩ := (Flow.live_iff h).1 h1
    refine ⟨?_, fun hy => absurd hy (hS2.out_ne ho), hen⟩
    intro f hf hc hd
    rw [hcl _ h (by rw [ho]; exact List.mem_cons_self) f hf hd] at hc; cases hc
  | freed h hs ho =>
    refine ⟨?_, (by simp), h1.ended⟩
    intro f hf hc hd
    rw [hcl _ h (by rw [ho]; exact List.mem_cons_self) f hf hd] at hc; cases hc
  | free h hd c hc =>
    refine ⟨fun f hy hc' hd' => ?_, (by simp), fun f hy hc' hd' => ?_⟩
    · rw [(((Flow.live_iff h).1 h1).1 f hy hc' hd').1] at hd; cases hd
    · exact ⟨(h1.ended f hy hc' hd').1, hc (h1.ended f hy hc' hd').2⟩
  | freeUnused h hu hc =>
    refine ⟨fun f hy => ?_, (by simp), h1.ended⟩
    rw [(hS1.unused _ h hu).2.2.2] at hy; cases hy
  | born h ho =>
    obtain ⟨hout, hacc, -⟩ := hS1.unborn h
    refine ⟨?_, fun hy => absurd hy (hS2.out_ne ho), h1.ended⟩
    intro f hf _ _ _
    rcases hS2.alone h with ⟨hg, -⟩ | ⟨f', hf', -, -, hr, -, hgot, -⟩
    · rw [hf] at hg; cases hg
    · rw [hf] at hf'; cases hf'
      exact ⟨_, rfl, rfl, by simp [hout, hacc, hr, hgot, End.fresh]⟩
  | _ h =>
    have hst := (Flow.live_iff h).1 h1
    apply (Flow.live_iff rfl).2
    exact hst

theorem bytes_of_ok {l : List (Item β)} (h : ∀ i ∈ l, i = .ok) :
    (l.map Item.bytes).flatten = [] := by
  rw [List.flatten_eq_nil_iff]
  intro m hm
  obtain ⟨i, hi, rfl⟩ := List.mem_map.1 hm
  rw [h i hi]; rfl

theorem Flow.step_right (hex : EndOK x) (hey : EndOK y) (hS1 : Shake x y) (hS2 : Shake y x)
    (h2 : Flow y x) (hs : Step S H x y x' y') : Flow y' x' := by
  cases hs with
  | @recvDiscon e h hs rest ho need waiting h' unsent =>
    refine ⟨?_, ?_, ?_⟩
    · intro f hf hc hd; cases hf; cases hd
    · intro hu; cases hu
    -- `x` has everything: the disconnect is the last item but for acknowledgements
    · intro f hf hc hd
      cases hf
      have hde : e.disc = false := by
        cases hde : e.disc with
        | false => rfl
        | true => rw [hex.disc_sent e h hde] at hs; cases hs
      have hyb : y.stage ≠ .unborn := fun hu => by
        rw [(hS2.unborn hu).1] at ho; cases ho
      obtain ⟨f, hf, hfd, hacc⟩ := h2.stream e h hc hde hyb
      have hse := (hS2.sent_of_mem h (by rw [ho]; exact List.mem_cons_self)).not_open hf
      have ht := hS2.tail
      rw [ho] at ht
      rw [ho, List.map_cons, List.flatten_cons, bytes_of_ok ht.1, hey.sent_unsent f hf hse hfd] at hacc
      refine ⟨by simpa [Item.bytes] using hacc, ?_⟩
      exact (hey.closed_clo f hf).1 (hey.sent_closed f hf hse hfd)
  | @born h bs rest ho =>
    refine ⟨?_, ?_, ?_⟩
    · intro f hf _ _ _
      cases hf
      rcases hS2.alone h with ⟨-, hn⟩ | ⟨f, hf, hd, -⟩
      · rw [ho] at hn; cases hn
      · refine ⟨f, hf, hd, ?_⟩
        have := h2.alone h f hf
        rw [ho] at this
        simpa [(hS1.unborn h).2.2, Item.bytes, End.fresh] using this
    · intro hu; cases hu
    · intro f hf hc hd; cases hf; cases hd
  | _ =>
    refine ⟨?_, ?_, ?_⟩
    all_goals grind [Flow, Shake, EndOK, Half.Sent, Half.Seen, Item.bytes]

theorem Last.of_cons {i : Item β} {l : List (Item β)} (h : Last (i :: l)) : Last l := by
  have hno : ∀ m : List (Item β), (∀ i ∈ m, i.isData = false) → Last m := by
    intro m
    induction m with
    | nil => intro _; trivial
    | cons j m ih =>
      intro hj
      have hm := ih fun i hi => hj i (List.mem_cons_of_mem _ hi)
      cases j with
      | data bs => exact absurd (hj _ List.mem_cons_self) (by simp [Item.isData])
      | ok => exact hm
      | discon => exact hm
  cases i with
  | data bs =>
    cases bs with
    | nil => exact hno l h
    | cons b bs => exact h
  | ok => exact h
  | discon => exact h

theorem Last.snoc {i : Item β} : ∀ {l : List (Item β)}, Last l →
    (i.isData = true → .data [] ∉ l) → Last (l ++ [i]) := by
  intro l
  induction l with
  | nil =>
    intro _ _
    cases i with
    | data bs => cases bs <;> simp [Last]
    | ok => trivial
    | discon => trivial
  | cons j l ih =>
    intro h hl
    have hrec : Last l → Last (l ++ [i]) := fun h' =>
      ih h' fun hi hm => hl hi (List.mem_cons_of_mem _ hm)
    cases j with
    | ok => exact hrec h
    | discon => exact hrec h
    | data bs =>
      cases bs with
      | cons b bs => exact hrec h
      | nil =>
        intro k hk
        rcases List.mem_append.1 hk with hk | hk
        · exact h k hk
        · rw [List.mem_singleton.1 hk]
          cases hi : i.isData with
          | false => rfl
          | true => exact absurd List.mem_cons_self (hl hi)

theorem Dense.step_left (hex : EndOK x) (hS1 : Shake x y) (hS2 : Shake y x) (h1 : Dense x y)
    (hs : Step S False x y x' y') : Dense x' y' := by
  cases hs with
  | @send e h hs hw bs rest hu hz =>
    have hd : e.disc = false := by
      cases hd : e.disc with
      | false => rfl
      | true => rw [hex.disc_sent e h hd] at hs; cases hs
    have hno : Item.data [] ∉ x.out := fun hm => by
      have := (h1.sent e h hd hm).2
      rw [hu] at this; cases this
    refine ⟨h1.last.snoc fun _ => hno, ?_, ?_⟩ <;> grind [Dense]
  | ack h hn hd hs =>
    refine ⟨h1.last.snoc fun hi => absurd hi (by simp [Item.isData]), ?_, ?_⟩ <;>
      grind [Dense, Item.isData]
  | shut h hc hs hu hused =>
    refine ⟨h1.last.snoc fun hi => absurd hi (by simp [Item.isData]), ?_, ?_⟩ <;>
      grind [Dense, Item.isData]
  | recvDiscon h hs ho need waiting h' unsent =>
    refine ⟨h1.last.snoc fun hi => absurd hi (by simp [Item.isData]), ?_, ?_⟩ <;>
      grind [Dense, Item.isData]
  | born h ho =>
    have hout := (hS1.unborn h).1
    refine ⟨by simp [hout, Last], ?_, ?_⟩
    · intro e _ _ hm; simp [hout] at hm
    · intro e f _ _ hf hh _ _
      rcases hS2.alone h with ⟨hg, -⟩ | ⟨f', hf', -, -, -, hnh, -⟩
      · rw [hf] at hg; cases hg
      · rw [hf] at hf'; cases hf'; rw [hnh] at hh; cases hh
  | _ => refine ⟨h1.last, ?_, ?_⟩ <;> grind [Dense]

theorem Dense.step_right (h2 : Dense y x) (hs : Step S False x y x' y') : Dense y' x' := by
  cases hs with
  | recvData h hd ho =>
    have hl := h2.last
    rw [ho] at hl
    refine ⟨hl.of_cons, ?_, ?_⟩ <;> grind [Dense, Last, Item.isData, List.isEmpty_iff]
  | born h ho =>
    have hl := h2.last
    rw [ho] at hl
    refine ⟨hl.of_cons, ?_, ?_⟩ <;> grind [Dense, Last, Item.isData, End.fresh, List.isEmpty_iff]
  | _ => refine ⟨?_, ?_, ?_⟩ <;> grind [Dense, Last.of_cons, Last]

/-- Whoever is released has been closed, or has seen the other's disconnect. -/
theorem Gone.step_left (h1 : Gone x y) (hex : EndOK x) (hF : Flow y x)
    (hs : Step S H x y x' y') : Gone x' y' := by
  cases hs with
  | _ => grind [Gone, EndOK, Flow]

theorem Gone.step_right (h2 : Gone y x) (hs : Step S H x y x' y') : Gone y' x' := by
  cases hs with
  | _ => grind [Gone]

/-- The invariant of a link. -/
structure Inv (x y : Half β) : Prop where
  endx : EndOK x
  endy : EndOK y
  shake : Shake x y
  shake' : Shake y x
  waits : Waits x y
  waits' : Waits y x
  flow : Flow x y
  flow' : Flow y x
  gone : Gone x y
  gone' : Gone y x

theorem Inv.symm (h : Inv x y) : Inv y x :=
  ⟨h.endy, h.endx, h.shake', h.shake, h.waits', h.waits, h.flow', h.flow, h.gone', h.gone⟩

/-- **A step of either end keeps the invariant.** -/
theorem Inv.step (h : Inv x y) (hs : Step S H x y x' y') : Inv x' y' where
  endx := (h.endx.step h.endy hs).1
  endy := (h.endx.step h.endy hs).2
  shake := h.shake.step_left h.endx h.shake' hs
  shake' := h.shake.step_right h.shake' hs
  waits := h.waits.step_left hs
  waits' := h.waits'.step_right h.shake h.shake' hs
  flow := h.flow.step_left h.endx h.endy h.shake h.shake' hs
  flow' := h.flow'.step_right h.endx h.endy h.shake h.shake' hs
  gone := h.gone.step_left h.endx h.flow' hs
  gone' := h.gone'.step_right hs

/-! ## Several steps of one end -/

/-- Steps of the end `x`, one after the other. -/
inductive Steps (S H : Prop) : Half β → Half β → Half β → Half β → Prop
  | refl (x y : Half β) : Steps S H x y x y
  | head {x y x₁ y₁ x₂ y₂ : Half β} (h : Step S H x y x₁ y₁)
      (t : Steps S H x₁ y₁ x₂ y₂) : Steps S H x y x₂ y₂

theorem Steps.single (h : Step S H x y x' y') : Steps S H x y x' y' :=
  .head h (.refl _ _)

theorem Steps.trans {x'' y'' : Half β} (h : Steps S H x y x' y')
    (h' : Steps S H x' y' x'' y'') : Steps S H x y x'' y'' := by
  induction h with
  | refl x y => exact h'
  | head hs _ ih => exact .head hs (ih h')

/-- Closing: the disconnect goes out when nothing is unsent (`b`), and what is owed is
acknowledged. -/
theorem Steps.close (e : End β) (out : List (Item β)) (acc got : List β) (clo strict b : Bool)
    (y : Half β) (hc : e.closed = false) (hd : e.disc = false) (hs : e.sent = false)
    (hb : b = true → e.unsent = [] ∧ e.used = true)
    (hst : strict = true → e.need = true → b = false) :
    Steps S H ⟨.live e, out, acc, got, clo, strict⟩ y
      ⟨.live { e with closed := true, unread := [], hollow := false, sent := b, need := false },
        out ++ ((if b then [.discon] else []) ++ if e.need then [.ok] else []), acc, got, true,
        strict⟩ y := by
  have h₁ := Steps.single (Step.close (S := S) (H := H)
    (x := ⟨.live e, out, acc, got, clo, strict⟩) (y := y) rfl hc hd)
  have h₂ : Steps S H
      ⟨.live { e with closed := true, unread := [] }, out, acc, got, true, strict⟩ y
      ⟨.live { e with closed := true, unread := [], sent := b },
        out ++ (if b then [.discon] else []), acc, got, true, strict⟩ y := by
    cases b with
    | false => simpa [hs] using Steps.refl _ _
    | true => exact Steps.single (Step.shut (e := { e with closed := true, unread := [] })
        rfl rfl hs (hb rfl).1 (hb rfl).2)
  have h₃ : ∀ out, Steps S H
      ⟨.live { e with closed := true, unread := [], sent := b }, out, acc, got, true, strict⟩ y
      ⟨.live { e with closed := true, unread := [], sent := b, need := false },
        out ++ (if e.need then [.ok] else []), acc, got, true, strict⟩ y := by
    intro out
    cases hn : e.need with
    | false => simpa using Steps.refl _ _
    | true =>
      exact Steps.single (Step.ack
        (e := { e with closed := true, unread := [], sent := b, need := true })
        rfl rfl hd fun h => hst h hn)
  have h₄ : ∀ out, Steps S H
      ⟨.live { e with closed := true, unread := [], sent := b, need := false }, out, acc, got, true,
        strict⟩ y
      ⟨.live { e with closed := true, unread := [], hollow := false, sent := b, need := false },
        out, acc, got, true, strict⟩ y := by
    intro out
    have hnil : ([] : List β) = [] ++ [] := rfl
    simpa using Steps.single (Step.read (S := S) (H := H)
      (x := ⟨.live { e with closed := true, unread := [], sent := b, need := false }, out, acc, got,
        true, strict⟩) (y := y) rfl hnil false (by simp))
  rw [← List.append_assoc]
  exact ((h₁.trans h₂).trans (h₃ _)).trans (h₄ _)

theorem Inv.steps (h : Inv x y) (hs : Steps S H x y x' y') : Inv x' y' := by
  induction hs with
  | refl x y => exact h
  | head hs _ ih => exact ih (h.step hs)

/-- Both directions, in a link that no stray acknowledgement reaches. -/
theorem Exact.steps (h : Inv x y) (h1 : Exact x y ∧ Exact y x)
    (hs : Steps False H x y x' y') : Exact x' y' ∧ Exact y' x' := by
  induction hs with
  | refl x y => exact h1
  | head hs _ ih =>
    exact ih (h.step hs) ⟨h1.1.step_left h.shake h.shake' hs, h1.2.step_right h.shake' hs⟩

/-- Both directions, in a link whose ends send no empty packet before they are closed. -/
theorem Dense.steps (h : Inv x y) (h1 : Dense x y ∧ Dense y x)
    (hs : Steps S False x y x' y') : Dense x' y' ∧ Dense y' x' := by
  induction hs with
  | refl x y => exact h1
  | head hs _ ih =>
    exact ih (h.step hs) ⟨h1.1.step_left h.endx h.shake h.shake' hs, h1.2.step_right hs⟩

/-- The invariant with what holds when no stray acknowledgement reaches the link, and
when its ends send no empty packet before they are closed. -/
structure Sound (S H : Prop) (x y : Half β) : Prop where
  inv : Inv x y
  exact : ¬ S → Exact x y ∧ Exact y x
  dense : ¬ H → Dense x y ∧ Dense y x

theorem Sound.symm (h : Sound S H x y) : Sound S H y x :=
  ⟨h.inv.symm, fun hs => (h.exact hs).symm, fun hh => (h.dense hh).symm⟩

theorem Sound.steps (h : Sound S H x y) (hs : Steps S H x y x' y') :
    Sound S H x' y' where
  inv := h.inv.steps hs
  exact := fun hn => by
    obtain rfl : S = False := eq_false hn
    exact Exact.steps h.inv (h.exact hn) hs
  dense := fun hn => by
    obtain rfl : H = False := eq_false hn
    exact Dense.steps h.inv (h.dense hn) hs

/-! ## The start of a link -/

/-- The end that opens the link. -/
def Half.opened (strict : Bool) : Half β where
  stage := .live ⟨false, false, false, false, false, false, [], false, []⟩
  out := []
  acc := []
  got := []
  clo := false
  strict := strict

/-- The end that does not exist yet. -/
def Half.unborn (strict : Bool) : Half β := ⟨.unborn, [], [], [], false, strict⟩

theorem Inv.start (s₁ s₂ : Bool) :
    Inv (Half.opened s₁ : Half β) (Half.unborn s₂) := by
  have hs : Tail s₁ ([] : List (Item β)) := trivial
  have hs' : Tail s₂ ([] : List (Item β)) := trivial
  refine ⟨⟨?_, ?_, ?_, ?_, ?_⟩, ⟨?_, ?_, ?_, ?_, ?_⟩, ⟨?_, ?_, hs, ?_, ?_, ?_⟩,
    ⟨?_, ?_, hs', ?_, ?_, ?_⟩, ?_, ?_, ⟨?_, ?_, ?_⟩, ⟨?_, ?_, ?_⟩, ?_, ?_⟩
  all_goals grind [Half.opened, Half.unborn, Half.Sent, Half.Seen, Waits, Gone, tokens]

theorem Exact.start (s₁ s₂ : Bool) :
    Exact (Half.opened s₁ : Half β) (Half.unborn s₂) ∧
      Exact (Half.unborn s₂ : Half β) (Half.opened s₁) := by
  constructor <;> intro e he _ <;> simp_all [Half.opened, Half.unborn, tokens, Half.owes]

theorem Dense.start (s₁ s₂ : Bool) :
    Dense (Half.opened s₁ : Half β) (Half.unborn s₂) ∧
      Dense (Half.unborn s₂ : Half β) (Half.opened s₁) := by
  refine ⟨⟨trivial, ?_, ?_⟩, ⟨trivial, ?_, ?_⟩⟩ <;> grind [Half.opened, Half.unborn]

theorem Sound.start (s₁ s₂ : Bool) :
    Sound S H (Half.opened s₁ : Half β) (Half.unborn s₂) :=
  ⟨Inv.start s₁ s₂, fun _ => Exact.start s₁ s₂, fun _ => Dense.start s₁ s₂⟩

end Link
