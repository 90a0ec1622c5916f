import Mathlib.Data.Finset.Prod
import Zimr.Proof.FdHash
import Zimr.Spec.Select

/-!
# One pass serves every entry once

The three loops are walks (`Walk.Ordered`), so `Walk.walk_serves` says what a pass does whose
callbacks leave alone what waits. A callback that takes its own entry off the list, as
`zs_internal_read` does, does not: `pass_skips`.
-/

namespace Zimr

open Walk Chain

variable {W : Type} {hash : FdHash} {l : List ℕ}

/-! ## The entries of a list -/

/-- A list within the table. -/
def FdHash.OK (hash : FdHash) : Prop := ∃ l, hash.Lists l ∧ ∀ fd ∈ l, fd < fdSetSize

theorem FdHash.OK.op (h : hash.OK) (o : HashOp) : (hash.op o).OK := by
  obtain ⟨l, hl, hb⟩ := h
  cases o with
  | add fd =>
    refine ⟨_, fdHashAdd_lists hl fd, fun x hx => ?_⟩
    split at hx
    · exact hb x hx
    · rcases List.mem_append.1 hx with hx | hx
      · exact hb x hx
      · rw [List.mem_singleton.1 hx]
        exact fd.isLt
  | remove fd => exact ⟨_, fdHashRemove_lists hl fd, fun x hx => hb x (List.mem_of_mem_erase hx)⟩

theorem FdHash.OK.ops (h : hash.OK) (ops : List HashOp) : (hash.ops ops).OK := by
  unfold FdHash.ops
  induction ops generalizing hash with
  | nil => exact h
  | cons o ops ih => exact ih (h.op o)

theorem FdHash.OK.init : fdHashInit.OK := ⟨[], fdHashInit_lists, by simp⟩

theorem FdHash.Reached.ok (h : hash.Reached) : hash.OK := by
  obtain ⟨ops, rfl⟩ := h
  exact FdHash.OK.init.ops ops

theorem FdHash.Lists.entriesFrom (h : hash.Lists l) : ∀ (n : ℕ) (p s : List ℕ), l = p ++ s →
    s.length ≤ n → hash.entriesFrom n s.head? = s := by
  intro n
  induction n with
  | zero =>
    intro p s _ hs
    rw [List.eq_nil_of_length_eq_zero (Nat.le_zero.1 hs)]
    rfl
  | succ n ih =>
    intro p s hl hs
    cases s with
    | nil => rfl
    | cons a s =>
      have hnd := h.nodup
      rw [hl] at hnd
      have ha : a ∉ p := by
        intro ha
        have := List.nodup_middle.1 hnd
        rw [List.nodup_cons] at this
        exact this.1 (List.mem_append_left _ ha)
      have hnext : fdHashNext hash a = s.head? := by
        rw [h.next_eq, hl, nextIn_append_cons ha]
      show a :: hash.entriesFrom n (fdHashNext hash a) = a :: s
      rw [hnext, ih (p ++ [a]) s (by rw [hl]; simp) (by simpa using hs)]

/-- **The entries are the list.** -/
theorem FdHash.Lists.entries_eq (h : hash.Lists l) (hb : ∀ fd ∈ l, fd < fdSetSize) :
    hash.entries = l := by
  have hlen : l.length ≤ fdSetSize := by
    have hsub : l.toFinset ⊆ Finset.range fdSetSize := fun x hx =>
      Finset.mem_range.2 (hb x (List.mem_toFinset.1 hx))
    have := Finset.card_le_card hsub
    rwa [List.toFinset_card_of_nodup h.nodup, Finset.card_range] at this
  unfold FdHash.entries
  rw [h.head_eq]
  exact h.entriesFrom fdSetSize [] l rfl hlen

theorem FdHash.OK.entries (h : hash.OK) : hash.Lists hash.entries ∧ ∀ fd ∈ hash.entries, fd < fdSetSize := by
  obtain ⟨l, hl, hb⟩ := h
  rw [hl.entries_eq hb]
  exact ⟨hl, hb⟩

theorem FdHash.OK.mem_iff (h : hash.OK) (fd : ℕ) : fd ∈ hash.entries ↔ hash.linked fd = true :=
  (h.entries.1.linked_iff fd).symm

theorem FdHash.OK.mem_add (h : hash.OK) {fd : ℕ} (hfd : fd ∈ hash.entries) (fd' : Fin fdSetSize) :
    fd ∈ (fdHashAdd hash fd').entries := by
  have hl := fdHashAdd_lists h.entries.1 fd'
  refine ((h.op (.add fd')).mem_iff fd).2 ((hl.linked_iff fd).2 ?_)
  split
  · exact hfd
  · exact List.mem_append_left _ hfd

theorem FdHash.OK.mem_remove (h : hash.OK) {fd : ℕ} (hfd : fd ∈ hash.entries) {fd' : Fin fdSetSize}
    (hne : fd ≠ fd') : fd ∈ (fdHashRemove hash fd').entries := by
  have hl := fdHashRemove_lists h.entries.1 fd'
  refine ((h.op (.remove fd')).mem_iff fd).2 ((hl.linked_iff fd).2 ?_)
  exact (List.mem_erase_of_ne hne).2 hfd

theorem FdHash.OK.head (h : hash.OK) : fdHashHead hash = hash.entries.head? := h.entries.1.head_eq

theorem FdHash.OK.next (h : hash.OK) (fd : ℕ) : fdHashNext hash fd = (after hash.entries fd).head? := by
  rw [h.entries.1.next_eq, nextIn_eq]

/-- The first entry, and those after it. -/
theorem FdHash.OK.cons_after (h : hash.OK) {fd : ℕ} (hfd : fdHashHead hash = some fd) :
    hash.entries = fd :: after hash.entries fd := by
  rw [h.head] at hfd
  cases he : hash.entries with
  | nil => rw [he] at hfd; cases hfd
  | cons x l =>
    rw [he] at hfd
    obtain rfl := Option.some.inj hfd
    simp [after]

/-! ## `zfd_select` -/

theorem zfdCall_ok {handler : ZfdCallback W} {s s' : W × Zfd} {i : ℕ} {hd : Option ZfdHdlr}
    (h : s.2.activeHash.OK) (hc : zfdCall handler s i hd = .ok s') : s'.2.activeHash.OK := by
  unfold zfdCall at hc
  split at hc
  · cases hc
  · cases hc
    exact h.ops _

theorem zfd_ordered (handler : ZfdCallback W) (readFdSet : ℕ → Bool) :
    Ordered (zfdVisit handler readFdSet) (fun s => s.2.activeHash.entries)
      (fun s => after s.2.activeHash.entries) (fun _ _ => True) (fun s => s.2.activeHash.OK)
      (Finset.range fdSetSize) where
  mem _ _ _ _ _ hb := mem_of_mem_after hb
  self _ a h := notMem_after h.entries.1.nodup a
  cons _ _ _ _ h hl := after_cons h.entries.1.nodup hl
  size _ a h ha := Finset.mem_range.2 (h.entries.2 a ha)
  next s a s' checks next h _ _ hv := by
    unfold zfdVisit at hv
    obtain ⟨⟨s₁, ts⟩, hr, he⟩ := Run.map_inv hv
    cases he
    have h₁ : s₁.2.activeHash.OK :=
      serve_inv (J := fun s : W × Zfd => s.2.activeHash.OK) (fun _ _ _ hJ hc => zfdCall_ok hJ hc)
        _ _ _ _ h hr
    exact ⟨h₁, h₁.next a, fun b hb => mem_of_mem_after hb⟩

theorem zfd_tests (handler : ZfdCallback W) (readFdSet : ℕ → Bool) (fd : ℕ) :
    Tests (zfdVisit handler readFdSet) (fun _ _ => True) (zfdDue readFdSet) fd := by
  refine Tests.of_serve (fun s d => .ok (zfdTest readFdSet fd s d)) (by decide : [IoType.r, .w].Nodup)
    (by rintro (_ | _) <;> decide) ?_ ?_
  · intro s s' checks next _ hv
    obtain ⟨⟨s₁, ts⟩, hr, he⟩ := Run.map_inv hv
    cases he
    exact ⟨_, s, s₁, hr⟩
  · intro s d b hdue ht
    obtain rfl := Except.ok.inj ht
    cases d with
    | r => simp only [zfdTest, hdue.1, hdue.2, Bool.and_self]
    | w => exact hdue

/-! ## `zs_select` -/

theorem zsCall_ok {handler : ZsCallback W} {s : ZsSel W} {fd : ℕ} {hdlr : EventHdlr} {evt : ZsEvt}
    (h : s.zs.activeHash.OK) : (zsCall handler s fd hdlr evt).zs.activeHash.OK := by
  unfold zsCall
  exact h.ops _

theorem zsServe_ok {handler : ZsCallback W} {readFdSet writeFdSet : ℕ → Bool} {fd : ℕ}
    {s : ZsSel W} {res : ZsSel W × List (Check (ZsSel W) IoType)} (h : s.zs.activeHash.OK)
    (hs : zsServe handler readFdSet writeFdSet fd s = .ok res) : res.1.zs.activeHash.OK := by
  refine serve_inv (J := fun s : ZsSel W => s.zs.activeHash.OK) ?_ _ _ _ _ h hs
  intro s d s' hJ hc
  obtain ⟨zs, -, hc⟩ := Run.bind_inv hc
  cases d with
  | r =>
    cases hc
    exact zsCall_ok hJ
  | w =>
    simp only at hc
    split at hc
    · cases hc
      exact zsCall_ok hJ
    · cases hc

theorem zs_ordered (handler : ZsCallback W) (readFdSet writeFdSet : ℕ → Bool) :
    Ordered (zsVisit handler readFdSet writeFdSet) (fun s => s.zs.activeHash.entries)
      (fun s => after s.zs.activeHash.entries) (fun s fd => (s.zs.zsockets fd).isSome)
      (fun s => s.zs.activeHash.OK) (Finset.range fdSetSize) where
  mem _ _ _ _ _ hb := mem_of_mem_after hb
  self _ a h := notMem_after h.entries.1.nodup a
  cons _ _ _ _ h hl := after_cons h.entries.1.nodup hl
  size _ a h ha := Finset.mem_range.2 (h.entries.2 a ha)
  next s a s' checks next h _ hf hv := by
    unfold zsVisit at hv
    rw [if_neg (by rw [Option.isNone_iff_eq_none]; exact Option.isSome_iff_ne_none.1 hf)] at hv
    obtain ⟨⟨s₁, ts⟩, hr, he⟩ := Run.map_inv hv
    cases he
    have h₁ := zsServe_ok (s := { s with stale := false }) h hr
    exact ⟨h₁, h₁.next a, fun b hb => mem_of_mem_after hb⟩

theorem ZsSel.get_of {s : ZsSel W} {fd : ℕ} {zs : Zsocket} {f : Zsocket → Bool} {b : Bool}
    (h : s.zs.zsockets fd = some zs) (hg : (s.get fd).map f = .ok b) : f zs = b := by
  unfold ZsSel.get Zs.get at hg
  split at hg
  · cases hg
  · rw [h] at hg
    exact Except.ok.inj hg

theorem zs_tests (handler : ZsCallback W) (zs₀ : Zs) (fd : ℕ) :
    Tests (zsVisit handler zs₀.activeRead zs₀.activeWrite) (fun s fd => (s.zs.zsockets fd).isSome)
      (zsDue zs₀) fd := by
  refine Tests.of_serve (zsTest zs₀.activeRead zs₀.activeWrite fd)
    (by decide : [IoType.r, .w].Nodup) (by rintro (_ | _) <;> decide) ?_ ?_
  · intro s s' checks next hf hv
    unfold zsVisit at hv
    rw [if_neg (by rw [Option.isNone_iff_eq_none]; exact Option.isSome_iff_ne_none.1 hf)] at hv
    obtain ⟨⟨s₁, ts⟩, hr, he⟩ := Run.map_inv hv
    cases he
    exact ⟨_, { s with stale := false }, s₁, hr⟩
  · intro s d b hdue ht
    cases d with
    | r =>
      obtain ⟨h₀, h₁, zs, hzs, hst⟩ := hdue
      simp only [zsTest, h₀, h₁, Bool.and_self, if_true] at ht
      rw [← ZsSel.get_of hzs ht]
      exact hst
    | w =>
      obtain ⟨h₀, h₁, zs, hzs, hst⟩ := hdue
      simp only [zsTest, h₀, h₁, Bool.and_self, if_true] at ht
      rw [← ZsSel.get_of hzs ht]
      exact hst

/-! ## `msg_switch_select` -/

theorem head_rounds (s : MsgSel W) (l : List ℕ) :
    (l.flatMap s.roundsOf).head? = l.head?.map MsgPos.turn := by
  cases l with
  | nil => rfl
  | cons fd l => rfl

theorem mem_rounds {s : MsgSel W} {l : List ℕ} : ∀ {a : MsgPos}, a ∈ l.flatMap s.roundsOf ↔
    match a with
    | .turn fd => fd ∈ l
    | .msg fd msgid => fd ∈ l ∧ msgid ∈ s.msgsOf fd := by
  rintro (fd | ⟨fd, msgid⟩)
  · simp [MsgSel.roundsOf]
  · simp only [List.mem_flatMap, MsgSel.roundsOf, List.mem_cons, List.mem_map]
    constructor
    · rintro ⟨fd', hfd, h | ⟨m, hm, h⟩⟩
      · cases h
      · cases h
        exact ⟨hfd, hm⟩
    · rintro ⟨hfd, hm⟩
      exact ⟨fd, hfd, .inr ⟨msgid, hm, rfl⟩⟩

/-- The lists of the switches. -/
structure MsgSel.ListsOK (s : MsgSel W) : Prop where
  active : s.active.OK
  msgs : ∀ fd sw, s.sw fd = some sw → sw.activeHash.OK

theorem MsgSel.ListsOK.msgsOf {s : MsgSel W} (h : s.ListsOK) (fd : ℕ) :
    (s.msgsOf fd).Nodup ∧ ∀ m ∈ s.msgsOf fd, m < fdSetSize := by
  unfold MsgSel.msgsOf
  cases hsw : s.sw fd with
  | none => simp
  | some sw =>
    have := (h.msgs fd sw hsw).entries
    exact ⟨this.1.nodup, this.2⟩

/-- What `msg_switch.c` does to its lists keeps them lists, and leaves on the first one a switch
that is not freed. -/
structure SwitchLists.OK (l : SwitchLists) (fd : ℕ) : Prop where
  active : l.active.OK
  hashes : ∀ fd, (l.hashes fd).OK
  keeps : l.freed fd = false → fd ∈ l.active.entries

theorem SwitchLists.OK.op {l : SwitchLists} {fd : ℕ} (h : l.OK fd) (o : SwitchOp) : (l.op o).OK fd := by
  cases o with
  | create fd' =>
    refine ⟨h.active.op (.add fd'), fun i => ?_, fun hf => h.active.mem_add (h.keeps hf) fd'⟩
    unfold SwitchLists.op
    by_cases hi : i = fd'
    · subst hi
      simpa using FdHash.OK.init
    · simpa [Function.update_of_ne hi] using h.hashes i
  | destroy fd' =>
    refine ⟨h.active.op (.remove fd'), h.hashes, fun hf => ?_⟩
    by_cases hi : fd = fd'
    · -- it is freed
      subst hi
      simp [SwitchLists.op] at hf
    · refine h.active.mem_remove (h.keeps ?_) hi
      simpa [SwitchLists.op, Function.update_of_ne hi] using hf
  | hash fd' o =>
    refine ⟨h.active, fun i => ?_, h.keeps⟩
    unfold SwitchLists.op
    by_cases hi : i = fd'
    · subst hi
      simpa using (h.hashes i).op o
    · simpa [Function.update_of_ne hi] using h.hashes i

theorem SwitchLists.OK.ops {fd : ℕ} (ops : List SwitchOp) {l : SwitchLists} (h : l.OK fd) :
    (ops.foldl SwitchLists.op l).OK fd := by
  induction ops generalizing l with
  | nil => exact h
  | cons o ops ih => exact ih (h.op o)

/-- The lists of a state in which the switch is on the first one. -/
theorem MsgSel.ListsOK.lists {s : MsgSel W} (h : s.ListsOK) {fd : ℕ} (hfd : fd ∈ s.active.entries) :
    s.lists.OK fd := by
  refine ⟨h.active, fun i => ?_, fun _ => hfd⟩
  show FdHash.OK (((s.sw i).map MsgSwitch.activeHash).getD fdHashInit)
  cases hsw : s.sw i with
  | none => exact FdHash.OK.init
  | some sw => exact h.msgs i sw hsw

/-- **A callback**: the switch it was called for is still there. -/
theorem msgCall_ok {handler : MsgCallback W} {s s' : MsgSel W} {fd msgid : ℕ} {evt : MsgEvt}
    (h : s.ListsOK ∧ fd ∈ s.active.entries) (hc : msgCall handler fd msgid s evt = .ok s') :
    s'.ListsOK ∧ fd ∈ s'.active.entries := by
  unfold msgCall at hc
  have hops := SwitchLists.OK.ops (handler fd msgid evt s).2.2.2 (h.1.lists h.2)
  simp only at hc
  split at hc
  · cases hc
  rename_i hf
  cases hc
  refine ⟨⟨hops.active, fun i sw hsw => ?_⟩, hops.keeps (by simpa using hf)⟩
  obtain ⟨sw₁, -, rfl⟩ := Option.map_eq_some_iff.1 hsw
  exact hops.hashes i

/-- The rounds there can be. -/
@[irreducible] def roundsSet (n : ℕ) : Finset MsgPos :=
  (Finset.range n).image MsgPos.turn ∪
    (Finset.range n ×ˢ Finset.range n).image fun p => MsgPos.msg p.1 p.2

variable {s : MsgSel W} {a b : MsgPos}

theorem turn_mem {n fd : ℕ} (h : fd < n) : MsgPos.turn fd ∈ roundsSet n := by
  unfold roundsSet
  exact Finset.mem_union_left _ (Finset.mem_image.2 ⟨fd, Finset.mem_range.2 h, rfl⟩)

theorem msg_mem {n fd msgid : ℕ} (h : fd < n) (hm : msgid < n) : MsgPos.msg fd msgid ∈ roundsSet n := by
  unfold roundsSet
  exact Finset.mem_union_right _ (Finset.mem_image.2
    ⟨(fd, msgid), Finset.mem_product.2 ⟨Finset.mem_range.2 h, Finset.mem_range.2 hm⟩, rfl⟩)

theorem MsgSel.ListsOK.mem_roundsSet (h : s.ListsOK) (ha : a ∈ s.rounds) : a ∈ roundsSet fdSetSize := by
  have ha := mem_rounds.1 ha
  cases a with
  | turn fd => exact turn_mem (h.active.entries.2 fd ha)
  | msg fd msgid => exact msg_mem (h.active.entries.2 fd ha.1) ((h.msgsOf fd).2 msgid ha.2)

theorem ahead_turn (s : MsgSel W) (fd : ℕ) : s.ahead (.turn fd) =
    (s.msgsOf fd).map (.msg fd) ++ (after s.active.entries fd).flatMap s.roundsOf := rfl

theorem ahead_msg (s : MsgSel W) (fd msgid : ℕ) : s.ahead (.msg fd msgid) =
    (after (s.msgsOf fd) msgid).map (.msg fd) ++ (after s.active.entries fd).flatMap s.roundsOf := rfl

/-- The switch of a round. -/
def MsgPos.fd : MsgPos → ℕ
  | .turn fd => fd
  | .msg fd _ => fd

theorem fd_mem (ha : a ∈ s.rounds) : a.fd ∈ s.active.entries := by
  have ha := mem_rounds.1 ha
  cases a with
  | turn fd => exact ha
  | msg fd msgid => exact ha.1

theorem mem_of_mem_ahead (ha : a.fd ∈ s.active.entries) (hb : b ∈ s.ahead a) : b ∈ s.rounds := by
  -- a round of the same switch, or of one behind it
  have hrest : ∀ fd, b ∈ (after s.active.entries fd).flatMap s.roundsOf → b ∈ s.rounds := by
    intro fd hb
    obtain ⟨fd', hfd, hb⟩ := List.mem_flatMap.1 hb
    exact List.mem_flatMap.2 ⟨fd', mem_of_mem_after hfd, hb⟩
  cases a with
  | turn fd =>
    rcases List.mem_append.1 hb with hb | hb
    · obtain ⟨m, hm, rfl⟩ := List.mem_map.1 hb
      exact mem_rounds.2 ⟨ha, hm⟩
    · exact hrest fd hb
  | msg fd msgid =>
    rcases List.mem_append.1 hb with hb | hb
    · obtain ⟨m, hm, rfl⟩ := List.mem_map.1 hb
      exact mem_rounds.2 ⟨ha, mem_of_mem_after hm⟩
    · exact hrest fd hb

theorem MsgSel.ListsOK.notMem_ahead (h : s.ListsOK) (a : MsgPos) : a ∉ s.ahead a := by
  cases a with
  | turn fd =>
    intro ha
    rcases List.mem_append.1 ha with ha | ha
    · obtain ⟨m, -, hm⟩ := List.mem_map.1 ha
      cases hm
    · exact notMem_after h.active.entries.1.nodup fd (mem_rounds.1 ha)
  | msg fd msgid =>
    intro ha
    rcases List.mem_append.1 ha with ha | ha
    · obtain ⟨m, hm, he⟩ := List.mem_map.1 ha
      cases he
      exact notMem_after (h.msgsOf fd).1 msgid hm
    · exact notMem_after h.active.entries.1.nodup fd (mem_rounds.1 ha).1

/-- The rounds after the first one of the switches behind. -/
theorem MsgSel.ListsOK.behind (h : s.ListsOK) {fd : ℕ} {l : List MsgPos}
    (hl : (after s.active.entries fd).flatMap s.roundsOf = b :: l) : s.ahead b = l := by
  cases he : after s.active.entries fd with
  | nil =>
    rw [he] at hl
    cases hl
  | cons fd' rest =>
    rw [he] at hl
    cases hl
    rw [ahead_turn, after_cons h.active.entries.1.nodup he]
    rfl

theorem MsgSel.ListsOK.ahead_cons (h : s.ListsOK) {l : List MsgPos} (hl : s.ahead a = b :: l) :
    s.ahead b = l := by
  cases a with
  | turn fd =>
    rw [ahead_turn] at hl
    cases hm : s.msgsOf fd with
    | nil =>
      rw [hm] at hl
      exact h.behind hl
    | cons m ms =>
      rw [hm] at hl
      cases hl
      rw [ahead_msg, hm, after_self]
      rfl
  | msg fd msgid =>
    rw [ahead_msg] at hl
    cases hm : after (s.msgsOf fd) msgid with
    | nil =>
      rw [hm] at hl
      exact h.behind hl
    | cons m ms =>
      rw [hm] at hl
      cases hl
      rw [ahead_msg, after_cons (h.msgsOf fd).1 hm]
      rfl

/-- Where the loops go on is the first round ahead. -/
theorem MsgSel.ListsOK.goOn_eq (h : s.ListsOK) (fd : ℕ) (l : List ℕ) :
    s.goOn fd l.head? = (l.map (MsgPos.msg fd) ++ (after s.active.entries fd).flatMap s.roundsOf).head? := by
  cases l with
  | cons m l => rfl
  | nil =>
    rw [List.map_nil, List.nil_append, head_rounds, ← h.active.next]
    rfl

/-- **One round.** -/
theorem msg_next {handler : MsgCallback W} {s' : MsgSel W} {checks : List (Check (MsgSel W) MsgEvt)}
    {next : Option MsgPos} (h : s.ListsOK) (ha : a ∈ s.rounds) (hf : s.fine a)
    (hv : msgVisit handler s a = .ok (s', checks, next)) :
    s'.ListsOK ∧ a.fd ∈ s'.active.entries ∧ next = (s'.ahead a).head? := by
  have ha := fd_mem ha
  cases a with
  | turn fd =>
    -- the sets are copied, and the lists are as they were
    obtain ⟨ho, hsw⟩ := hf
    obtain ⟨sw, hsw⟩ := Option.isSome_iff_exists.1 hsw
    simp only [msgVisit, ho, hsw, if_true, Except.ok.injEq, Prod.mk.injEq] at hv
    obtain ⟨rfl, -, rfl⟩ := hv
    refine ⟨⟨h.active, h.msgs⟩, ha, ?_⟩
    have hm : s.msgsOf fd = sw.activeHash.entries := by unfold MsgSel.msgsOf; rw [hsw]; rfl
    rw [(h.msgs fd sw hsw).head, ← hm]
    exact h.goOn_eq fd (s.msgsOf fd)
  | msg fd msgid =>
    obtain ⟨sw, -, hv⟩ := Run.bind_inv hv
    obtain ⟨⟨s₁, ts⟩, hr, hv⟩ := Run.bind_inv hv
    obtain ⟨sw₁, hsw, hv⟩ := Run.map_inv hv
    cases hv
    have h₁ : s₁.ListsOK ∧ fd ∈ s₁.active.entries :=
      serve_inv (J := fun s : MsgSel W => s.ListsOK ∧ fd ∈ s.active.entries)
        (fun _ _ _ hJ hc => msgCall_ok hJ hc) _ { s with msg := (msgGet sw msgid).map Msg.addr } _ _
        ⟨⟨h.active, h.msgs⟩, ha⟩ hr
    refine ⟨h₁.1, h₁.2, ?_⟩
    have hsw : s₁.sw fd = some sw₁ := by
      unfold MsgSel.switch at hsw
      split at hsw
      · rename_i sw' hs
        rw [hs, Except.ok.inj hsw]
      · cases hsw
    have hm : s₁.msgsOf fd = sw₁.activeHash.entries := by unfold MsgSel.msgsOf; rw [hsw]; rfl
    rw [ahead_msg, hm, (h₁.1.msgs fd sw₁ hsw).next]
    exact h₁.1.goOn_eq fd _

theorem msg_ordered (handler : MsgCallback W) :
    Ordered (msgVisit handler) MsgSel.rounds MsgSel.ahead MsgSel.fine MsgSel.ListsOK
      (roundsSet fdSetSize) where
  mem _ _ _ ha _ hb := mem_of_mem_ahead (fd_mem ha) hb
  self _ a h := h.notMem_ahead a
  cons _ _ _ _ h hl := h.ahead_cons hl
  size _ _ h ha := h.mem_roundsSet ha
  next s a s' checks next h ha hf hv := by
    obtain ⟨h', ha', hn⟩ := msg_next h ha hf hv
    exact ⟨h', hn, fun b hb => mem_of_mem_ahead ha' hb⟩

theorem msg_tests (handler : MsgCallback W) (fd msgid : ℕ) :
    Tests (msgVisit handler) MsgSel.fine msgDue (.msg fd msgid) := by
  refine Tests.of_serve (msgTest fd msgid)
    (by decide : [MsgEvt.acceptReady, .readReady, .writeReady].Nodup)
    (by rintro (_ | _ | _) <;> decide) ?_ ?_
  · intro s s' checks next _ hv
    obtain ⟨sw, -, hv⟩ := Run.bind_inv hv
    obtain ⟨⟨s₁, ts⟩, hr, hv⟩ := Run.bind_inv hv
    obtain ⟨sw₁, -, hv⟩ := Run.map_inv hv
    cases hv
    exact ⟨_, { s with msg := (msgGet sw msgid).map Msg.addr }, s₁, hr⟩
  · rintro s d b ⟨sw, hsw, hdue⟩ ht
    have hswitch : s.switch fd = .ok sw := by unfold MsgSel.switch; rw [hsw]
    have hstatus : ∀ msg, sw.msgs msgid = some msg → s.msg = some msg.addr →
        s.status fd msgid = .ok (some msg.status) := by
      intro msg hm ha
      unfold MsgSel.status
      simp only [ha, hswitch, Except.bind, hm, if_true]
    have hnull : s.msg = none → s.status fd msgid = .ok none := by
      intro hn
      unfold MsgSel.status
      simp only [hn]
    cases d with
    | acceptReady =>
      obtain ⟨msg, hm, ha, hc⟩ := hdue
      simp only [msgTest, hstatus msg hm ha, Except.map, Option.any, hc, Bool.not_false] at ht
      exact (Except.ok.inj ht).symm
    | readReady =>
      obtain ⟨h₀, h₁, hn | ⟨msg, hm, ha, hc⟩⟩ := hdue
      · simp only [msgTest, hswitch, Except.bind, h₀, h₁, Bool.and_self, if_true, hnull hn,
          Except.map, Option.all] at ht
        exact (Except.ok.inj ht).symm
      · simp only [msgTest, hswitch, Except.bind, h₀, h₁, Bool.and_self, if_true,
          hstatus msg hm ha, Except.map, Option.all, hc] at ht
        exact (Except.ok.inj ht).symm
    | writeReady =>
      obtain ⟨h₀, h₁, hn | ⟨msg, hm, ha, hc⟩⟩ := hdue
      · simp only [msgTest, hswitch, Except.bind, h₀, h₁, Bool.and_self, if_true, hnull hn,
          Except.map, Option.all] at ht
        exact (Except.ok.inj ht).symm
      · simp only [msgTest, hswitch, Except.bind, h₀, h₁, Bool.and_self, if_true,
          hstatus msg hm ha, Except.map, Option.all, hc] at ht
        exact (Except.ok.inj ht).symm

/-! ## The three passes -/

/-- What a loop starts with. -/
theorem FdHash.OK.starts (h : hash.OK) {b : ℕ} (hb : b ∈ hash.entries) :
    ∃ a, fdHashHead hash = some a ∧ b ∈ a :: after hash.entries a := by
  cases hh : fdHashHead hash with
  | none =>
    rw [h.head, List.head?_eq_none_iff] at hh
    rw [hh] at hb
    cases hb
  | some a => exact ⟨a, rfl, by rw [← h.cons_after hh]; exact hb⟩

theorem FdHash.OK.head_mem (h : hash.OK) (a : ℕ) (ha : fdHashHead hash = some a) :
    a ∈ hash.entries := by
  rw [h.cons_after ha]
  exact List.mem_cons_self

theorem zfd_serves (handler : ZfdCallback W) (readFdSet : ℕ → Bool) (s : W × Zfd)
    (h : s.2.activeHash.Reached) (hst : ∀ n, zfdSteady (zfdSelect handler readFdSet n s).1) :
    Serves (fun n => zfdSelect handler readFdSet n s) (fun s => s.2.activeHash.entries)
      s.2.activeHash.entries (zfdDue readFdSet) :=
  walk_serves (zfd_ordered handler readFdSet) h.ok h.ok.head_mem (fun _ hb => h.ok.starts hb)
    (fun fd _ => zfd_tests handler readFdSet fd) hst

theorem zs_serves (handler : ZsCallback W) (w : W) (zs : Zs) (h : zs.activeHash.Reached)
    (hst : ∀ n, zsSteady (zsSelect handler n w zs).1) :
    Serves (fun n => zsSelect handler n w zs) (fun s => s.zs.activeHash.entries)
      zs.activeHash.entries (zsDue zs) :=
  walk_serves (s := (⟨w, zs, false⟩ : ZsSel W)) (zs_ordered handler zs.activeRead zs.activeWrite) h.ok
    h.ok.head_mem (fun _ hb => h.ok.starts hb) (fun fd _ => zs_tests handler zs fd) hst

/-- The rounds are the first one and those ahead of it. -/
theorem MsgSel.ListsOK.rounds_eq {s : MsgSel W} (h : s.ListsOK) {fd : ℕ}
    (hfd : fdHashHead s.active = some fd) : s.rounds = .turn fd :: s.ahead (.turn fd) := by
  unfold MsgSel.rounds
  rw [h.active.cons_after hfd, ahead_turn]
  rfl

theorem msg_serves (handler : MsgCallback W) (s : MsgSel W) (ha : s.active.Reached)
    (hm : ∀ fd sw, s.sw fd = some sw → sw.activeHash.Reached)
    (hst : ∀ n, msgSteady (msgSwitchSelect handler n s).1) :
    Serves (fun n => msgSwitchSelect handler n s) MsgSel.rounds s.msgRounds msgDue := by
  have h : s.ListsOK := ⟨ha.ok, fun fd sw hsw => (hm fd sw hsw).ok⟩
  refine walk_serves (msg_ordered handler) h ?_ ?_ ?_ hst
  · intro a hpos
    obtain ⟨fd, hfd, rfl⟩ := Option.map_eq_some_iff.1 hpos
    rw [h.rounds_eq hfd]
    exact List.mem_cons_self
  · intro b hb
    obtain ⟨fd', hfd', hb⟩ := List.mem_flatMap.1 hb
    obtain ⟨fd, hfd, -⟩ := h.active.starts hfd'
    refine ⟨.turn fd, by rw [hfd]; rfl, ?_⟩
    rw [← h.rounds_eq hfd]
    exact List.mem_flatMap.2 ⟨fd', hfd', List.mem_cons_of_mem _ hb⟩
  · intro b hb
    obtain ⟨fd, -, hb⟩ := List.mem_flatMap.1 hb
    obtain ⟨m, -, rfl⟩ := List.mem_map.1 hb
    exact msg_tests handler fd m

/-- **A pass whose callbacks leave alone what waits serves every entry once.** -/
theorem passes_serve (W : Type) :
    (∀ (handler : ZfdCallback W) (readFdSet : ℕ → Bool) (s : W × Zfd), s.2.activeHash.Reached →
      (∀ n, zfdSteady (zfdSelect handler readFdSet n s).1) →
      Serves (fun n => zfdSelect handler readFdSet n s) (fun s => s.2.activeHash.entries)
        s.2.activeHash.entries (zfdDue readFdSet)) ∧
    (∀ (handler : ZsCallback W) (w : W) (zs : Zs), zs.activeHash.Reached →
      (∀ n, zsSteady (zsSelect handler n w zs).1) →
      Serves (fun n => zsSelect handler n w zs) (fun s => s.zs.activeHash.entries)
        zs.activeHash.entries (zsDue zs)) ∧
    (∀ (handler : MsgCallback W) (s : MsgSel W), s.active.Reached →
      (∀ fd sw, s.sw fd = some sw → sw.activeHash.Reached) →
      (∀ n, msgSteady (msgSwitchSelect handler n s).1) →
      Serves (fun n => msgSwitchSelect handler n s) MsgSel.rounds s.msgRounds msgDue) :=
  ⟨zfd_serves, zs_serves, msg_serves⟩

/-- Two sockets that are read from. -/
def twoReaders : Unit × Zfd := ((), zfdSetR (zfdSetR zfdInit 3 .internalRead) 4 .internalRead)

theorem twoReaders_reached : twoReaders.2.activeHash.Reached :=
  ⟨[.add ⟨3, by decide⟩, .add ⟨4, by decide⟩], rfl⟩

/-- A handler that finds its socket readable, as `zs_internal_read`, and clears it. -/
def clears : ZfdCallback Unit := fun _ i w z =>
  if i = 3 then (w, zfdClrR z 3, [.remove ⟨3, by decide⟩]) else (w, z, [])

/-- The entry behind one that takes itself off waits. -/
theorem pass_skips : twoReaders.2.activeHash.Reached ∧
    ¬ Serves (fun n => zfdSelect clears (fun _ => true) n twoReaders)
      (fun s => s.2.activeHash.entries) twoReaders.2.activeHash.entries (zfdDue fun _ => true) := by
  refine ⟨twoReaders_reached, fun h => ?_⟩
  have hcount := h.2 2 _ rfl 4 (by decide +kernel) ?_ .r ?_
  · revert hcount
    decide +kernel
  · -- 4 stays on the list
    intro v hv _ _
    obtain rfl := List.mem_singleton.1 hv
    decide +kernel
  · -- and there is no visit of it
    intro v hv he
    obtain rfl := List.mem_singleton.1 hv
    cases he

/-! ### Callbacks that change the lists -/

/-- 3 accepts the client 5, 4 closes 3, and 5 closes itself. -/
def turnsOver : ZfdCallback Unit := fun _ i w z =>
  if i = 3 then (w, zfdSetR z 5 .internalRead, [.add ⟨5, by decide⟩])
  else if i = 4 then (w, zfdClrR z 3, [.remove ⟨3, by decide⟩])
  else (w, zfdClrR z 5, [.remove ⟨5, by decide⟩])

theorem turnsOver_steady (n : ℕ) : zfdSteady (zfdSelect turnsOver (fun _ => true) n twoReaders).1 := by
  apply Steady.of_over (k := 3)
  · decide +kernel
  · decide +kernel

/-- A client that has sent something. -/
def reader : Zsocket where
  type := .connect
  addr := 0
  portno := 80
  eventHdlr := .exsock
  ssl := false
  status := { readable := true }
  nOpen := 0

/-- Two of them. -/
def readers : Zs := { zsInit with
  zsockets := fun i => if i = 3 ∨ i = 4 then some reader else none
  activeRead := fun i => i = 3 ∨ i = 4
  activeHash := fdHashAdd (fdHashAdd fdHashInit 3) 4 }

/-- 3 connects 6, and 4 closes 3. -/
def zsTurnsOver : ZsCallback Unit := fun _ fd _ w zs =>
  if fd = 3 then
    (w, { zs with zsockets := Function.update zs.zsockets 6 (some reader) }, fun _ => false,
      [.add ⟨6, by decide⟩])
  else
    (w, { zs with zsockets := Function.update zs.zsockets 3 none }, fun i => i = 3,
      [.remove ⟨3, by decide⟩])

theorem zsTurnsOver_steady (n : ℕ) : zsSteady (zsSelect zsTurnsOver n () readers).1 := by
  apply Steady.of_over (k := 3)
  · decide +kernel
  · decide +kernel

/-- A msg with a packet to read. -/
def packed (msgid : ℕ) : Msg where
  addr := msgid
  msgid
  type := 1
  status := { connected := true, packetAvailToRead := true }

/-- A switch with two of them, and one with one. -/
def threeMsgs : MsgSel Unit where
  world := ()
  sw := fun fd =>
    if fd = 3 then some { msgSwitchCreate with
      msgs := fun i => if i = 5 ∨ i = 6 then some (packed i) else none
      activeReadFdSet := fun i => i = 5 ∨ i = 6
      activeHash := fdHashAdd (fdHashAdd fdHashInit 5) 6 }
    else if fd = 4 then some { msgSwitchCreate with
      msgs := fun i => if i = 5 then some (packed i) else none
      activeReadFdSet := fun i => i = 5
      activeHash := fdHashAdd fdHashInit 5 }
    else none
  opened := fun fd => fd = 3 ∨ fd = 4
  active := fdHashAdd (fdHashAdd fdHashInit 3) 4
  readFdSet := fun _ => false
  writeFdSet := fun _ => false
  msg := none

/-- The first msg opens another one on its switch, the second one takes the first off, and that of
the other switch opens a switch. -/
def msgTurnsOver : MsgCallback Unit := fun fd msgid _ s =>
  if fd = 4 then
    (s.world, Function.update s.sw 8 (some msgSwitchCreate), Function.update s.opened 8 true,
      [.create ⟨8, by decide⟩])
  else if msgid = 5 then
    (s.world, s.sw, s.opened, [.hash 3 (.add ⟨7, by decide⟩)])
  else
    (s.world, s.sw, s.opened, [.hash 3 (.remove ⟨5, by decide⟩)])

theorem msgTurnsOver_steady (n : ℕ) : msgSteady (msgSwitchSelect msgTurnsOver n threeMsgs).1 := by
  apply Steady.of_over (k := 7)
  · decide +kernel
  · decide +kernel

theorem passes_serve_one :
    Serves (fun n => zfdSelect turnsOver (fun _ => true) n twoReaders) (fun s => s.2.activeHash.entries)
      twoReaders.2.activeHash.entries (zfdDue fun _ => true) ∧
    Serves (fun n => zsSelect zsTurnsOver n () readers) (fun s => s.zs.activeHash.entries)
      readers.activeHash.entries (zsDue readers) ∧
    Serves (fun n => msgSwitchSelect msgTurnsOver n threeMsgs) MsgSel.rounds threeMsgs.msgRounds
      msgDue := by
  refine ⟨(passes_serve Unit).1 turnsOver _ twoReaders twoReaders_reached turnsOver_steady,
    (passes_serve Unit).2.1 zsTurnsOver () readers ⟨[.add ⟨3, by decide⟩, .add ⟨4, by decide⟩], rfl⟩
      zsTurnsOver_steady,
    (passes_serve Unit).2.2 msgTurnsOver threeMsgs ⟨[.add ⟨3, by decide⟩, .add ⟨4, by decide⟩], rfl⟩ ?_
      msgTurnsOver_steady⟩
  intro fd sw hsw
  simp only [threeMsgs] at hsw
  split_ifs at hsw
  · cases hsw
    exact ⟨[.add ⟨5, by decide⟩, .add ⟨6, by decide⟩], rfl⟩
  · cases hsw
    exact ⟨[.add ⟨5, by decide⟩], rfl⟩

end Zimr
