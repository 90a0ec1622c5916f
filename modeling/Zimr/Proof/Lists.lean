import Zimr.Proof.Simclist

/-!
# Programs with several lists

`Shelf.run` says what the calls of a program do to lists that are just lists. `lists_run`: the
library does the same, whatever the order of the calls on the lists that share the heap, and when
all lists are destroyed no node is left.
-/

namespace Zimr

variable {α : Type} {h h' : NodeHeap α} {l : ListT α} {nodes : List ℕ}

/-! ## Lists as lists -/

/-- A list and its comparator. -/
structure ListVal (α : Type) where
  items : List (Option α)
  comparator : Option (ElementComparator α)

/-- What `list_locate` looks for. -/
def ListVal.found [DecidableEq α] (v : ListVal α) (data : Option α) : Option α → Bool :=
  match v.comparator with
  | some comparator => fun el => comparator data el == 0
  | none => fun el => el == data

/-- What an operation does to a list, and what it returns. -/
def ListVal.op [DecidableEq α] (v : ListVal α) : ListOp α → ListVal α × ListRes α
  | .comparator comparator => ({ v with comparator }, .int 0)
  | .append data => ({ v with items := v.items ++ [data] }, .int 1)
  | .prepend data => ({ v with items := data :: v.items }, .int 1)
  | .insertAt data pos =>
    if pos.toNat ≤ v.items.length
    then ({ v with items := v.items.insertIdx pos.toNat data }, .int 1) else (v, .int (-1))
  | .fetch => ({ v with items := v.items.tail }, .data (v.items.headD none))
  | .extractAt pos =>
    ({ v with items := v.items.eraseIdx pos.toNat }, .data (v.items.getD pos.toNat none))
  | .deleteAt pos =>
    if pos.toNat < v.items.length
    then ({ v with items := v.items.eraseIdx pos.toNat }, .int 0) else (v, .int (-1))
  | .getAt pos => (v, .data (v.items.getD pos.toNat none))
  | .size => (v, .int v.items.length)
  | .locate data => (v, .int (placeOf (v.found data) v.items))
  | .contains data => (v, .int (if v.items.any (v.found data) then 1 else 0))
  | .clear => ({ v with items := [] }, .int 0)

/-- The lists of a program, by name. -/
abbrev Shelf (α : Type) := ℕ → Option (ListVal α)

/-- One call. There is none for a list that is not initialised, or initialised already, or has
`2^24` items: from there on `list_findpos` rounds the numbers it divides. -/
def Shelf.call [DecidableEq α] (shelf : Shelf α) : ListCall α → Option (Shelf α × ListRes α)
  | .init i =>
    match shelf i with
    | some _ => none
    | none => some (Function.update shelf i (some ⟨[], none⟩), .int 0)
  | .op i o =>
    match shelf i with
    | none => none
    | some v =>
      if v.items.length < 2 ^ 24
      then some (Function.update shelf i (some (v.op o).1), (v.op o).2) else none
  | .destroy i =>
    match shelf i with
    | none => none
    | some _ => some (Function.update shelf i none, .int 0)

/-- The calls of a program, and what they return. -/
def Shelf.run [DecidableEq α] :
    Shelf α → List (ListCall α) → Option (Shelf α × List (ListRes α))
  | shelf, [] => some (shelf, [])
  | shelf, c :: cs =>
    match shelf.call c with
    | none => none
    | some (shelf, r) => (Shelf.run shelf cs).map fun s => (s.1, r :: s.2)

/-! ## One operation -/

/-- The heap holds a list with these items. -/
structure Held (h : NodeHeap α) (l : ListT α) (nodes : List ℕ) (v : ListVal α) : Prop where
  seated : Seated h l nodes
  items : ListT.items h nodes = v.items
  comparator : l.comparator = v.comparator

/-- An operation went well: the list is what `v` says, and only its nodes were touched. -/
def Done (h : NodeHeap α) (own : List ℕ) (v : ListVal α) (h' : NodeHeap α) (l' : ListT α) : Prop :=
  ∃ nodes', Held h' l' nodes' v ∧ h.Moved h' own (l'.own nodes')

theorem NodeHeap.Moved.refl (hf : h.Fresh) {own : List ℕ} (hlive : ∀ a ∈ own, h.Live a) :
    h.Moved h own own :=
  ⟨fun _ _ _ => rfl, fun _ ha ha' => absurd ha ha', fun _ ha => Or.inl ha,
    fun a ha => hf.lt (hlive a ha), Nat.le_refl _⟩

variable {v : ListVal α}

theorem Held.length (H : Held h l nodes v) : v.items.length = nodes.length := by
  rw [← H.items, ListT.items, List.length_map]

theorem Held.same (H : Held h l nodes v) (hf : h.Fresh) : Done h (l.own nodes) v h l :=
  ⟨nodes, H, NodeHeap.Moved.refl hf H.seated.live⟩

theorem Held.insertAt (H : Held h l nodes v) (hf : h.Fresh) (hs : v.items.length < 2 ^ 24)
    (data : Option α) {pos : ℕ} (hp : pos ≤ v.items.length) :
    ∃ h' l', listInsertAt h l data pos = .ok (h', l', 1) ∧
      Done h (l.own nodes) { v with items := v.items.insertIdx pos data } h' l' := by
  rw [H.length] at hs hp
  obtain ⟨h', l', lent, he, s', hitems, hcmp, m⟩ := H.seated.insertAt hf hs hp data
  exact ⟨h', l', he, _, ⟨s', hitems.trans (by rw [H.items]), hcmp.trans H.comparator⟩, m⟩

theorem Held.extractAt (H : Held h l nodes v) (hf : h.Fresh) (hs : v.items.length < 2 ^ 24)
    (pos : ℕ) :
    ∃ h' l', listExtractAt h l pos = .ok (h', l', v.items.getD pos none) ∧
      Done h (l.own nodes) { v with items := v.items.eraseIdx pos } h' l' := by
  by_cases hp : pos < nodes.length
  · rw [H.length] at hs
    obtain ⟨h', l', he, s', hitems, hcmp, m⟩ := H.seated.extractAt hf hs hp
    refine ⟨h', l', he.trans ?_, _, ⟨s', hitems.trans (by rw [H.items]), hcmp.trans H.comparator⟩, m⟩
    rw [← H.items]
    simp [ListT.items, hp]
  · have hge : v.items.length ≤ pos := by rw [H.length]; omega
    refine ⟨h, l, ?_, ?_⟩
    · unfold listExtractAt
      rw [if_pos (by rw [H.seated.numels]; omega), show v.items.getD pos none = none by simp [List.getD, hge]]
    · rw [List.eraseIdx_of_length_le hge]
      exact H.same hf

theorem Held.deleteAt (H : Held h l nodes v) (hf : h.Fresh) (hs : v.items.length < 2 ^ 24)
    {pos : ℕ} (hp : pos < v.items.length) :
    ∃ h' l', listDeleteAt h l pos = .ok (h', l', 0) ∧
      Done h (l.own nodes) { v with items := v.items.eraseIdx pos } h' l' := by
  rw [H.length] at hs hp
  obtain ⟨h', l', he, s', hitems, hcmp, m⟩ := H.seated.deleteAt hf hs hp
  exact ⟨h', l', he, _, ⟨s', hitems.trans (by rw [H.items]), hcmp.trans H.comparator⟩, m⟩

theorem Held.found [DecidableEq α] (H : Held h l nodes v) (data : Option α) :
    l.found data = v.found data := by
  have hc := H.comparator
  cases hv : v.comparator with
  | none => simp only [ListT.found, ListVal.found, hc, hv]
  | some comparator => simp only [ListT.found, ListVal.found, hc, hv]

/-- An item is there iff it has a place. -/
theorem placeOf_nonneg (found : Option α → Bool) (items : List (Option α)) :
    0 ≤ placeOf found items ↔ items.any found = true := by
  rw [← List.findIdx?_isSome]
  unfold placeOf
  cases items.findIdx? found with
  | none => simp
  | some i => simp

/-- **Every operation does to the list in the heap what it says.** -/
theorem Held.op [DecidableEq α] (H : Held h l nodes v) (hf : h.Fresh)
    (hs : v.items.length < 2 ^ 24) (o : ListOp α) :
    ∃ h' l', listOp h l o = .ok (h', l', (v.op o).2) ∧ Done h (l.own nodes) (v.op o).1 h' l' := by
  cases o with
  | comparator c =>
    exact ⟨h, { l with comparator := c }, rfl, nodes, ⟨⟨H.seated.nodup, H.seated.live, H.seated.linked,
      H.seated.head, H.seated.tail, H.seated.numels, H.seated.mid, H.seated.spares⟩, H.items, rfl⟩,
      NodeHeap.Moved.refl hf H.seated.live⟩
  | append data =>
    obtain ⟨h', l', he, hd⟩ := H.insertAt hf hs data (Nat.le_refl _)
    refine ⟨h', l', ?_, ?_⟩
    · simp only [listOp, listAppend]
      rw [H.seated.numels, ← H.length, he]
      rfl
    · rwa [List.insertIdx_length_self] at hd
  | prepend data =>
    obtain ⟨h', l', he, hd⟩ := H.insertAt hf hs data (Nat.zero_le _)
    refine ⟨h', l', ?_, hd⟩
    simp only [listOp, listPrepend]
    rw [he]
    rfl
  | insertAt data pos =>
    simp only [listOp, ListVal.op]
    by_cases hp : pos.toNat ≤ v.items.length
    · rw [if_pos hp]
      obtain ⟨h', l', he, hd⟩ := H.insertAt hf hs data hp
      exact ⟨h', l', by rw [he]; rfl, hd⟩
    · rw [if_neg hp]
      refine ⟨h, l, ?_, H.same hf⟩
      unfold listInsertAt
      rw [if_pos (by rw [H.seated.numels, ← H.length]; omega)]
      rfl
  | fetch =>
    obtain ⟨h', l', he, hd⟩ := H.extractAt hf hs 0
    refine ⟨h', l', ?_, ?_⟩
    · have hhead : v.items.getD 0 none = v.items.headD none := by cases v.items <;> rfl
      simp only [listOp, listFetch]
      rw [he, hhead]
      rfl
    · rwa [List.eraseIdx_zero] at hd
  | extractAt pos =>
    obtain ⟨h', l', he, hd⟩ := H.extractAt hf hs pos.toNat
    exact ⟨h', l', by simp only [listOp]; rw [he]; rfl, hd⟩
  | deleteAt pos =>
    simp only [listOp, ListVal.op]
    by_cases hp : pos.toNat < v.items.length
    · rw [if_pos hp]
      obtain ⟨h', l', he, hd⟩ := H.deleteAt hf hs hp
      exact ⟨h', l', by rw [he]; rfl, hd⟩
    · rw [if_neg hp]
      refine ⟨h, l, ?_, H.same hf⟩
      unfold listDeleteAt
      rw [if_pos (by rw [H.seated.numels, ← H.length]; omega)]
      rfl
  | getAt pos =>
    refine ⟨h, l, ?_, H.same hf⟩
    simp only [listOp]
    rw [H.seated.getAt (by rw [← H.length]; exact hs) pos.toNat_lt, H.items]
    rfl
  | size =>
    refine ⟨h, l, ?_, H.same hf⟩
    simp only [listOp, listSize, ListVal.op]
    rw [H.seated.numels, ← H.length]
  | locate data =>
    refine ⟨h, l, ?_, H.same hf⟩
    simp only [listOp]
    rw [H.seated.locate hf, H.found, H.items]
    rfl
  | contains data =>
    refine ⟨h, l, ?_, H.same hf⟩
    simp only [listOp, listContains, ListVal.op]
    rw [H.seated.locate hf, H.found, H.items]
    by_cases hany : v.items.any (v.found data) = true
    · have := (placeOf_nonneg _ _).2 hany
      simp [hany, this]
    · have := mt (placeOf_nonneg _ _).1 hany
      simp [hany, this]
  | clear =>
    obtain ⟨h', l', he, s', hcmp, m⟩ := H.seated.clear hf
    refine ⟨h', l', ?_, [], ⟨s', rfl, hcmp.trans H.comparator⟩, m⟩
    simp only [listOp]
    rw [he]
    rfl

/-! ## A program -/

/-- The nodes of a list, if it is there. -/
def Lists.ownOf (ls : Lists α) (nodes : ℕ → List ℕ) (i : ℕ) : List ℕ :=
  match ls.list i with
  | some l => l.own (nodes i)
  | none => []

/-- The heap holds the lists of the shelf, apart from each other, and nothing else. -/
structure Lists.Holds (ls : Lists α) (shelf : Shelf α) (nodes : ℕ → List ℕ) : Prop where
  fresh : ls.heap.Fresh
  isSome : ∀ i, (ls.list i).isSome = (shelf i).isSome
  held : ∀ i l v, ls.list i = some l → shelf i = some v → Held ls.heap l (nodes i) v
  apart : ∀ i j, i ≠ j → ∀ a ∈ ls.ownOf nodes i, a ∉ ls.ownOf nodes j
  owned : ∀ a, ls.heap.Live a → ∃ i, a ∈ ls.ownOf nodes i

theorem Lists.empty_holds : (Lists.empty : Lists α).Holds (fun _ => none) fun _ => [] where
  fresh := fun _ _ => rfl
  isSome := fun _ => rfl
  held := fun _ _ _ hl => absurd hl (by simp [Lists.empty])
  apart := fun _ _ _ _ ha => by simp [Lists.ownOf, Lists.empty] at ha
  owned := fun _ ha => by simp [NodeHeap.Live, Lists.empty, NodeHeap.empty] at ha

variable {ls : Lists α} {shelf : Shelf α} {own : ℕ → List ℕ}

theorem Lists.Holds.live (H : ls.Holds shelf own) {i a : ℕ} (ha : a ∈ ls.ownOf own i) :
    ls.heap.Live a := by
  unfold Lists.ownOf at ha
  cases hl : ls.list i with
  | none => simp [hl] at ha
  | some l =>
    rw [hl] at ha
    obtain ⟨v, hv⟩ := Option.isSome_iff_exists.1 ((H.isSome i).symm.trans (by rw [hl]; rfl))
    exact (H.held i l v hl hv).seated.live a ha

/-- A call that touched the nodes of one list only leaves the others as they are. -/
theorem Lists.Holds.update (H : ls.Holds shelf own) (i : ℕ) (l' : Option (ListT α))
    (v' : Option (ListVal α)) (nodes' : List ℕ)
    (m : ls.heap.Moved h' (ls.ownOf own i)
      (Lists.ownOf ⟨h', Function.update ls.list i l'⟩ (Function.update own i nodes') i))
    (hsome : l'.isSome = v'.isSome)
    (hheld : ∀ l v, l' = some l → v' = some v → Held h' l nodes' v) :
    Lists.Holds ⟨h', Function.update ls.list i l'⟩ (Function.update shelf i v')
      (Function.update own i nodes') := by
  set new : Lists α := ⟨h', Function.update ls.list i l'⟩ with hnew
  have hother : ∀ j, j ≠ i → new.ownOf (Function.update own i nodes') j = ls.ownOf own j :=
    fun j hj => by simp only [Lists.ownOf, hnew, Function.update_of_ne hj]
  -- a node of another list is not among those of this one, before or after
  have hout : ∀ j, j ≠ i → ∀ a ∈ ls.ownOf own j, a ∉ ls.ownOf own i ∧
      a ∉ new.ownOf (Function.update own i nodes') i := by
    intro j hj a ha
    have hno := H.apart j i hj a ha
    refine ⟨hno, fun hm => ?_⟩
    rcases m.fresh a hm with h | h
    · exact hno h
    · exact absurd (H.fresh.lt (H.live ha)) (Nat.not_lt.2 h)
  have hkeep : ∀ j, j ≠ i → ∀ a ∈ ls.ownOf own j, h'.node a = ls.heap.node a := fun j hj a ha =>
    m.rest a (hout j hj a ha).1 (hout j hj a ha).2
  refine ⟨m.keepsFresh H.fresh, fun j => ?_, fun j l v hl hv => ?_, fun j k hjk a ha hk => ?_,
    fun a ha => ?_⟩
  · by_cases hj : j = i
    · subst hj
      simpa [hnew] using hsome
    · simpa [hnew, Function.update_of_ne hj] using H.isSome j
  · by_cases hj : j = i
    · subst hj
      simp only [hnew, Function.update_self] at hl hv ⊢
      exact hheld l v hl hv
    · simp only [hnew, Function.update_of_ne hj] at hl hv ⊢
      have old := H.held j l v hl hv
      have hown : ls.ownOf own j = l.own (own j) := by simp only [Lists.ownOf, hl]
      have hk : ∀ a ∈ l.own (own j), h'.node a = ls.heap.node a := fun a ha =>
        hkeep j hj a (hown ▸ ha)
      refine ⟨old.seated.congr hk, ?_, old.comparator⟩
      rw [← old.items]
      exact List.map_congr_left fun a ha => by
        simp only [NodeHeap.data, hk a (by simp [ListT.own, ListT.cells, ha])]
  · by_cases hj : j = i
    · subst hj
      rw [hother k (Ne.symm hjk)] at hk
      exact (hout k (Ne.symm hjk) a hk).2 ha
    · rw [hother j hj] at ha
      by_cases hki : k = i
      · subst hki
        exact (hout j hj a ha).2 hk
      · rw [hother k hki] at hk
        exact H.apart j k hjk a ha hk
  · by_cases hm : a ∈ new.ownOf (Function.update own i nodes') i
    · exact ⟨i, hm⟩
    · by_cases ho : a ∈ ls.ownOf own i
      · exact absurd ha (m.gone a ho hm)
      · have hlive : ls.heap.Live a := by
          rw [NodeHeap.Live, ← m.rest a ho hm]
          exact ha
        obtain ⟨j, hj⟩ := H.owned a hlive
        have hji : j ≠ i := fun e => ho (e ▸ hj)
        exact ⟨j, by rw [hother j hji]; exact hj⟩

/-- **One call.** -/
theorem Lists.Holds.call [DecidableEq α] (H : ls.Holds shelf own) {c : ListCall α}
    {shelf' : Shelf α} {r : ListRes α} (hc : shelf.call c = some (shelf', r)) :
    ∃ ls' own', ls.call c = .ok (ls', r) ∧ ls'.Holds shelf' own' := by
  cases c with
  | init i =>
    simp only [Shelf.call] at hc
    cases hv : shelf i with
    | some v => simp [hv] at hc
    | none =>
      obtain ⟨rfl, rfl⟩ : Function.update shelf i (some ⟨[], none⟩) = shelf' ∧ .int 0 = r := by
        simpa [hv] using hc
      have hnone : ls.list i = none := by
        have := H.isSome i
        rw [hv] at this
        simpa using this
      have hown : ls.ownOf own i = [] := by simp only [Lists.ownOf, hnone]
      obtain ⟨hs, hcmp, m⟩ := listInit_seated
      refine ⟨_, Function.update own i [], rfl, H.update i _ _ _ ?_ rfl fun l v hl hv => ?_⟩
      · rw [hown]
        simp only [Lists.ownOf, Function.update_self]
        exact m
      · cases hl
        cases hv
        exact ⟨hs, rfl, hcmp⟩
  | op i o =>
    simp only [Shelf.call] at hc
    cases hv : shelf i with
    | none => simp [hv] at hc
    | some v =>
      simp only [hv] at hc
      split_ifs at hc with hlen
      obtain ⟨rfl, rfl⟩ : Function.update shelf i (some (v.op o).1) = shelf' ∧ (v.op o).2 = r := by
        simpa using hc
      obtain ⟨l, hl⟩ := Option.isSome_iff_exists.1 ((H.isSome i).trans (by rw [hv]; rfl))
      have hown : ls.ownOf own i = l.own (own i) := by simp only [Lists.ownOf, hl]
      obtain ⟨h', l', he, nodes', hheld, m⟩ := (H.held i l v hl hv).op H.fresh hlen o
      refine ⟨⟨h', Function.update ls.list i (some l')⟩, Function.update own i nodes', ?_,
        H.update i _ _ _ ?_ rfl fun l v hl hv => ?_⟩
      · simp only [Lists.call, hl]
        rw [he]
        rfl
      · rw [hown]
        simpa [Lists.ownOf] using m
      · cases hl
        cases hv
        exact hheld
  | destroy i =>
    simp only [Shelf.call] at hc
    cases hv : shelf i with
    | none => simp [hv] at hc
    | some v =>
      obtain ⟨rfl, rfl⟩ : Function.update shelf i none = shelf' ∧ .int 0 = r := by
        simpa [hv] using hc
      obtain ⟨l, hl⟩ := Option.isSome_iff_exists.1 ((H.isSome i).trans (by rw [hv]; rfl))
      have hown : ls.ownOf own i = l.own (own i) := by simp only [Lists.ownOf, hl]
      obtain ⟨h', he, m⟩ := (H.held i l v hl hv).seated.destroy H.fresh
      refine ⟨⟨h', Function.update ls.list i none⟩, Function.update own i [], ?_,
        H.update i _ _ _ ?_ rfl fun l v hl => absurd hl (by simp)⟩
      · simp only [Lists.call, hl]
        rw [he]
        rfl
      · rw [hown]
        simpa [Lists.ownOf] using m

/-- A whole program. -/
theorem Lists.Holds.run [DecidableEq α] (calls : List (ListCall α)) (H : ls.Holds shelf own)
    {shelf' : Shelf α} {out : List (ListRes α)} (hrun : shelf.run calls = some (shelf', out)) :
    ∃ ls' own', ls.run calls = .ok (ls', out) ∧ ls'.Holds shelf' own' := by
  induction calls generalizing ls shelf own out with
  | nil =>
    obtain ⟨rfl, rfl⟩ : shelf = shelf' ∧ [] = out := by simpa [Shelf.run] using hrun
    exact ⟨ls, own, rfl, H⟩
  | cons c calls ih =>
    unfold Shelf.run at hrun
    cases hc : shelf.call c with
    | none => simp [hc] at hrun
    | some s =>
      rw [hc] at hrun
      obtain ⟨rest, hrest, hout⟩ := Option.map_eq_some_iff.1 hrun
      obtain ⟨rfl, rfl⟩ : rest.1 = shelf' ∧ s.2 :: rest.2 = out := by simpa using hout
      obtain ⟨ls₁, own₁, he, H₁⟩ := H.call hc
      obtain ⟨ls₂, own₂, he₂, H₂⟩ := ih H₁ hrest
      refine ⟨ls₂, own₂, ?_, H₂⟩
      unfold Lists.run
      rw [he, Run.ok_bind]
      dsimp only
      rw [he₂]
      rfl

/-- **The library does what its lists are for.** Whatever the calls on however many lists, in
whatever order: every call returns what it returns on lists that are just lists, no pointer is
followed that is `NULL` or freed, and every loop ends. The nodes that are left are those of the
lists that are left: destroying all of them frees every node, once. -/
theorem lists_run [DecidableEq α] (calls : List (ListCall α)) {shelf : Shelf α}
    {out : List (ListRes α)} (hrun : Shelf.run (fun _ => none) calls = some (shelf, out)) :
    ∃ ls, Lists.empty.run calls = .ok (ls, out) ∧
      (∀ i, (ls.list i).isSome = (shelf i).isSome) ∧
      ((∀ i, shelf i = none) → ∀ a, ls.heap.node a = none) := by
  obtain ⟨ls, own, he, H⟩ := Lists.empty_holds.run calls hrun
  refine ⟨ls, he, H.isSome, fun hnone a => ?_⟩
  by_contra hne
  obtain ⟨i, hi⟩ := H.owned a (Option.isSome_iff_ne_none.2 hne)
  have hl : ls.list i = none := by
    have := H.isSome i
    rw [hnone i] at this
    simpa using this
  simp [Lists.ownOf, hl] at hi

/-- Two lists in one heap, with a node of the first one used again after it was spare. -/
theorem lists_run_twoLists :
    ∃ ls, (Lists.empty (α := ℕ)).run [.init 0, .op 0 (.append (some 1)), .init 1,
        .op 0 (.prepend (some 2)), .op 1 (.insertAt (some 3) 1), .op 1 (.append (some 4)),
        .op 0 (.extractAt 1), .op 0 (.append (some 5)), .op 0 (.getAt 1), .op 1 .size, .destroy 1,
        .op 0 (.locate (some 5)), .op 0 (.getAt 4294967295), .destroy 0] =
      .ok (ls, [.int 0, .int 1, .int 0, .int 1, .int (-1), .int 1, .data (some 1), .int 1,
        .data (some 5), .int 1, .int 0, .int 1, .data none, .int 0]) ∧
      ∀ a, ls.heap.node a = none := by
  obtain ⟨ls, he, -, hfree⟩ := lists_run (α := ℕ) [.init 0, .op 0 (.append (some 1)), .init 1,
    .op 0 (.prepend (some 2)), .op 1 (.insertAt (some 3) 1), .op 1 (.append (some 4)),
    .op 0 (.extractAt 1), .op 0 (.append (some 5)), .op 0 (.getAt 1), .op 1 .size, .destroy 1,
    .op 0 (.locate (some 5)), .op 0 (.getAt 4294967295), .destroy 0] rfl
  refine ⟨ls, he, hfree fun i => ?_⟩
  by_cases h0 : i = 0
  · subst h0
    rfl
  by_cases h1 : i = 1
  · subst h1
    rfl
  simp [Function.update_of_ne h0, Function.update_of_ne h1]

end Zimr
