import Mathlib.Data.Finset.Card
import Mathlib.Data.List.Nodup

/-!
# Walking a list that changes

A walk visits one entry of a list after the other. A visit may change the list, and the next entry
is the first of those that are then ahead. `Steady` says what a visit must leave alone: what waits
ahead and is not taken off the list stays ahead, and nothing that was visited comes to be ahead.
Then the walk ends (`walk_ends`) and comes to every entry that no other visit takes off, once
(`walk_once`).
-/

namespace Walk

variable {S α D E : Type*}

/-- A test that a visit makes, with the state it is made in. -/
structure Check (S D : Type*) where
  dir : D
  state : S
  called : Bool

/-- A visit. -/
structure Visit (S α D : Type*) where
  entry : α
  before : S
  checks : List (Check S D)
  after : S

/-- How a walk stands after so many visits. -/
inductive Outcome (S E : Type*)
  | ended (s : S)
  | fault (e : E)
  | running

/-- The walk has come to its end, or to a fault. -/
def Outcome.over : Outcome S E → Bool
  | .running => false
  | _ => true

/-- The tests of one visit, each with the call that may follow. -/
def serve (test : S → D → Except E Bool) (call : S → D → Except E S) :
    List D → S → Except E (S × List (Check S D))
  | [], s => .ok (s, [])
  | d :: ds, s =>
    match test s d with
    | .error e => .error e
    | .ok b =>
      match (if b then call s d else .ok s) with
      | .error e => .error e
      | .ok s' => (serve test call ds s').map fun r => (r.1, ⟨d, s, b⟩ :: r.2)

/-- The visits of a walk, `n` at most. -/
def walk (visit : S → α → Except E (S × List (Check S D) × Option α)) :
    ℕ → Option α → S → List (Visit S α D) × Outcome S E
  | _, none, s => ([], .ended s)
  | 0, some _, _ => ([], .running)
  | n + 1, some a, s =>
    match visit s a with
    | .error e => ([], .fault e)
    | .ok (s', checks, next) =>
      (⟨a, s, checks, s'⟩ :: (walk visit n next s').1, (walk visit n next s').2)

/-- What was called, in order. -/
def calls (visits : List (Visit S α D)) : List (α × D) :=
  visits.flatMap fun v => (v.checks.filter Check.called).map fun t => (v.entry, t.dir)

/-- The visits leave alone what waits, put nothing back that was visited, and find what they
need. -/
def Steady (list : S → List α) (ahead : S → α → List α) (fine : S → α → Prop) :
    List α → List (Visit S α D) → Prop
  | _, [] => True
  | seen, v :: visits =>
    fine v.before v.entry ∧
    (∀ b ∈ ahead v.before v.entry, b ∈ list v.after → b ∈ ahead v.after v.entry) ∧
    (∀ b ∈ ahead v.after v.entry, b ∉ seen) ∧
    Steady list ahead fine (v.entry :: seen) visits

instance Steady.decidable [DecidableEq α] {list : S → List α} {ahead : S → α → List α}
    {fine : S → α → Prop} [∀ s a, Decidable (fine s a)] :
    ∀ (seen : List α) (visits : List (Visit S α D)), Decidable (Steady list ahead fine seen visits)
  | _, [] => isTrue trivial
  | seen, v :: visits =>
    have : Decidable (Steady list ahead fine (v.entry :: seen) visits) := Steady.decidable _ _
    inferInstanceAs (Decidable (_ ∧ _ ∧ _ ∧ Steady list ahead fine (v.entry :: seen) visits))

/-- No other visit takes the entry off the list. -/
def Stays (list : S → List α) (visits : List (Visit S α D)) (a : α) : Prop :=
  ∀ v ∈ visits, v.entry ≠ a → a ∈ list v.before → a ∈ list v.after

/-- The walk ends, or is stopped by a fault, and if it ends, every one of the entries that no other
visit takes off the list has had the call that was due at its turn, once. -/
def Serves [DecidableEq α] [DecidableEq D] (pass : ℕ → List (Visit S α D) × Outcome S E)
    (list : S → List α) (entries : List α) (due : α → S → D → Prop) : Prop :=
  (∃ n, (pass n).2 ≠ .running) ∧ ∀ n s', (pass n).2 = .ended s' →
    ∀ a ∈ entries, Stays list (pass n).1 a → ∀ d,
      (∀ v ∈ (pass n).1, v.entry = a → ∀ t ∈ v.checks, t.dir = d → due a t.state d) →
      (calls (pass n).1).count (a, d) = 1

/-- What the visit of an entry tests: each direction once, and a call that is due is made. -/
structure Tests (visit : S → α → Except E (S × List (Check S D) × Option α)) (fine : S → α → Prop)
    (due : α → S → D → Prop) (a : α) : Prop where
  nodup : ∀ s s' checks next, fine s a → visit s a = .ok (s', checks, next) → (checks.map Check.dir).Nodup
  all : ∀ s s' checks next, fine s a → visit s a = .ok (s', checks, next) → ∀ d, d ∈ checks.map Check.dir
  called : ∀ s s' checks next, fine s a → visit s a = .ok (s', checks, next) →
    ∀ t ∈ checks, due a t.state t.dir → t.called = true

/-- What a walk goes by: what is ahead of an entry of the list is a part of the list, without the
entry and in order, and the next entry is the first one ahead. -/
structure Ordered (visit : S → α → Except E (S × List (Check S D) × Option α)) (list : S → List α)
    (ahead : S → α → List α) (fine : S → α → Prop) (I : S → Prop) (U : Finset α) : Prop where
  mem : ∀ s a, I s → a ∈ list s → ∀ b ∈ ahead s a, b ∈ list s
  self : ∀ s a, I s → a ∉ ahead s a
  cons : ∀ s a b l, I s → ahead s a = b :: l → ahead s b = l
  size : ∀ s a, I s → a ∈ list s → a ∈ U
  next : ∀ s a s' checks next, I s → a ∈ list s → fine s a → visit s a = .ok (s', checks, next) →
    I s' ∧ next = (ahead s' a).head? ∧ ∀ b ∈ ahead s' a, b ∈ list s'

section Rules

variable [DecidableEq α] {visit : S → α → Except E (S × List (Check S D) × Option α)}
  {list : S → List α} {ahead : S → α → List α} {fine : S → α → Prop} {I : S → Prop} {U : Finset α}
  {seen : List α} {s : S} {a : α} {pos : Option α}

/-- Where a walk stands: the entry that comes next and those ahead of it are not visited yet. -/
structure Stands (list : S → List α) (ahead : S → α → List α) (U : Finset α) (seen : List α) (s : S)
    (pos : Option α) : Prop where
  nodup : seen.Nodup
  visited : ∀ b ∈ seen, b ∈ U
  mem : ∀ a, pos = some a → a ∈ list s
  fresh : ∀ a, pos = some a → ∀ b ∈ a :: ahead s a, b ∉ seen

omit [DecidableEq α] in
/-- **One visit.** -/
theorem Ordered.stands {s' : S} {checks : List (Check S D)} {next : Option α}
    (h : Ordered visit list ahead fine I U) (hI : I s) (hs : Stands list ahead U seen s (some a)) (hf : fine s a)
    (hfresh : ∀ b ∈ ahead s' a, b ∉ seen) (hv : visit s a = .ok (s', checks, next)) :
    I s' ∧ next = (ahead s' a).head? ∧ Stands list ahead U (a :: seen) s' next := by
  obtain ⟨hI', hnext, hmem⟩ := h.next s a s' checks next hI (hs.mem a rfl) hf hv
  have hself := h.self s' a hI'
  -- the one that comes next is the first ahead
  have hahead : ∀ b, next = some b → ∀ c ∈ b :: ahead s' b, c ∈ ahead s' a := by
    intro b hb c hc
    rw [hnext] at hb
    cases hl : ahead s' a with
    | nil => rw [hl] at hb; cases hb
    | cons x l =>
      rw [hl, List.head?_cons] at hb
      obtain rfl := Option.some.inj hb
      rw [h.cons s' a x l hI' hl] at hc
      exact hc
  refine ⟨hI', hnext, ⟨?_, ?_, ?_, ?_⟩⟩
  · exact List.nodup_cons.2 ⟨hs.fresh a rfl a List.mem_cons_self, hs.nodup⟩
  · intro b hb
    rcases List.mem_cons.1 hb with rfl | hb
    · exact h.size s b hI (hs.mem b rfl)
    · exact hs.visited b hb
  · intro b hb
    exact hmem b (hahead b hb b List.mem_cons_self)
  · intro b hb c hc
    have hc := hahead b hb c hc
    rw [List.mem_cons, not_or]
    refine ⟨?_, hfresh c hc⟩
    rintro rfl
    exact hself hc

/-- **A steady walk ends.** -/
theorem walk_ends (h : Ordered visit list ahead fine I U) : ∀ (n : ℕ) (seen : List α) (s : S)
    (pos : Option α), I s → Stands list ahead U seen s pos → U.card < n + seen.length →
    Steady list ahead fine seen (walk visit n pos s).1 → (walk visit n pos s).2 ≠ .running := by
  intro n
  induction n with
  | zero =>
    intro seen s pos _ hs hn
    -- so many entries are not there
    have hsub : seen.toFinset ⊆ U := fun b hb => hs.visited b (List.mem_toFinset.1 hb)
    have hle := Finset.card_le_card hsub
    rw [List.toFinset_card_of_nodup hs.nodup] at hle
    omega
  | succ n ih =>
    intro seen s pos hI hs hn hst
    cases pos with
    | none =>
      intro hr
      cases hr
    | some a =>
      rw [walk] at hst ⊢
      cases hv : visit s a with
      | error e =>
        intro hr
        cases hr
      | ok res =>
        obtain ⟨s', checks, next⟩ := res
        rw [hv] at hst
        obtain ⟨hf, -, hfresh, hst⟩ := hst
        obtain ⟨hI', -, hs'⟩ := h.stands hI hs hf hfresh hv
        exact ih (a :: seen) s' next hI' hs' (by rw [List.length_cons]; omega) hst

omit [DecidableEq α] in
/-- No entry is visited twice. -/
theorem not_visited (h : Ordered visit list ahead fine I U) : ∀ (n : ℕ) (seen : List α) (s : S)
    (pos : Option α), I s → Stands list ahead U seen s pos →
    Steady list ahead fine seen (walk visit n pos s).1 →
    ∀ v ∈ (walk visit n pos s).1, v.entry ∉ seen := by
  intro n
  induction n with
  | zero =>
    intro seen s pos _ _ _ v hv
    cases pos <;> cases hv
  | succ n ih =>
    intro seen s pos hI hs hst v hmem
    cases pos with
    | none => cases hmem
    | some a =>
      rw [walk] at hst hmem
      cases hv : visit s a with
      | error e => rw [hv] at hmem; cases hmem
      | ok res =>
        obtain ⟨s', checks, next⟩ := res
        rw [hv] at hst hmem
        obtain ⟨hf, -, hfresh, hst⟩ := hst
        obtain ⟨hI', -, hs'⟩ := h.stands hI hs hf hfresh hv
        rcases List.mem_cons.1 hmem with rfl | hmem
        · exact hs.fresh a rfl a List.mem_cons_self
        · have := ih (a :: seen) s' next hI' hs' hst v hmem
          exact fun hin => this (List.mem_cons_of_mem _ hin)

/-- **A steady walk that ends has come to every entry ahead once**, when no other visit takes it
off. -/
theorem walk_once (h : Ordered visit list ahead fine I U) : ∀ (n : ℕ) (seen : List α) (s : S)
    (pos : Option α), I s → Stands list ahead U seen s pos →
    Steady list ahead fine seen (walk visit n pos s).1 → ∀ s', (walk visit n pos s).2 = .ended s' →
    ∀ a, pos = some a → ∀ b ∈ a :: ahead s a, Stays list (walk visit n pos s).1 b →
    ∃ v, (walk visit n pos s).1.filter (fun v => v.entry = b) = [v] := by
  intro n
  induction n with
  | zero =>
    intro seen s pos _ _ _ s' he a ha
    subst ha
    cases he
  | succ n ih =>
    intro seen s pos hI hs hst s'' he a ha b hb hstay
    subst ha
    rw [walk] at hst he hstay ⊢
    cases hv : visit s a with
    | error e => rw [hv] at he; cases he
    | ok res =>
      obtain ⟨s', checks, next⟩ := res
      rw [hv] at hst he hstay
      obtain ⟨hf, hkeep, hfresh, hst⟩ := hst
      obtain ⟨hI', hnext, hs'⟩ := h.stands hI hs hf hfresh hv
      simp only
      by_cases hab : b = a
      · -- its own visit, and no other one
        subst hab
        refine ⟨⟨b, s, checks, s'⟩, ?_⟩
        rw [List.filter_cons_of_pos (by simp), List.filter_eq_nil_iff.2]
        intro v hv'
        have := not_visited h n (b :: seen) s' next hI' hs' hst v hv'
        simp only [decide_eq_true_eq]
        exact fun he => this (by rw [he]; exact List.mem_cons_self)
      · have hb : b ∈ ahead s a := (List.mem_cons.1 hb).resolve_left hab
        have hb' : b ∈ ahead s' a :=
          hkeep b hb (hstay _ List.mem_cons_self (fun hc => hab hc.symm) (h.mem s a hI (hs.mem a rfl) b hb))
        rw [List.filter_cons_of_neg (by simpa using fun hc => hab hc.symm)]
        -- it is among those the walk goes on with
        cases hl : ahead s' a with
        | nil => rw [hl] at hb'; cases hb'
        | cons x l =>
          rw [hl] at hb' hnext
          refine ih (a :: seen) s' next hI' hs' hst s'' he x hnext b ?_ fun v hv' =>
            hstay v (List.mem_cons_of_mem _ hv')
          rw [h.cons s' a x l hI' hl]
          exact hb'

/-! ### What is called -/

omit [DecidableEq α] in
theorem serve_checks {test : S → D → Except E Bool} {call : S → D → Except E S} : ∀ (ds : List D) (s s' : S)
    (checks : List (Check S D)), serve test call ds s = .ok (s', checks) →
    checks.map Check.dir = ds ∧ ∀ t ∈ checks, test t.state t.dir = .ok t.called := by
  intro ds
  induction ds with
  | nil =>
    intro s s' checks h
    cases h
    exact ⟨rfl, by rintro t ⟨⟩⟩
  | cons d ds ih =>
    intro s s' checks h
    unfold serve at h
    split at h
    · cases h
    rename_i b hb
    split at h
    · cases h
    rename_i s₁ hs₁
    cases hr : serve test call ds s₁ with
    | error e => rw [hr] at h; cases h
    | ok r =>
      rw [hr] at h
      cases h
      obtain ⟨h1, h2⟩ := ih s₁ r.1 r.2 hr
      refine ⟨by rw [List.map_cons, h1], fun t ht => ?_⟩
      rcases List.mem_cons.1 ht with rfl | ht
      · exact hb
      · exact h2 t ht

omit [DecidableEq α] in
/-- A visit that tests every direction once, and finds what is due. -/
theorem Tests.of_serve (test : S → D → Except E Bool) {ds : List D} {due : α → S → D → Prop}
    (hnd : ds.Nodup) (hall : ∀ d, d ∈ ds)
    (hserve : ∀ s s' checks next, fine s a → visit s a = .ok (s', checks, next) →
      ∃ call s₀ s₁, serve test call ds s₀ = .ok (s₁, checks))
    (hdue : ∀ s d b, due a s d → test s d = .ok b → b = true) : Tests visit fine due a where
  nodup s s' checks next hf hv := by
    obtain ⟨_, s₀, s₁, hs⟩ := hserve s s' checks next hf hv
    rw [(serve_checks ds s₀ s₁ checks hs).1]
    exact hnd
  all s s' checks next hf hv d := by
    obtain ⟨_, s₀, s₁, hs⟩ := hserve s s' checks next hf hv
    rw [(serve_checks ds s₀ s₁ checks hs).1]
    exact hall d
  called s s' checks next hf hv t ht hd := by
    obtain ⟨_, s₀, s₁, hs⟩ := hserve s s' checks next hf hv
    exact hdue t.state t.dir t.called hd ((serve_checks ds s₀ s₁ checks hs).2 t ht)

omit [DecidableEq α] in
/-- What the calls keep, a visit keeps. -/
theorem serve_inv {test : S → D → Except E Bool} {call : S → D → Except E S} {J : S → Prop}
    (hcall : ∀ s d s', J s → call s d = .ok s' → J s') : ∀ (ds : List D) (s s' : S)
    (checks : List (Check S D)), J s → serve test call ds s = .ok (s', checks) → J s' := by
  intro ds
  induction ds with
  | nil =>
    intro s s' checks hJ h
    cases h
    exact hJ
  | cons d ds ih =>
    intro s s' checks hJ h
    unfold serve at h
    split at h
    · cases h
    rename_i b hb
    split at h
    · cases h
    rename_i s₁ hs₁
    have hJ₁ : J s₁ := by
      cases b with
      | false => cases hs₁; exact hJ
      | true => exact hcall s d s₁ hJ hs₁
    cases hr : serve test call ds s₁ with
    | error e => rw [hr] at h; cases h
    | ok r =>
      rw [hr] at h
      cases h
      exact ih s₁ r.1 r.2 hJ₁ hr

omit [DecidableEq α] in
/-- What is recorded of a visit. -/
theorem walk_visit : ∀ (n : ℕ) (pos : Option α) (s : S), ∀ v ∈ (walk visit n pos s).1,
    ∃ next, visit v.before v.entry = .ok (v.after, v.checks, next) := by
  intro n
  induction n with
  | zero => intro pos s v hv; cases pos <;> cases hv
  | succ n ih =>
    intro pos s v hmem
    cases pos with
    | none => cases hmem
    | some a =>
      rw [walk] at hmem
      cases hv : visit s a with
      | error e => rw [hv] at hmem; cases hmem
      | ok res =>
        obtain ⟨s', checks, next⟩ := res
        rw [hv] at hmem
        rcases List.mem_cons.1 hmem with rfl | hmem
        · exact ⟨next, hv⟩
        · exact ih next s' v hmem

omit [DecidableEq α] in
theorem Steady.each : ∀ {seen : List α} {visits : List (Visit S α D)},
    Steady list ahead fine seen visits → ∀ v ∈ visits, fine v.before v.entry := by
  intro seen visits
  induction visits generalizing seen with
  | nil =>
    rintro _ v ⟨⟩
  | cons v visits ih =>
    rintro ⟨hf, -, -, hst⟩ w hw
    rcases List.mem_cons.1 hw with rfl | hw
    · exact hf
    · exact ih hst w hw

omit [DecidableEq α] in
/-- A walk that was over after `k` visits makes the same ones, or fewer. -/
theorem Steady.of_over {k : ℕ} (hover : (walk visit k pos s).2.over = true)
    (h : Steady list ahead fine seen (walk visit k pos s).1) (n : ℕ) :
    Steady list ahead fine seen (walk visit n pos s).1 := by
  induction k generalizing n pos s seen with
  | zero =>
    cases pos with
    | none => cases n <;> trivial
    | some a => cases hover
  | succ k ih =>
    cases pos with
    | none => cases n <;> trivial
    | some a =>
      cases n with
      | zero => trivial
      | succ n =>
        rw [walk] at hover h ⊢
        cases hv : visit s a with
        | error e => trivial
        | ok res =>
          rw [hv] at hover h
          obtain ⟨hfine, hwaits, hfresh, hrest⟩ := h
          exact ⟨hfine, hwaits, hfresh, ih hover hrest n⟩

variable [DecidableEq D]

/-- The calls for an entry come from its visits. -/
theorem calls_count (visits : List (Visit S α D)) (a : α) (d : D) :
    (calls visits).count (a, d) = (calls (visits.filter fun v => v.entry = a)).count (a, d) := by
  induction visits with
  | nil => rfl
  | cons v visits ih =>
    unfold calls at ih ⊢
    rw [List.flatMap_cons, List.count_append, ih]
    by_cases hv : v.entry = a
    · rw [List.filter_cons_of_pos (by simpa using hv), List.flatMap_cons, List.count_append]
    · rw [List.filter_cons_of_neg (by simpa using hv), List.count_eq_zero_of_not_mem, Nat.zero_add]
      intro hm
      obtain ⟨t, -, ht⟩ := List.mem_map.1 hm
      exact hv (Prod.mk.inj ht).1

/-- **One visit in which the call was due is one call.** -/
theorem calls_once {visits : List (Visit S α D)} {v : Visit S α D} {d : D}
    (hv : visits.filter (fun v => v.entry = a) = [v]) (hd : (v.checks.map Check.dir).Nodup)
    (ht : ∃ t ∈ v.checks, t.dir = d ∧ t.called = true) : (calls visits).count (a, d) = 1 := by
  have hmem : v ∈ visits.filter (fun v => v.entry = a) := by rw [hv]; exact List.mem_cons_self
  obtain rfl : v.entry = a := by simpa using (List.mem_filter.1 hmem).2
  obtain ⟨t, ht, rfl, hc⟩ := ht
  rw [calls_count, hv]
  unfold calls
  rw [List.flatMap_cons, List.flatMap_nil, List.append_nil]
  refine List.count_eq_one_of_mem ?_ (List.mem_map.2 ⟨t, List.mem_filter.2 ⟨ht, hc⟩, rfl⟩)
  have hsub : ((v.checks.filter Check.called).map Check.dir).Nodup :=
    hd.sublist (List.filter_sublist.map Check.dir)
  have := hsub.map (f := fun d => (v.entry, d)) fun x y h => (Prod.mk.inj h).2
  rwa [List.map_map] at this

/-- **A steady walk serves.** -/
theorem walk_serves (h : Ordered visit list ahead fine I U) (hI : I s) {entries : List α}
    {due : α → S → D → Prop} (hmem : ∀ a, pos = some a → a ∈ list s)
    (hentries : ∀ b ∈ entries, ∃ a, pos = some a ∧ b ∈ a :: ahead s a)
    (htests : ∀ b ∈ entries, Tests visit fine due b)
    (hst : ∀ n, Steady list ahead fine [] (walk visit n pos s).1) :
    Serves (fun n => walk visit n pos s) list entries due := by
  have hs : Stands list ahead U [] s pos := ⟨List.nodup_nil, by simp, hmem, by simp⟩
  refine ⟨⟨U.card + 1, ?_⟩, fun n s' he b hb hstay d hdue => ?_⟩
  · exact walk_ends h (U.card + 1) [] s pos hI hs (by simp) (hst _)
  · obtain ⟨a, ha, hba⟩ := hentries b hb
    obtain ⟨v, hv⟩ := walk_once h n [] s pos hI hs (hst n) s' he a ha b hba hstay
    obtain ⟨hin, hentry⟩ := List.mem_filter.1 (by rw [hv]; exact List.mem_cons_self :
      v ∈ (walk visit n pos s).1.filter (fun v => v.entry = b))
    obtain rfl : v.entry = b := by simpa using hentry
    have hf := (hst n).each v hin
    obtain ⟨next, hvisit⟩ := walk_visit n pos s v hin
    have ht := htests v.entry hb
    -- its test in this direction, and the call
    obtain ⟨t, hmem, hd⟩ := List.mem_map.1 (ht.all _ _ _ _ hf hvisit d)
    have hc := ht.called _ _ _ _ hf hvisit t hmem (by rw [hd]; exact hdue v hin rfl t hmem hd)
    exact calls_once hv (ht.nodup _ _ _ _ hf hvisit) ⟨t, hmem, hd, hc⟩

end Rules

end Walk
