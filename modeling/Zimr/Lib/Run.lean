import Mathlib.Data.Nat.Notation

/-!
# Runs of a step function that may fail

`run f s as` takes the steps `as` one after the other and stops at the first
failure. `Along f C s as` says that every step of that run meets the condition
`C` on the state it is taken in. `run_inv` is the induction rule: what holds at the
start and is kept by every f that meets `C` holds wherever the run ends. Steps that lose
weight come to an end (`length_le_weight`, `exists_rest`).
-/

namespace Run

variable {S A E : Type*}

/-- The run over a list of actions. -/
def run (f : S → A → Except E S) : S → List A → Except E S
  | s, [] => .ok s
  | s, a :: as =>
    match f s a with
    | .ok s' => run f s' as
    | .error e => .error e

/-- Every step of the run meets `C` in the state it is taken in. -/
def Along (f : S → A → Except E S) (C : S → A → Prop) : S → List A → Prop
  | _, [] => True
  | s, a :: as => C s a ∧
    match f s a with
    | .ok s' => Along f C s' as
    | .error _ => True

instance Along.decidable (f : S → A → Except E S) (C : S → A → Prop)
    [∀ s a, Decidable (C s a)] : ∀ s as, Decidable (Along f C s as)
  | _, [] => isTrue trivial
  | s, a :: as =>
    have : Decidable (match f s a with
        | .ok s' => Along f C s' as
        | .error _ => True) :=
      match f s a with
      | .ok s' => Along.decidable f C s' as
      | .error _ => isTrue trivial
    inferInstanceAs (Decidable (_ ∧ _))

/-- After a part that ended well comes the rest. -/
theorem ok_bind {E α β : Type} (a : α) (f : α → Except E β) : (Except.ok a >>= f) = f a := rfl

/-- A computation that ends well has ended well in its first part. -/
theorem bind_inv {α β : Type*} {x : Except E α} {f : α → Except E β} {b : β}
    (h : x.bind f = .ok b) : ∃ a, x = .ok a ∧ f a = .ok b := by
  cases x with
  | error e => cases h
  | ok a => exact ⟨a, rfl, h⟩

/-- The same for a map. -/
theorem map_inv {α β : Type*} {x : Except E α} {f : α → β} {b : β} (h : x.map f = .ok b) :
    ∃ a, x = .ok a ∧ f a = b := by
  cases x with
  | error e => cases h
  | ok a => exact ⟨a, rfl, Except.ok.inj h⟩

/-- The name of a failure does not matter where there is none. -/
theorem mapError_inv {E' α : Type*} {x : Except E α} {f : E → E'} {a : α}
    (h : x.mapError f = .ok a) : x = .ok a := by
  cases x with
  | error e => cases h
  | ok b => exact congrArg Except.ok (Except.ok.inj h)

section Map

variable {α β γ δ : Type*} {x : Except E α}

/-- A map over a computation goes over its last part. -/
theorem map_bind_same {f : α → Except E β} {g : β → γ} {k : α → Except E γ}
    (h : ∀ a, (f a).map g = k a) : (x.bind f).map g = x.bind k := by
  cases x with
  | error e => rfl
  | ok a => exact h a

/-- The same, when the first part is a map too. -/
theorem map_bind_map {p : α → δ} {y : Except E δ} {f : α → Except E β} {g : β → γ}
    {k : δ → Except E γ} (hx : x.map p = y) (h : ∀ a, (f a).map g = k (p a)) :
    (x.bind f).map g = y.bind k := by
  subst hx
  cases x with
  | error e => rfl
  | ok a => exact h a

/-- What is recorded after the last call. -/
theorem map_bind_pure {f : α → β} {g : β → α} (h : ∀ a, g (f a) = a) :
    (x.bind fun a => .ok (f a)).map g = x := by
  cases x with
  | error e => rfl
  | ok a => exact congrArg _ (h a)

end Map

variable {f : S → A → Except E S} {C : S → A → Prop}

theorem run_cons_ok {s s' : S} {a : A} {as : List A} (h : run f s (a :: as) = .ok s') :
    ∃ t, f s a = .ok t ∧ run f t as = .ok s' := by
  simp only [run] at h
  split at h
  · exact ⟨_, ‹_›, h⟩
  · cases h

theorem Along.cons {s t : S} {a : A} {as : List A} (h : Along f C s (a :: as))
    (ht : f s a = .ok t) : C s a ∧ Along f C t as := by
  simp only [Along, ht] at h
  exact h

/-- **The invariant rule.** -/
theorem run_inv {I : S → Prop} (hstep : ∀ s a s', I s → C s a → f s a = .ok s' → I s') :
    ∀ (as : List A) (s s' : S), I s → Along f C s as → run f s as = .ok s' → I s' := by
  intro as
  induction as with
  | nil => intro s s' hI _ hr; cases hr; exact hI
  | cons a as ih =>
    intro s s' hI hC hr
    obtain ⟨t, ht, hr⟩ := run_cons_ok hr
    obtain ⟨hc, hC⟩ := hC.cons ht
    exact ih t s' (hstep s a t hI hc ht) hC hr

/-- A run of two lists is a run of the first and then of the second. -/
theorem run_append {s s' : S} {as bs : List A} (h : run f s (as ++ bs) = .ok s') :
    ∃ t, run f s as = .ok t ∧ run f t bs = .ok s' := by
  induction as generalizing s with
  | nil => exact ⟨s, rfl, h⟩
  | cons a as ih =>
    obtain ⟨t, ht, hr⟩ := run_cons_ok h
    obtain ⟨u, hu, hr⟩ := ih hr
    exact ⟨u, by simp only [run, ht]; exact hu, hr⟩

theorem run_append_ok {s t : S} {as : List A} (h : run f s as = .ok t) (bs : List A) :
    run f s (as ++ bs) = run f t bs := by
  induction as generalizing s with
  | nil => cases h; rfl
  | cons a as ih =>
    obtain ⟨u, hu, hr⟩ := run_cons_ok h
    simp only [List.cons_append, run, hu]
    exact ih hr

/-- A run of one step. -/
theorem run_single {s t : S} {a : A} (h : f s a = .ok t) : run f s [a] = .ok t := by
  simp only [run, h]

/-- The condition holds along each part of such a run. -/
theorem Along.append {s t : S} {as bs : List A} (h : Along f C s (as ++ bs))
    (ht : run f s as = .ok t) : Along f C s as ∧ Along f C t bs := by
  induction as generalizing s with
  | nil => cases ht; exact ⟨trivial, h⟩
  | cons a as ih =>
    obtain ⟨u, hu, hr⟩ := run_cons_ok ht
    obtain ⟨hc, hC⟩ := Along.cons h hu
    obtain ⟨h1, h2⟩ := ih hC hr
    refine ⟨?_, h2⟩
    simp only [Along, hu]
    exact ⟨hc, h1⟩

/-- A weaker condition holds along the same run. -/
theorem Along.mono {D : S → A → Prop} (hCD : ∀ s a, C s a → D s a) :
    ∀ {as : List A} {s : S}, Along f C s as → Along f D s as := by
  intro as
  induction as with
  | nil => intro _ _; trivial
  | cons a as ih =>
    intro s h
    refine ⟨hCD s a h.1, ?_⟩
    cases hs : f s a with
    | ok t => exact ih (h.cons hs).2
    | error e => trivial

/-- A condition on the actions alone. -/
theorem Along.of_forall {P : A → Prop} :
    ∀ {as : List A} {s : S}, (∀ a ∈ as, P a) → Along f (fun _ a => P a) s as := by
  intro as
  induction as with
  | nil => intro _ _; trivial
  | cons a as ih =>
    intro s h
    refine ⟨h a List.mem_cons_self, ?_⟩
    cases hs : f s a with
    | ok t => exact ih fun b hb => h b (List.mem_cons_of_mem _ hb)
    | error e => trivial

/-- When the condition is that the step does not fail, it holds along the runs that go through, and
then the invariant holds in every state on the way. -/
theorem along_iff {I : S → Prop} (hok : ∀ s a, I s → (C s a ↔ ∃ s', f s a = .ok s'))
    (hstep : ∀ s a s', I s → f s a = .ok s' → I s') : ∀ (as : List A) (s : S), I s →
    (Along f C s as ↔ ∀ pre, pre <+: as → ∃ s', run f s pre = .ok s' ∧ I s') := by
  intro as
  induction as with
  | nil =>
    intro s hI
    refine ⟨fun _ pre hpre => ?_, fun _ => trivial⟩
    rw [List.prefix_nil.1 hpre]
    exact ⟨s, rfl, hI⟩
  | cons a as ih =>
    intro s hI
    constructor
    · intro h pre hpre
      cases pre with
      | nil => exact ⟨s, rfl, hI⟩
      | cons b pre =>
        obtain ⟨rfl, hpre'⟩ := List.cons_prefix_cons.1 hpre
        obtain ⟨t, ht⟩ := (hok s b hI).1 h.1
        obtain ⟨s', hrun, hI'⟩ := (ih t (hstep s b t hI ht)).1 (h.cons ht).2 pre hpre'
        exact ⟨s', by simp only [run, ht]; exact hrun, hI'⟩
    · intro h
      obtain ⟨s', hrun, -⟩ := h [a] (List.cons_prefix_cons.2 ⟨rfl, List.nil_prefix⟩)
      obtain ⟨t, ht, -⟩ := run_cons_ok hrun
      refine ⟨(hok s a hI).2 ⟨t, ht⟩, ?_⟩
      simp only [ht]
      refine (ih t (hstep s a t hI ht)).2 fun pre hpre => ?_
      obtain ⟨s', hrun, hI'⟩ := h (a :: pre) (List.cons_prefix_cons.2 ⟨rfl, hpre⟩)
      simp only [run, ht] at hrun
      exact ⟨s', hrun, hI'⟩

section Rest

variable {I : S → Prop} {w : S → ℕ}

/-- Where every step loses weight, a run has at most as many steps as weight to lose. -/
theorem length_le_weight (hstep : ∀ s a s', I s → f s a = .ok s' → I s')
    (hw : ∀ s a s', I s → C s a → f s a = .ok s' → w s' + 1 ≤ w s) :
    ∀ (as : List A) (s s' : S), I s → Along f C s as → run f s as = .ok s' →
      as.length + w s' ≤ w s := by
  intro as
  induction as with
  | nil => intro s s' _ _ hr; cases hr; simp
  | cons a as ih =>
    intro s s' hI hC hr
    obtain ⟨t, ht, hr⟩ := run_cons_ok hr
    obtain ⟨hc, hC⟩ := hC.cons ht
    have := ih t s' (hstep s a t hI ht) hC hr
    have := hw s a t hI hc ht
    rw [List.length_cons]; omega

/-- And there is a run to a state in which no more step can be taken. -/
theorem exists_rest (hstep : ∀ s a s', I s → f s a = .ok s' → I s')
    (hw : ∀ s a s', I s → C s a → f s a = .ok s' → w s' + 1 ≤ w s) :
    ∀ (n : ℕ) (s : S), I s → w s ≤ n → ∃ as s', Along f C s as ∧ run f s as = .ok s' ∧
      ∀ a, C s' a → ∃ e, f s' a = .error e := by
  intro n
  induction n with
  | zero =>
    intro s hI hn
    refine ⟨[], s, trivial, rfl, fun a hc => ?_⟩
    cases hs : f s a with
    | error e => exact ⟨e, rfl⟩
    | ok t => have := hw s a t hI hc hs; omega
  | succ n ih =>
    intro s hI hn
    by_cases hex : ∃ a t, C s a ∧ f s a = .ok t
    · obtain ⟨a, t, hc, hs⟩ := hex
      obtain ⟨as, s', hC, hr, hrest⟩ := ih t (hstep s a t hI hs)
        (by have := hw s a t hI hc hs; omega)
      refine ⟨a :: as, s', ?_, by simp only [run, hs]; exact hr, hrest⟩
      simp only [Along, hs]
      exact ⟨hc, hC⟩
    · refine ⟨[], s, trivial, rfl, fun a hc => ?_⟩
      cases hs : f s a with
      | error e => exact ⟨e, rfl⟩
      | ok t => exact absurd ⟨a, t, hc, hs⟩ hex

end Rest

/-- For reading off where a concrete run ends. -/
theorem ok_of_toOption {x : Except E S} {s : S} (h : x.toOption = some s) : x = .ok s := by
  cases x with
  | ok t => cases h; rfl
  | error e => cases h

/-- Why a run stopped. -/
def failure : Except E S → Option E
  | .ok _ => none
  | .error e => some e

theorem error_of_failure {x : Except E S} {e : E} (h : failure x = some e) : x = .error e := by
  cases x with
  | ok t => cases h
  | error e => cases h; rfl

end Run
