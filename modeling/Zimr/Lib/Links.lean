import Zimr.Lib.Link

/-!
# Many links between two sides

Each side has ends, numbered as they come. `peer` says which two ends are one link; an
end without a peer waits for its other half to be born.

* `AllSound.steps` — steps of one end keep every link sound
* `AllSound.opened`, `AllSound.born` — new ends
-/

namespace Link

variable {β : Type*} {S H : Prop}
variable {ι : Type*} {other : ι → ι} {half half' : ι → ℕ → Half β}
  {peer peer' : ι → ℕ → Option ℕ} {next next' : ι → ℕ} {u : Half β} {s : ι} {a : ℕ}

/-- The other half of an end. -/
def across (other : ι → ι) (u : Half β) (half : ι → ℕ → Half β) (peer : ι → ℕ → Option ℕ) (s : ι)
    (a : ℕ) : Half β :=
  match peer s a with
  | some b => half (other s) b
  | none => u

/-- Every link is sound. -/
def AllSound (S H : Prop) (other : ι → ι) (u : Half β) (half : ι → ℕ → Half β)
    (peer : ι → ℕ → Option ℕ) (next : ι → ℕ) : Prop :=
  ∀ s a, a < next s → Sound S H (half s a) (across other u half peer s a)

/-- Being the other half is mutual. -/
def Mutual (other : ι → ι) (peer : ι → ℕ → Option ℕ) (next : ι → ℕ) : Prop :=
  ∀ s a b, a < next s → peer s a = some b → b < next (other s) ∧ peer (other s) b = some a

/-- **Steps of one end keep all links sound**, when they touch only its own link. -/
theorem AllSound.steps (hinv : ∀ s, other (other s) = s)
    (hside : ∀ s t : ι, t = s ∨ t = other s) (hm : Mutual other peer next)
    (h : AllSound S H other u half peer next) (ha : a < next s)
    (hsame : ∀ b, b ≠ a → half' s b = half s b)
    (hother : ∀ b, peer s a ≠ some b → half' (other s) b = half (other s) b)
    (hs : Steps S H (half s a) (across other u half peer s a) (half' s a)
      (across other u half' peer s a)) :
    AllSound S H other u half' peer next := by
  have hnew := (h s a ha).steps hs
  intro t b hb
  rcases hside s t with rfl | rfl
  · by_cases hba : b = a
    · subst hba; exact hnew
    · have hold := h t b hb
      unfold across at hold ⊢
      rw [hsame b hba]
      cases hp : peer t b with
      | none => rw [hp] at hold; exact hold
      | some c =>
        rw [hp] at hold
        have hc : peer t a ≠ some c := fun hac => by
          have h1 := (hm t b c hb hp).2
          have h2 := (hm t a c ha hac).2
          rw [h1] at h2; exact hba (Option.some.inj h2)
        simp only
        rw [hother c hc]; exact hold
  · cases hpb : peer (other s) b with
    | none =>
      have hpa : peer s a ≠ some b := fun hab => by
        rw [(hm s a b ha hab).2] at hpb; cases hpb
      have hold := h (other s) b hb
      unfold across at hold ⊢
      rw [hpb] at hold ⊢
      rw [hother b hpa]; exact hold
    | some c =>
      obtain ⟨hc, hcp⟩ := hm (other s) b c hb hpb
      rw [hinv] at hcp
      by_cases hca : c = a
      · subst hca
        unfold across at hnew ⊢
        rw [hcp] at hnew
        rw [hpb]
        simp only [hinv] at hnew ⊢
        exact hnew.symm
      · have hpa : peer s a ≠ some b := fun hab => by
          rw [(hm s a b ha hab).2] at hpb; cases hpb; exact hca rfl
        have hold := h (other s) b hb
        unfold across at hold ⊢
        rw [hpb] at hold ⊢
        simp only [hinv] at hold ⊢
        rw [hother b hpa, hsame c hca]; exact hold

/-- What a link looks like depends on its two ends only. -/
theorem across_congr {t : ι} {b : ℕ} (hp : peer' t b = peer t b)
    (hh : ∀ c, peer t b = some c → half' (other t) c = half (other t) c) :
    across other u half' peer' t b = across other u half peer t b := by
  unfold across
  rw [hp]
  cases hpb : peer t b with
  | none => rfl
  | some c => exact hh c hpb

/-- **An end opens a link.** -/
theorem AllSound.opened {v s₂ : Bool} (hm : Mutual other peer next)
    (h : AllSound S H other (.unborn s₂) half peer next)
    (hold : ∀ t b, b < next t → half' t b = half t b ∧ peer' t b = peer t b)
    (hnext : ∀ t b, b < next' t → b < next t ∨ (t = s ∧ b = next s))
    (hnew : half' s (next s) = .opened v) (hpeer : peer' s (next s) = none) :
    AllSound S H other (.unborn s₂) half' peer' next' := by
  intro t b hb
  rcases hnext t b hb with hb | ⟨rfl, rfl⟩
  · rw [(hold t b hb).1, across_congr (hold t b hb).2
      fun c hc => (hold _ c (hm t b c hb hc).1).1]
    exact h t b hb
  · unfold across
    rw [hpeer, hnew]
    exact Sound.start v s₂

/-- **An end is born**, the other half of the end `a` that has waited for it. -/
theorem AllSound.born (hinv : ∀ s, other (other s) = s) (hm : Mutual other peer next)
    (h : AllSound S H other u half peer next) (ha : a < next (other s))
    (hpa : peer (other s) a = none)
    (hold : ∀ t b, b < next t → ¬ (t = other s ∧ b = a) →
      half' t b = half t b ∧ peer' t b = peer t b)
    (hnext : ∀ t b, b < next' t → b < next t ∨ (t = s ∧ b = next s))
    (hpeer : peer' s (next s) = some a ∧ peer' (other s) a = some (next s))
    (hs : Steps S H u (half (other s) a) (half' s (next s)) (half' (other s) a)) :
    AllSound S H other u half' peer' next' := by
  have hnew : Sound S H (half' s (next s)) (half' (other s) a) := by
    refine Sound.steps (Sound.symm ?_) hs
    have := h (other s) a ha
    unfold across at this
    rwa [hpa] at this
  intro t b hb
  rcases hnext t b hb with hb | ⟨rfl, rfl⟩
  · by_cases hta : t = other s ∧ b = a
    · obtain ⟨rfl, rfl⟩ := hta
      unfold across
      rw [hpeer.2]
      simp only [hinv]
      exact hnew.symm
    · rw [(hold t b hb hta).1, across_congr (hold t b hb hta).2 fun c hc => ?_]
      · exact h t b hb
      · -- the other half is not `a`, which has none
        obtain ⟨hcn, hcp⟩ := hm t b c hb hc
        refine (hold _ c hcn ?_).1
        rintro ⟨hts, hca⟩
        rw [hts, hca, hpa] at hcp; cases hcp
  · unfold across
    rw [hpeer.1]
    exact hnew

end Link
