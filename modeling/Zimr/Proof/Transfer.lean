import Zimr.Proof.Sockets
import Zimr.Spec.Transfer

/-!
# The bytes of a socket
-/

namespace Zimr

open Run

/-! ## The record changes nothing -/

theorem zsReaderT_map (t : Traced) (fd : ℕ) (r : RwRes) :
    (zsReaderT t fd r).map (·.zs) = zsReader t.zs fd r := by
  unfold zsReaderT
  cases hg : t.zs.get fd with
  | error e => simp only [zsReader, hg]; rfl
  | ok zs => exact map_bind_pure fun _ => rfl

theorem zsWriterT_map (t : Traced) (fd : ℕ) (r : RwRes) :
    (zsWriterT t fd r).map (·.zs) = zsWriter t.zs fd r := by
  unfold zsWriterT
  cases hg : t.zs.get fd with
  | error e => simp only [zsWriter, hg]; rfl
  | ok zs => exact map_bind_pure fun _ => rfl

theorem zsInternalWriteT_map (t : Traced) (fd : ℕ) (r₁ r₂ : RwRes) :
    (zsInternalWriteT t fd r₁ r₂).map (·.zs) = zsInternalWrite t.zs fd r₁ r₂ := by
  refine map_bind_same fun zs => ?_
  split
  · refine map_bind_map (p := (·.zs)) ?_ fun t₁ => ?_
    · split
      · exact zsWriterT_map _ _ _
      · rfl
    · cases hz : t₁.zs.zsockets fd with
      | none => rfl
      | some z =>
        refine map_bind_map (p := (·.zs)) ?_ fun t₂ => map_bind_pure fun _ => rfl
        split
        · exact zsReaderT_map _ _ _
        · rfl
  · exact map_bind_same fun σ => map_bind_pure fun _ => rfl

theorem zsInternalReadT_map (t : Traced) (fd : ℕ) (r₁ r₂ : RwRes) :
    (zsInternalReadT t fd r₁ r₂).map (·.zs) = zsInternalRead t.zs fd r₁ r₂ := by
  refine map_bind_same fun zs => ?_
  split
  · refine map_bind_map (p := (·.zs)) ?_ fun t₁ => map_bind_same fun z => ?_
    · split
      · exact zsReaderT_map _ _ _
      · rfl
    · refine map_bind_map (p := (·.zs)) ?_ fun t₂ => ?_
      · split
        · exact zsWriterT_map _ _ _
        · rfl
      · cases hz : t₂.zs.zsockets fd with
        | none => rfl
        | some z₂ => exact map_bind_pure fun _ => rfl
  · exact map_bind_same fun σ => map_bind_pure fun _ => rfl

theorem zsRefillT_map (t : Traced) (fd : ℕ) (r : RwRes) :
    (zsRefillT t fd r).map (·.zs) = zsRefill t.zs fd r := by
  refine map_bind_same fun zs => ?_
  split
  · exact map_bind_map (zsReaderT_map _ _ _) fun t₁ => map_bind_same fun z =>
      map_bind_pure fun _ => rfl
  · rfl

theorem zsReadT_map (t : Traced) (fd n : ℕ) (r : RwRes) :
    (zsReadT t fd n r).map (fun p => (p.1.zs, p.2)) = zsRead t.zs fd n r := by
  unfold zsReadT zsRead
  cases hz : t.zs.zsockets fd with
  | none => rfl
  | some zs =>
    have hrefill : ∀ (t' : Traced) (f : Zs → Zs × Except SockErrno (List UInt8)),
        ((zsRefillT t' fd r).bind fun t₁ => pure (t₁, (f t₁.zs).2)).map (fun p => (p.1.zs, p.2)) =
          (zsRefill t'.zs fd r).bind fun σ => pure (σ, (f σ).2) :=
      fun t' f => map_bind_map (zsRefillT_map t' fd r) fun _ => rfl
    simp only
    split
    · rfl
    split
    · rfl
    cases zs.read.rwErrno with
    | some e => exact hrefill t fun σ => (σ, _)
    | none =>
      simp only
      split
      · split
        · rfl
        · exact hrefill t fun σ => (σ, _)
      · split
        · rfl
        · exact hrefill { t with zs := _ } fun σ => (σ, _)

/-- **The record changes nothing**: the sockets take the same step. -/
theorem Traced.step_map (t : Traced) (a : ZsAct) : (t.step a).map (·.zs) = t.zs.step a := by
  cases a with
  | zsocket addr portno type hdlr ssl k =>
    refine map_bind_same fun p => ?_
    obtain ⟨σ, res⟩ := p
    cases res <;> rfl
  | accept fd => exact map_bind_same fun _ => rfl
  | read fd n r =>
    refine map_bind_map (zsReadT_map t fd n r) fun p => ?_
    obtain ⟨t₁, res⟩ := p
    cases res <;> rfl
  | write fd buf =>
    refine map_bind_same fun p => ?_
    obtain ⟨σ, res⟩ := p
    cases res <;> rfl
  | setRead fd => exact map_bind_pure fun _ => rfl
  | clrRead fd => exact map_bind_pure fun _ => rfl
  | setWrite fd => exact map_bind_pure fun _ => rfl
  | clrWrite fd => exact map_bind_pure fun _ => rfl
  | close fd => exact map_bind_same fun _ => rfl
  | zfdRead fd a r₁ r₂ =>
    simp only [Traced.step, Zs.step]
    split
    · cases t.zs.zfd.readHandler fd with
      | none => rfl
      | some h =>
        cases h with
        | internalAccept => cases a <;> exact map_bind_pure fun _ => rfl
        | internalRead => exact zsInternalReadT_map _ _ _ _
        | internalWrite => rfl
    · rfl
  | zfdWrite fd r₁ r₂ =>
    simp only [Traced.step, Zs.step]
    split
    · cases t.zs.zfd.writeHandler fd with
      | none => rfl
      | some h =>
        cases h with
        | internalWrite => exact zsInternalWriteT_map _ _ _ _
        | internalAccept => rfl
        | internalRead => rfl
    · rfl

end Zimr
