import Zimr.Proof.NetStep

/-!
# While nothing is closed

As long as no msg is closed every object lives, none has sent or received a disconnect,
and no step is a corner case.

* `NetOK.unclosed_run` — the invariant holds in every run without `msg_close`
* `NetOK.alive`, `NetOK.unclosed` — what it says then
-/

namespace Zimr

open Link (Item Half Stage)

variable {σ σ' : Net} {s : Side} {j x y : ℕ} {m : Msg} {str dns : Bool} {a : Act}

/-- A call of `msg_close`. -/
def Act.closes : Act → Bool
  | .call _ (.close _) => true
  | _ => false

/-- `msg_close` has not returned 0. -/
def Net.Unclosed (σ : Net) : Prop := ∀ s x, (σ.log s x).closed = false

theorem EndLog.record_closed {l : EndLog} {op : Op} {ret : OpRet} (h : l.closed = false)
    (hop : ∀ i, op ≠ .close i) : (l.record op ret).closed = false := by
  unfold EndLog.record
  split
  · exact h
  · exact h
  · exact absurd rfl (hop _)
  · exact h

theorem Net.Unclosed.setLog (h : σ.Unclosed) {l : EndLog} (hl : l.closed = false) :
    (σ.setLog s x l).Unclosed := by
  intro t z
  revert t
  refine Side.forall_of s ?_ ?_
  · rw [Net.setLog_log]
    by_cases hz : z = x
    · subst hz; rw [Function.update_self]; exact hl
    · rw [Function.update_of_ne hz]; exact h s z
  · rw [Net.setLog_log_other]; exact h _ z

theorem Net.Unclosed.step (h : σ.Unclosed) (ha : a.closes = false) (hs : σ.step a = .ok σ') :
    σ'.Unclosed := by
  cases a with
  | call s op =>
    have hop : ∀ i, op ≠ .close i := by rintro i rfl; cases ha
    obtain ⟨⟨sw, ret⟩, h₁, hc⟩ := bind_ok hs
    have h' : (σ.setEp s sw).Unclosed := h
    simp only at hc
    split at hc
    · cases hc; exact h'.setLog rfl
    · cases hc; exact h'
    · split at hc
      · cases hc; exact h'.setLog (EndLog.record_closed (h _ _) hop)
      · cases hc; exact h'
  | writeReady s =>
    simp only [Net.step, Net.writeReady] at hs
    split_ifs at hs
    · obtain ⟨r, -, hc⟩ := bind_ok hs
      cases hc; exact h
    · cases hs; exact h
  | readReady s =>
    simp only [Net.step, Net.readReady] at hs
    split at hs
    · cases hs; exact h
    · obtain ⟨sw, -, hc⟩ := bind_ok hs
      have h' : ∀ w, ((σ.setEp s sw).setChan s.other w).Unclosed := fun _ => h
      split_ifs at hc
      · cases hc; exact h' _
      · cases hc; exact ((h' _).setLog rfl).setLog (h _ _)

/-- The other half of an object, whatever it is, is not closed. -/
theorem NetOK.across_unclosed (hu : σ.Unclosed) (s : Side) (x : ℕ) :
    (Link.across Side.other (.unborn str) (σ.half str) σ.peer s x).clo = false := by
  unfold Link.across
  cases σ.peer s x with
  | none => rfl
  | some y => exact hu _ y

/-- **Every object lives.** -/
theorem NetOK.alive (h : NetOK str dns σ) (hu : σ.Unclosed) (hx : x < σ.made s) :
    ∃ j m, (σ.ep s).msgs j = some m ∧ m.addr = x := by
  rcases MsgSwitch.stage_cases (h.sw s).slots x with ⟨j, m, hj, hm, -⟩ | ⟨-, hg⟩
  · exact ⟨j, m, hj, hm⟩
  · rcases (h.link s x hx).inv.gone hg with hc | hc
    · rw [show (σ.half str s x).clo = _ from hu s x] at hc; cases hc
    · rw [NetOK.across_unclosed hu] at hc; cases hc

/-- **No disconnect is sent or received.** -/
theorem NetOK.unclosed (h : NetOK str dns σ) (hu : σ.Unclosed) (hj : (σ.ep s).msgs j = some m) :
    m.status.closed = false ∧ m.status.sentDisconnect = false ∧ m.status.disconnected = false := by
  have hinv := (h.link s m.addr ((h.sw s).slots.addr _ _ hj)).inv
  have hst := h.stage_live hj
  have hm := (h.sw s).slots.ok _ _ hj
  have hc : m.status.closed = false := by
    cases hc : m.status.closed with
    | false => rfl
    | true =>
      have := (hinv.endx.closed_clo m.view hst).1 hc
      rw [show (σ.half str s m.addr).clo = _ from hu s _] at this; cases this
  have hd : m.status.disconnected = false := by
    cases hd : m.status.disconnected with
    | false => rfl
    | true =>
      have := (hinv.flow'.ended m.view hst hc hd).2
      rw [NetOK.across_unclosed hu] at this; cases this
  exact ⟨hc, hm.not_sent hc hd, hd⟩

/-- No step is a corner case. -/
theorem NetOK.step_unclosed (h : NetOK true false σ) (hu : σ.Unclosed) (ha : a.closes = false)
    (hs : σ.step a = .ok σ') : NetOK true false σ' := by
  refine h.step ?_ (fun _ => ?_) (fun hd => (by cases hd)) hs
  · cases a with
    | call s op =>
      cases op with
      | flush j =>
        simp only [Net.flushesLate, MsgSwitch.flushesLate]
        split
        · rename_i m hj; simp [(h.unclosed hu hj).2.2]
        · rfl
      | _ => rfl
    | _ => rfl
  · cases a with
    | call s op =>
      cases op with
      | close j => cases ha
      | _ => rfl
    | writeReady s => rfl
    | readReady s =>
      simp only [Net.acksLate, Net.next]
      split
      · rfl
      · rename_i f rest hch
        cases f with
        | resp r => rfl
        | pack p =>
          simp only [MsgSwitch.acksLate]
          split
          · rename_i m hg; simp [(h.unclosed hu ((h.sw s).get_slot hg)).2.1]
          · rfl

/-- **The invariant of runs without `msg_close`.** -/
theorem NetOK.unclosed_run {acts : List Act} (hn : ∀ a ∈ acts, a.closes = false)
    (hr : Run.run Net.step Net.init acts = .ok σ) : NetOK true false σ ∧ σ.Unclosed :=
  Run.run_inv (f := Net.step) (C := fun _ a => a.closes = false)
    (I := fun σ => NetOK true false σ ∧ σ.Unclosed)
    (fun _ _ _ h hc hs => ⟨h.1.step_unclosed h.2 hc hs, h.2.step hc hs⟩) acts _ _
    ⟨NetOK.init true false, fun _ _ => rfl⟩ (Run.Along.of_forall hn) hr

end Zimr
