import Zimr.Proof.Faults

/-!
# No slot is left

When every slot of `msgs` is taken `msg_get_avail_msgid` gives `-1`, and `msg_create` goes on with
that: it writes `msgs[ -1 ]`.

* `open_fails_iff` — `msg_open` stops exactly then
* `full_switch_overruns` — and so does a packet for a new msg
* `opens_fill` — such a switch is reached by calls of `msg_open`
-/

namespace Zimr

open Run

variable {sw sw' : MsgSwitch} {type : ℤ} {j k : ℕ}

/-- Every msgid is in use. -/
def MsgSwitch.Full (sw : MsgSwitch) : Prop :=
  ∀ i, 1 ≤ i → i ≤ fdSetSize - 1 → (sw.msgs i).isSome = true

theorem msgGetAvailMsgid_none : msgGetAvailMsgid sw = none ↔ sw.Full := by
  unfold msgGetAvailMsgid MsgSwitch.Full
  rw [List.find?_range'_eq_none]
  constructor
  · intro h i h₁ h₂
    have hi := h i h₁ (by omega)
    cases hm : sw.msgs i with
    | none => rw [hm] at hi; cases hi
    | some m => rfl
  · intro h i h₁ h₂
    have hi := h i h₁ (by omega)
    cases hm : sw.msgs i with
    | none => rw [hm] at hi; cases hi
    | some m => rfl

/-- **`msg_create` stops exactly when no slot is left.** -/
theorem create_fails_iff : msgCreate sw type = .error .outOfBounds ↔ sw.Full := by
  rw [← msgGetAvailMsgid_none]
  constructor
  · intro h
    cases hj : msgGetAvailMsgid sw with
    | none => rfl
    | some j =>
      -- the object that is written can be looked at
      have hset := (Only.set ({ sw with
        nextAddr := sw.nextAddr + 1
        selectable := Function.update sw.selectable j false } : MsgSwitch) j
          (.fresh sw.nextAddr j type false 0)).get
      obtain ⟨sw', hc, -⟩ := msgCheckSelectability_only hset
      unfold msgCreate at h
      simp only [Msg.fresh] at hc
      simp only [hj, bind, Except.bind, hc] at h
      cases h
  · intro h
    unfold msgCreate
    rw [h]
    rfl

/-- **So does `msg_open`.** -/
theorem open_fails_iff : msgOpen sw type = .error .outOfBounds ↔ sw.Full := by
  have hcreate : msgCreate sw type = .error .outOfBounds ↔ sw.Full := create_fails_iff
  rw [← hcreate]
  constructor
  · intro h
    rcases msgCreate_cases sw type with he | ⟨sw₁, j, h₁, c⟩
    · exact he
    · have hg : sw₁.msgs j = some (.fresh sw.nextAddr j type false 0) := by
        rw [c.msgs, Function.update_self]
      have hset := (Only.set sw₁ j (.fresh sw.nextAddr j type true 0)).get
      obtain ⟨sw', hc, -⟩ := msgCheckSelectability_only hset
      unfold msgOpen at h
      simp only [Msg.fresh] at hc
      simp only [h₁, MsgSwitch.assertMsg, hg, Msg.fresh, bind, Except.bind, hc] at h
      cases h
  · intro h
    unfold msgOpen
    rw [h]
    rfl

/-- **A full switch.** `msg_open`, and a packet for a new msg, write a slot that is not there. -/
theorem full_switch_overruns (sw : MsgSwitch) (hfull : sw.Full) :
    (∀ type, msgOpen sw type = .error .outOfBounds) ∧
      ∀ packet : MsgPacket, packet.msgid < 0 → msgGet sw packet.msgid = none →
        msgSwitchDispatch sw (.pack packet) = .error .outOfBounds := by
  refine ⟨fun type => open_fails_iff.2 hfull, fun packet hneg hnew => ?_⟩
  have hcreate : msgCreate sw packet.type = .error .outOfBounds := create_fails_iff.2 hfull
  simp only [msgSwitchDispatch, hnew, bind, Except.bind]
  rw [if_neg (by omega)]
  by_cases hid : fdSetSize ≤ packet.msgid.natAbs
  · rw [if_pos hid]
    rfl
  · rw [if_neg hid, hcreate]

/-- Every slot is taken, and the peer opens one more. -/
theorem full_switch_overruns_new :
    msgOpen { msgSwitchCreate with msgs := fun i => some (.fresh i i 0 true 0) } 0 =
        .error .outOfBounds ∧
      msgSwitchDispatch { msgSwitchCreate with msgs := fun i => some (.fresh i i 0 true 0) }
        (.pack ⟨-5, 0, [], 0⟩) = .error .outOfBounds := by
  obtain ⟨hopen, hdispatch⟩ := full_switch_overruns
    { msgSwitchCreate with msgs := fun i => some (.fresh i i 0 true 0) } fun _ _ _ => rfl
  exact ⟨hopen 0, hdispatch ⟨-5, 0, [], 0⟩ (by decide) rfl⟩

/-! ## Reaching it -/

/-- `msg_open` as a step. -/
def openStep (sw : MsgSwitch) (type : ℤ) : Except Fault MsgSwitch := (msgOpen sw type).map Prod.fst

/-- The slot that a call takes is the first one that is free. -/
theorem msgOpen_first (h : msgOpen sw type = .ok (sw', j)) : msgGetAvailMsgid sw = some j := by
  obtain ⟨⟨sw₁, i⟩, hc, h⟩ := bind_inv h
  obtain ⟨m, -, h⟩ := bind_inv h
  obtain ⟨sw₂, -, h⟩ := bind_inv h
  obtain rfl : i = j := congrArg Prod.snd (Except.ok.inj h)
  unfold msgCreate at hc
  cases hi : msgGetAvailMsgid sw with
  | none => rw [hi] at hc; cases hc
  | some i' =>
    rw [hi] at hc
    obtain ⟨sw₃, -, hc⟩ := bind_inv hc
    exact congrArg some (congrArg Prod.snd (Except.ok.inj hc))

/-- One call takes the first slot that is free. -/
theorem openStep_fills (hk : k < fdSetSize - 1)
    (h : ∀ i, (sw.msgs i).isSome = true ↔ 1 ≤ i ∧ i ≤ k) (type : ℤ) :
    ∃ sw', openStep sw type = .ok sw' ∧
      ∀ i, (sw'.msgs i).isSome = true ↔ 1 ≤ i ∧ i ≤ k + 1 := by
  have hnot : ¬sw.Full := fun hfull => by
    have hlast := (h (fdSetSize - 1)).1 (hfull _ (by decide) (Nat.le_refl _))
    omega
  rcases msgOpen_cases sw type with he | ⟨sw', j, ho, c⟩
  · exact absurd (open_fails_iff.1 he) hnot
  · have hfirst := msgOpen_first ho
    unfold msgGetAvailMsgid at hfirst
    rw [List.find?_range'_eq_some] at hfirst
    obtain ⟨hfree, -, hbefore⟩ := hfirst
    have hj : j = k + 1 := by
      have hle : j ≤ k + 1 := by
        by_contra hlt
        have hnext := hbefore (k + 1) (by omega) (by omega)
        have hsome : (sw.msgs (k + 1)).isSome = true := by
          cases hm : sw.msgs (k + 1) with
          | none => rw [hm] at hnext; cases hnext
          | some m => rfl
        have hk' := ((h (k + 1)).1 hsome).2
        omega
      have hno : ¬(1 ≤ j ∧ j ≤ k) := by
        intro hj
        have hsome := (h j).2 hj
        rw [c.free] at hsome
        cases hsome
      have hpos := c.slot.1
      omega
    refine ⟨sw', by unfold openStep; rw [ho]; rfl, fun i => ?_⟩
    rw [c.msgs]
    by_cases hi : i = j
    · rw [hi, Function.update_self]
      exact ⟨fun _ => by omega, fun _ => rfl⟩
    · rw [Function.update_of_ne hi, h i]
      omega

/-- **The slots run out.** -/
theorem opens_fill (type : ℤ) : ∀ k, k ≤ fdSetSize - 1 → ∃ sw,
    run openStep msgSwitchCreate (List.replicate k type) = .ok sw ∧
      ∀ i, (sw.msgs i).isSome = true ↔ 1 ≤ i ∧ i ≤ k := by
  intro k
  induction k with
  | zero =>
    intro _
    refine ⟨msgSwitchCreate, rfl, fun i => ⟨fun h => Bool.noConfusion h, fun h => ?_⟩⟩
    omega
  | succ k ih =>
    intro hk
    obtain ⟨sw, hrun, hsome⟩ := ih (by omega)
    obtain ⟨sw', hstep, hsome'⟩ := openStep_fills (by omega) hsome type
    rw [List.replicate_succ']
    exact ⟨sw', (run_append_ok hrun [type]).trans (run_single hstep), hsome'⟩

/-- After as many calls of `msg_open` as there are slots, the next one does not return `-1`. -/
theorem slots_run_out : ∃ sw,
    run openStep msgSwitchCreate (List.replicate (fdSetSize - 1) 0) = .ok sw ∧ sw.Full ∧
      msgOpen sw 0 = .error .outOfBounds := by
  obtain ⟨sw, hrun, hsome⟩ := opens_fill 0 (fdSetSize - 1) (Nat.le_refl _)
  have hfull : sw.Full := fun i h₁ h₂ => (hsome i).2 ⟨h₁, h₂⟩
  exact ⟨sw, hrun, hfull, open_fails_iff.2 hfull⟩

end Zimr
