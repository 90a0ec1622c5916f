import Mathlib.Tactic.SplitIfs
import Zimr.Lib.Run
import Zimr.Spec.Switches

/-!
# What a switch keeps

Most functions of `msg_switch.c` leave every object in its slot, with its type, and neither
connect, close nor arm a msg. `Keeps` says so; the functions that do more have their own
statement below.
-/

namespace Zimr

open Run

variable {sw sw₁ sw₂ sw' : MsgSwitch} {j : ℕ} {m m₁ m₂ m' : Msg}

/-- The same msg, as its user sees it. -/
structure Msg.Kept (m m' : Msg) : Prop where
  msgid : m'.msgid = m.msgid
  type : m'.type = m.type
  closed : m'.status.closed = m.status.closed
  connected : m'.status.connected = m.status.connected

theorem Msg.Kept.refl (m : Msg) : m.Kept m := ⟨rfl, rfl, rfl, rfl⟩

theorem Msg.Kept.trans (h₁ : m.Kept m₁) (h₂ : m₁.Kept m₂) : m.Kept m₂ :=
  ⟨h₂.msgid.trans h₁.msgid, h₂.type.trans h₁.type, h₂.closed.trans h₁.closed,
    h₂.connected.trans h₁.connected⟩

/-- Every msg is there as before, and none is new. -/
structure Lives (sw sw' : MsgSwitch) : Prop where
  live : ∀ i m, sw.msgs i = some m → ∃ m', sw'.msgs i = some m' ∧ m.Kept m'
  dead : ∀ i, sw.msgs i = none → sw'.msgs i = none

/-- The interest in them is the same too. -/
structure Keeps (sw sw' : MsgSwitch) : Prop extends Lives sw sw' where
  rd : sw'.activeReadFdSet = sw.activeReadFdSet
  wr : sw'.activeWriteFdSet = sw.activeWriteFdSet

theorem Lives.of_eq (hm : sw'.msgs = sw.msgs) : Lives sw sw' :=
  ⟨fun _ m h => ⟨m, by rw [hm]; exact h, .refl m⟩, fun _ h => by rw [hm]; exact h⟩

theorem Lives.trans (h₁ : Lives sw sw₁) (h₂ : Lives sw₁ sw₂) : Lives sw sw₂ := by
  refine ⟨fun i m hi => ?_, fun i hi => h₂.dead i (h₁.dead i hi)⟩
  obtain ⟨m₁, hm₁, k₁⟩ := h₁.live i m hi
  obtain ⟨m₂, hm₂, k₂⟩ := h₂.live i m₁ hm₁
  exact ⟨m₂, hm₂, k₁.trans k₂⟩

theorem Keeps.of_eq (hm : sw'.msgs = sw.msgs) (hr : sw'.activeReadFdSet = sw.activeReadFdSet)
    (hw : sw'.activeWriteFdSet = sw.activeWriteFdSet) : Keeps sw sw' :=
  ⟨.of_eq hm, hr, hw⟩

theorem Keeps.refl (sw : MsgSwitch) : Keeps sw sw := .of_eq rfl rfl rfl

theorem Keeps.trans (h₁ : Keeps sw sw₁) (h₂ : Keeps sw₁ sw₂) : Keeps sw sw₂ :=
  ⟨h₁.toLives.trans h₂.toLives, h₂.rd.trans h₁.rd, h₂.wr.trans h₁.wr⟩

theorem Keeps.set (h : sw.msgs j = some m) (hk : m.Kept m') : Keeps sw (sw.set j (some m')) := by
  refine ⟨⟨fun i n hi => ?_, fun i hi => ?_⟩, rfl, rfl⟩
  · by_cases he : i = j
    · subst he
      obtain rfl := Option.some.inj (h.symm.trans hi)
      exact ⟨m', by simp [MsgSwitch.set], hk⟩
    · exact ⟨n, by simpa [MsgSwitch.set, he] using hi, .refl n⟩
  · have he : i ≠ j := by
      rintro rfl
      rw [h] at hi
      cases hi
    simpa [MsgSwitch.set, he] using hi

theorem MsgSwitch.assertMsg_ok (h : sw.assertMsg j = .ok m) : sw.msgs j = some m := by
  unfold MsgSwitch.assertMsg at h
  cases hj : sw.msgs j with
  | none => rw [hj] at h; cases h
  | some n => rw [hj] at h; cases h; rfl

/-! ## Internal functions -/

theorem msgCheckSelectability_keeps (hc : msgCheckSelectability sw j = .ok sw') : Keeps sw sw' := by
  obtain ⟨m, -, hc⟩ := bind_inv hc
  simp only [pure, Except.pure] at hc
  split_ifs at hc <;> cases hc <;> exact .of_eq rfl rfl rfl

theorem msgSendResp_keeps {status : RespStatus} (hc : msgSendResp sw j status = .ok sw') :
    Keeps sw sw' := by
  obtain ⟨m, h, hc⟩ := bind_inv hc
  have hm := MsgSwitch.assertMsg_ok h
  have hp : Keeps sw (msgSwitchPushResp sw
      { msgid := m.wireId, status, owner := m.addr, ackOf := m.lastFrom }) := .of_eq rfl rfl rfl
  cases status with
  | discon => cases hc; exact hp
  | ok =>
    cases hn : m.status.needToSendResp with
    | false => rw [hn] at hc; cases hc
    | true =>
      rw [hn] at hc
      cases hc
      exact hp.trans (.set hm ⟨rfl, rfl, rfl, rfl⟩)

theorem msgUpdateStatus_keeps (hc : msgUpdateStatus sw j = .ok sw') : Keeps sw sw' := by
  obtain ⟨m, h, hc⟩ := bind_inv hc
  obtain ⟨sw₁, h₁, hc⟩ := bind_inv hc
  have hk : Keeps sw sw₁ := by
    split at h₁
    · exact msgSendResp_keeps h₁
    · cases h₁; exact .refl sw
  obtain ⟨m₁, hm₁, hc⟩ := bind_inv hc
  have hj := MsgSwitch.assertMsg_ok hm₁
  simp only [pure, Except.pure] at hc
  split at hc
  · cases hc
    have hw : Keeps sw₁ (sw₁.set j (some { m₁ with status.writing := true })) :=
      .set hj ⟨rfl, rfl, rfl, rfl⟩
    exact (hk.trans hw).trans (.of_eq rfl rfl rfl)
  · cases hc; exact hk

/-- The end that the four functions on the queues share. -/
theorem Keeps.check_update (h : Keeps sw sw₁) (h₁ : msgCheckSelectability sw₁ j = .ok sw₂)
    (h₂ : msgUpdateStatus sw₂ j = .ok sw') : Keeps sw sw' :=
  (h.trans (msgCheckSelectability_keeps h₁)).trans (msgUpdateStatus_keeps h₂)

theorem msgPushWritPacket_keeps (hc : msgPushWritPacket sw j = .ok sw') : Keeps sw sw' := by
  obtain ⟨m, h, hc⟩ := bind_inv hc
  split at hc
  · cases hc
  · obtain ⟨sw₁, h₁, hc⟩ := bind_inv hc
    exact (Keeps.set (MsgSwitch.assertMsg_ok h) (by exact ⟨rfl, rfl, rfl, rfl⟩)).check_update h₁ hc

theorem msgPopWritPacket_keeps {p : MsgPacket} (hc : msgPopWritPacket sw j = .ok (sw', p)) :
    Keeps sw sw' := by
  obtain ⟨m, h, hc⟩ := bind_inv hc
  split at hc
  · cases hc
  · obtain ⟨sw₁, h₁, hc⟩ := bind_inv hc
    obtain ⟨sw₂, h₂, hc⟩ := bind_inv hc
    cases hc
    exact (Keeps.set (MsgSwitch.assertMsg_ok h) (by exact ⟨rfl, rfl, rfl, rfl⟩)).check_update h₁ h₂

theorem msgPushReadPacket_keeps {p : MsgPacket} (hc : msgPushReadPacket sw j p = .ok sw') :
    Keeps sw sw' := by
  obtain ⟨m, h, hc⟩ := bind_inv hc
  obtain ⟨sw₁, h₁, hc⟩ := bind_inv hc
  exact (Keeps.set (MsgSwitch.assertMsg_ok h) (by exact ⟨rfl, rfl, rfl, rfl⟩)).check_update h₁ hc

theorem msgPopReadPacket_keeps (hc : msgPopReadPacket sw j = .ok sw') : Keeps sw sw' := by
  obtain ⟨m, h, hc⟩ := bind_inv hc
  obtain ⟨sw₁, h₁, hc⟩ := bind_inv hc
  exact (Keeps.set (MsgSwitch.assertMsg_ok h) (by exact ⟨rfl, rfl, rfl, rfl⟩)).check_update h₁ hc

theorem msgPacketNew_keeps (hc : msgPacketNew sw j = .ok sw') : Keeps sw sw' := by
  obtain ⟨m, -, hc⟩ := bind_inv hc
  obtain ⟨sw₁, h₁, hc⟩ := bind_inv hc
  have hk : Keeps sw sw₁ := by
    split at h₁
    · exact msgPushWritPacket_keeps h₁
    · cases h₁; exact .refl sw
  obtain ⟨m₁, hm₁, hc⟩ := bind_inv hc
  cases hc
  exact hk.trans (.set (MsgSwitch.assertMsg_ok hm₁) ⟨rfl, rfl, rfl, rfl⟩)

theorem msgClear_keeps (hc : msgClear sw j = .ok sw') : Keeps sw sw' := by
  obtain ⟨m, h, hc⟩ := bind_inv hc
  have hm := MsgSwitch.assertMsg_ok h
  -- whatever becomes of the queue of pointers
  have hset : ∀ (sw₁ : MsgSwitch) (m' : Msg), sw₁.msgs = sw.msgs →
      sw₁.activeReadFdSet = sw.activeReadFdSet → sw₁.activeWriteFdSet = sw.activeWriteFdSet →
      m.Kept m' → Keeps sw (sw₁.set j (some m')) := by
    intro sw₁ m' he hr hw hk
    exact (Keeps.of_eq he hr hw).trans (.set (by rw [he]; exact hm) hk)
  refine Keeps.trans (hset _ _ ?_ ?_ ?_ ?_) (msgCheckSelectability_keeps hc)
  · dsimp only; split_ifs <;> rfl
  · dsimp only; split_ifs <;> rfl
  · dsimp only; split_ifs <;> rfl
  · exact ⟨rfl, rfl, rfl, rfl⟩

theorem msgFlush_keeps {r : Except Errno ℕ} (hc : msgFlush sw j = .ok (sw', r)) : Keeps sw sw' := by
  unfold msgFlush at hc
  cases hj : sw.msgs j with
  | none => rw [hj] at hc; cases hc; exact .refl sw
  | some m =>
    rw [hj] at hc
    simp only at hc
    split at hc
    · cases hc; exact .refl sw
    · split at hc
      · obtain ⟨sw₁, h₁, hc⟩ := bind_inv hc
        cases hc
        exact msgPushWritPacket_keeps h₁
      · cases hc; exact .refl sw

theorem msgDrainWrit_keeps : ∀ (n : ℕ) (sw : MsgSwitch), msgDrainWrit n sw j = .ok sw' → Keeps sw sw' := by
  intro n
  induction n with
  | zero => intro sw hc; cases hc; exact .refl _
  | succ n ih =>
    intro sw hc
    obtain ⟨m, -, hc⟩ := bind_inv hc
    split at hc
    · obtain ⟨⟨sw₁, p⟩, h₁, hc⟩ := bind_inv hc
      exact (msgPopWritPacket_keeps h₁).trans (ih sw₁ hc)
    · cases hc; exact .refl _

theorem msgDrainRead_keeps : ∀ (n : ℕ) (sw : MsgSwitch), msgDrainRead n sw j = .ok sw' → Keeps sw sw' := by
  intro n
  induction n with
  | zero => intro sw hc; cases hc; exact .refl _
  | succ n ih =>
    intro sw hc
    obtain ⟨m, -, hc⟩ := bind_inv hc
    split at hc
    · obtain ⟨sw₁, h₁, hc⟩ := bind_inv hc
      exact (msgPopReadPacket_keeps h₁).trans (ih sw₁ hc)
    · cases hc; exact .refl _

/-! ## Bytes -/

theorem msgWriteLoop_keeps : ∀ (n : ℕ) (sw : MsgSwitch) (data : List UInt8),
    msgWriteLoop n sw j data = .ok sw' → Keeps sw sw' := by
  intro n
  induction n with
  | zero => intro sw data hc; cases hc; exact .refl _
  | succ n ih =>
    intro sw data hc
    rw [msgWriteLoop] at hc
    split at hc
    · cases hc; exact .refl _
    · obtain ⟨m, -, hc⟩ := bind_inv hc
      obtain ⟨sw₁, h₁, hc⟩ := bind_inv hc
      have hk : Keeps sw sw₁ := by
        split at h₁
        · exact msgPacketNew_keeps h₁
        · cases h₁; exact .refl sw
      obtain ⟨m₁, hm₁, hc⟩ := bind_inv hc
      have hj := MsgSwitch.assertMsg_ok hm₁
      split at hc
      · cases hc
      · refine (hk.trans (.set hj ?_)).trans (ih _ _ hc)
        exact ⟨rfl, rfl, rfl, rfl⟩

theorem msgWrite_keeps {buf : List UInt8} {r : Except Errno ℕ}
    (hc : msgWrite sw j buf = .ok (sw', r)) : Keeps sw sw' := by
  unfold msgWrite at hc
  cases hj : sw.msgs j with
  | none => rw [hj] at hc; cases hc; exact .refl sw
  | some m =>
    rw [hj] at hc
    simp only at hc
    split at hc
    · cases hc; exact .refl sw
    split at hc
    · cases hc; exact .refl sw
    split at hc
    · cases hc; exact .refl sw
    obtain ⟨sw₁, h₁, hc⟩ := bind_inv hc
    have hk : Keeps sw sw₁ := by
      split at h₁
      · exact msgPacketNew_keeps h₁
      · cases h₁; exact .refl sw
    obtain ⟨sw₂, h₂, hc⟩ := bind_inv hc
    cases hc
    exact hk.trans (msgWriteLoop_keeps _ _ _ h₂)

theorem msgReadLoop_keeps : ∀ (n : ℕ) (sw : MsgSwitch) (size : ℕ) (buf buf' : List UInt8),
    msgReadLoop n sw j size buf = .ok (sw', buf') → Keeps sw sw' := by
  intro n
  induction n with
  | zero => intro sw size buf buf' hc; cases hc; exact .refl _
  | succ n ih =>
    intro sw size buf buf' hc
    rw [msgReadLoop] at hc
    split at hc
    · cases hc; exact .refl _
    · obtain ⟨m, h, hc⟩ := bind_inv hc
      have hj := MsgSwitch.assertMsg_ok h
      split at hc
      · cases hc
      · rename_i packet _ _
        -- the position moves on, and the packet may be done with
        have hk : ∀ pos, Keeps sw (sw.set j (some { m with curReadPacketPos := pos })) :=
          fun pos => .set hj ⟨rfl, rfl, rfl, rfl⟩
        generalize (if size < packet.size - m.curReadPacketPos then size
          else packet.size - m.curReadPacketPos) = chunk at hc
        have hk := hk (m.curReadPacketPos + chunk)
        simp only at hc
        split at hc
        · obtain ⟨sw₁, h₁, hc⟩ := bind_inv hc
          have hk₁ := hk.trans (msgPopReadPacket_keeps h₁)
          obtain ⟨m₁, -, hc⟩ := bind_inv hc
          split at hc
          · cases hc; exact hk₁
          · exact hk₁.trans (ih _ _ _ _ hc)
        · exact hk.trans (ih _ _ _ _ hc)

theorem msgRead_keeps {size : ℕ} {r : Except Errno (List UInt8)}
    (hc : msgRead sw j size = .ok (sw', r)) : Keeps sw sw' := by
  unfold msgRead at hc
  cases hj : sw.msgs j with
  | none => rw [hj] at hc; cases hc; exact .refl sw
  | some m =>
    rw [hj] at hc
    simp only at hc
    split at hc
    · cases hc; exact .refl sw
    split at hc
    · cases hc; exact .refl sw
    split at hc
    · cases hc; exact .refl sw
    obtain ⟨⟨sw₁, buf⟩, h₁, hc⟩ := bind_inv hc
    cases hc
    exact msgReadLoop_keeps _ _ _ _ _ h₁

theorem msgSwitchWrite_keeps {frame : Frame} (hc : msgSwitchWrite sw = .ok (sw', frame)) :
    Keeps sw sw' := by
  obtain ⟨⟨sw₁, frame₁⟩, h₁, hc⟩ := bind_inv hc
  have hk : Keeps sw sw₁ := by
    split at h₁
    · cases h₁; exact .of_eq rfl rfl rfl
    · obtain ⟨⟨sw₂, p⟩, h₂, h₁⟩ := bind_inv h₁
      cases h₁
      unfold msgSwitchPopWritPacket at h₂
      split at h₂
      · cases h₂
      · split at h₂
        · cases h₂
        · split at h₂
          · exact Keeps.trans (.of_eq (by rfl) (by rfl) (by rfl)) (msgPopWritPacket_keeps h₂)
          · cases h₂
  cases hc
  refine hk.trans ?_
  show Keeps sw₁ (if _ then _ else _)
  split_ifs
  · exact .of_eq rfl rfl rfl
  · exact .refl sw₁

/-! ## Interest -/

theorem msgSetRead_lives (hc : msgSetRead sw j = .ok sw') : (sw.msgs j).isSome ∧ Lives sw sw' ∧
    sw'.activeReadFdSet = Function.update sw.activeReadFdSet j true ∧
    sw'.activeWriteFdSet = sw.activeWriteFdSet := by
  obtain ⟨m, h, hc⟩ := bind_inv hc
  have hk := msgCheckSelectability_keeps hc
  refine ⟨by rw [MsgSwitch.assertMsg_ok h]; rfl, ?_, hk.rd, hk.wr⟩
  exact Lives.trans (by exact .of_eq rfl) hk.toLives

theorem msgClrRead_lives (hc : msgClrRead sw j = .ok sw') : (sw.msgs j).isSome ∧ Lives sw sw' ∧
    sw'.activeReadFdSet = Function.update sw.activeReadFdSet j false ∧
    sw'.activeWriteFdSet = sw.activeWriteFdSet := by
  obtain ⟨m, h, hc⟩ := bind_inv hc
  have hk := msgCheckSelectability_keeps hc
  refine ⟨by rw [MsgSwitch.assertMsg_ok h]; rfl, ?_, hk.rd, hk.wr⟩
  exact Lives.trans (by exact .of_eq rfl) hk.toLives

theorem msgSetWrite_lives (hc : msgSetWrite sw j = .ok sw') : (sw.msgs j).isSome ∧ Lives sw sw' ∧
    sw'.activeReadFdSet = sw.activeReadFdSet ∧
    sw'.activeWriteFdSet = Function.update sw.activeWriteFdSet j true := by
  obtain ⟨m, h, hc⟩ := bind_inv hc
  have hk := msgCheckSelectability_keeps hc
  refine ⟨by rw [MsgSwitch.assertMsg_ok h]; rfl, ?_, hk.rd, hk.wr⟩
  exact Lives.trans (by exact .of_eq rfl) hk.toLives

theorem msgClrWrite_lives (hc : msgClrWrite sw j = .ok sw') : (sw.msgs j).isSome ∧ Lives sw sw' ∧
    sw'.activeReadFdSet = sw.activeReadFdSet ∧
    sw'.activeWriteFdSet = Function.update sw.activeWriteFdSet j false := by
  obtain ⟨m, h, hc⟩ := bind_inv hc
  have hk := msgCheckSelectability_keeps hc
  refine ⟨by rw [MsgSwitch.assertMsg_ok h]; rfl, ?_, hk.rd, hk.wr⟩
  exact Lives.trans (by exact .of_eq rfl) hk.toLives

/-! ## One slot -/

/-- Nothing but slot `j` was touched, for all that its users see. -/
structure Off (sw sw' : MsgSwitch) (j : ℕ) : Prop where
  live : ∀ i m, i ≠ j → sw.msgs i = some m → ∃ m', sw'.msgs i = some m' ∧ m.Kept m'
  dead : ∀ i, i ≠ j → sw.msgs i = none → sw'.msgs i = none
  rd : ∀ i, i ≠ j → sw'.activeReadFdSet i = sw.activeReadFdSet i
  wr : ∀ i, i ≠ j → sw'.activeWriteFdSet i = sw.activeWriteFdSet i

theorem Off.trans (h₁ : Off sw sw₁ j) (h₂ : Off sw₁ sw₂ j) : Off sw sw₂ j := by
  refine ⟨fun i m hi hm => ?_, fun i hi hn => h₂.dead i hi (h₁.dead i hi hn),
    fun i hi => (h₂.rd i hi).trans (h₁.rd i hi), fun i hi => (h₂.wr i hi).trans (h₁.wr i hi)⟩
  obtain ⟨m₁, hm₁, k₁⟩ := h₁.live i m hi hm
  obtain ⟨m₂, hm₂, k₂⟩ := h₂.live i m₁ hi hm₁
  exact ⟨m₂, hm₂, k₁.trans k₂⟩

theorem Keeps.off (h : Keeps sw sw') (j : ℕ) : Off sw sw' j :=
  ⟨fun i m _ => h.live i m, fun i _ => h.dead i, fun _ _ => by rw [h.rd], fun _ _ => by rw [h.wr]⟩

theorem Off.set (sw : MsgSwitch) (j : ℕ) (o : Option Msg) : Off sw (sw.set j o) j :=
  ⟨fun i m hi hm => ⟨m, by simpa [MsgSwitch.set, hi] using hm, .refl m⟩,
    fun i hi hn => by simpa [MsgSwitch.set, hi] using hn, fun _ _ => rfl, fun _ _ => rfl⟩

theorem Lives.off (h : Lives sw sw') (hr : ∀ i, i ≠ j → sw'.activeReadFdSet i = sw.activeReadFdSet i)
    (hw : ∀ i, i ≠ j → sw'.activeWriteFdSet i = sw.activeWriteFdSet i) : Off sw sw' j :=
  ⟨fun i m _ => h.live i m, fun i _ => h.dead i, hr, hw⟩

theorem msgFree_off (hc : msgFree sw j = .ok sw') : Off sw sw' j ∧ sw'.msgs j = none ∧
    sw'.activeReadFdSet = sw.activeReadFdSet ∧ sw'.activeWriteFdSet = sw.activeWriteFdSet := by
  obtain ⟨sw₁, h₁, hc⟩ := bind_inv hc
  obtain ⟨m, -, hc⟩ := bind_inv hc
  have hk := msgClear_keeps h₁
  -- the counter and the map are not looked at
  have hset : ∀ sw₂ : MsgSwitch, sw₂.msgs = sw₁.msgs → sw₂.activeReadFdSet = sw₁.activeReadFdSet →
      sw₂.activeWriteFdSet = sw₁.activeWriteFdSet → Off sw (sw₂.set j none) j ∧
        (sw₂.set j none).msgs j = none ∧
        (sw₂.set j none).activeReadFdSet = sw.activeReadFdSet ∧
        (sw₂.set j none).activeWriteFdSet = sw.activeWriteFdSet := by
    intro sw₂ he hr hw
    refine ⟨((hk.trans (.of_eq he hr hw)).off j).trans (.set sw₂ j none), ?_, ?_, ?_⟩
    · simp [MsgSwitch.set]
    · exact hr.trans hk.rd
    · exact hw.trans hk.wr
  cases hc
  refine hset _ ?_ ?_ ?_
  · split_ifs <;> rfl
  · split_ifs <;> rfl
  · split_ifs <;> rfl

/-- What `msg_close` leaves in the slot: nothing, or a closed msg. -/
structure Closes (sw sw' : MsgSwitch) (j : ℕ) : Prop where
  off : Off sw sw' j
  slot : ∀ m', sw'.msgs j = some m' → m'.status.closed = true ∧
    ∃ m, sw.msgs j = some m ∧ m'.msgid = m.msgid ∧ m'.type = m.type ∧
      m'.status.connected = m.status.connected
  rd : sw'.activeReadFdSet j = false
  wr : sw'.activeWriteFdSet j = false

theorem Closes.keeps (h : Closes sw sw₁ j) (hk : Keeps sw₁ sw₂) : Closes sw sw₂ j := by
  refine ⟨h.off.trans (hk.off j), fun m' hm' => ?_, by rw [hk.rd]; exact h.rd,
    by rw [hk.wr]; exact h.wr⟩
  cases h₁ : sw₁.msgs j with
  | none => rw [hk.dead j h₁] at hm'; cases hm'
  | some m₁ =>
    obtain ⟨m₂, hm₂, k⟩ := hk.live j m₁ h₁
    obtain rfl := Option.some.inj (hm'.symm.trans hm₂)
    obtain ⟨hcl, m, hm, hid, ht, hcon⟩ := h.slot m₁ h₁
    exact ⟨k.closed.trans hcl, m, hm, k.msgid.trans hid, k.type.trans ht, k.connected.trans hcon⟩

/-- **What `msg_close` does.** -/
theorem msgClose_cases {r : Except Errno ℕ} (hc : msgClose sw j = .ok (sw', r)) :
    (sw' = sw ∧ ∀ m, sw.msgs j = some m → m.status.closed = true) ∨ Closes sw sw' j := by
  unfold msgClose at hc
  cases hj : sw.msgs j with
  | none =>
    rw [hj] at hc
    cases hc
    exact Or.inl ⟨rfl, fun m hm => by cases hm⟩
  | some m =>
    rw [hj] at hc
    simp only at hc
    split at hc
    · rename_i hcl
      cases hc
      exact Or.inl ⟨rfl, fun m' hm' => by cases hm'; exact hcl⟩
    right
    obtain ⟨sw₁, h₁, hc⟩ := bind_inv hc
    obtain ⟨sw₂, h₂, hc⟩ := bind_inv hc
    obtain ⟨-, l₁, r₁, w₁⟩ := msgClrRead_lives h₁
    obtain ⟨-, l₂, r₂, w₂⟩ := msgClrWrite_lives h₂
    have hl : Lives sw sw₂ := l₁.trans l₂
    have hr : sw₂.activeReadFdSet = Function.update sw.activeReadFdSet j false := by rw [r₂, r₁]
    have hw : sw₂.activeWriteFdSet = Function.update sw.activeWriteFdSet j false := by rw [w₂, w₁]
    have hoff : Off sw sw₂ j :=
      hl.off (fun i hi => by rw [hr]; simp [hi]) fun i hi => by rw [hw]; simp [hi]
    have hrj : sw₂.activeReadFdSet j = false := by rw [hr]; simp
    have hwj : sw₂.activeWriteFdSet j = false := by rw [hw]; simp
    -- the msg is freed, here or further down
    have hfree : ∀ sw₃ sw₄ : MsgSwitch, Off sw sw₃ j → sw₃.activeReadFdSet j = false →
        sw₃.activeWriteFdSet j = false → msgFree sw₃ j = .ok sw₄ → Closes sw sw₄ j := by
      intro sw₃ sw₄ ho hr₃ hw₃ hf
      obtain ⟨of, hn, rf, wf⟩ := msgFree_off hf
      refine ⟨ho.trans of, fun m' hm' => ?_, by rw [rf]; exact hr₃, by rw [wf]; exact hw₃⟩
      rw [hn] at hm'
      cases hm'
    split at hc
    · obtain ⟨sw₃, h₃, hc⟩ := bind_inv hc
      cases hc
      exact hfree sw₂ _ hoff hrj hwj h₃
    obtain ⟨⟨sw₃, r₃⟩, h₃, hc⟩ := bind_inv hc
    obtain ⟨m₃, hm₃, hc⟩ := bind_inv hc
    have k₃ := msgFlush_keeps h₃
    have hj₃ := MsgSwitch.assertMsg_ok hm₃
    obtain ⟨m₂, hm₂, kept₂⟩ := hl.live j m hj
    obtain ⟨m₃', hm₃', kept₃⟩ := k₃.live j m₂ hm₂
    obtain rfl := Option.some.inj (hm₃'.symm.trans hj₃)
    have kept := kept₂.trans kept₃
    have hoff₃ := hoff.trans (k₃.off j)
    -- the msg is marked closed
    have hclosed : ∀ m₄ : Msg, m₄.msgid = m₃'.msgid → m₄.type = m₃'.type →
        m₄.status.connected = m₃'.status.connected → m₄.status.closed = true →
        ∀ sw₄ : MsgSwitch, Off sw sw₄ j → sw₄.activeReadFdSet = sw₃.activeReadFdSet →
          sw₄.activeWriteFdSet = sw₃.activeWriteFdSet → Closes sw (sw₄.set j (some m₄)) j := by
      intro m₄ hid ht hcon hcl sw₄ ho hr₄ hw₄
      refine ⟨ho.trans (.set sw₄ j _), fun m' hm' => ?_, ?_, ?_⟩
      · simp only [MsgSwitch.set, Function.update_self] at hm'
        cases hm'
        exact ⟨hcl, m, hj, hid.trans kept.msgid, ht.trans kept.type, hcon.trans kept.connected⟩
      · show sw₄.activeReadFdSet j = false
        rw [hr₄, k₃.rd]
        exact hrj
      · show sw₄.activeWriteFdSet j = false
        rw [hw₄, k₃.wr]
        exact hwj
    have hmark : Closes sw (sw₃.set j (some { m₃' with status.closed := true })) j :=
      hclosed _ (by rfl) (by rfl) (by rfl) (by rfl) sw₃ hoff₃ rfl rfl
    simp only at hc
    split at hc
    · split at hc
      · obtain ⟨sw₄, h₄, hc⟩ := bind_inv hc
        cases hc
        exact hfree _ _ hmark.off hmark.rd hmark.wr h₄
      · obtain ⟨sw₄, h₄, hc⟩ := bind_inv hc
        obtain ⟨sw₅, h₅, hc⟩ := bind_inv hc
        cases hc
        have k₄ := msgSendResp_keeps h₄
        refine Closes.keeps (hclosed _ ?_ ?_ ?_ ?_ sw₄ (hmark.off.trans (k₄.off j)) ?_ ?_)
          (msgDrainRead_keeps _ _ h₅)
        · rfl
        · rfl
        · rfl
        · rfl
        · exact k₄.rd
        · exact k₄.wr
    · obtain ⟨sw₄, h₄, hc⟩ := bind_inv hc
      cases hc
      exact hmark.keeps (msgDrainRead_keeps _ _ h₄)

/-- A msg is new in slot `j`. -/
structure Opens (sw sw' : MsgSwitch) (j : ℕ) (type : ℤ) (connected : Bool) : Prop where
  off : Off sw sw' j
  free : sw.msgs j = none
  pos : 1 ≤ j
  slot : ∃ m', sw'.msgs j = some m' ∧ m'.msgid = j ∧ m'.type = type ∧ m'.status.closed = false ∧
    m'.status.connected = connected
  rd : sw'.activeReadFdSet = sw.activeReadFdSet
  wr : sw'.activeWriteFdSet = sw.activeWriteFdSet

theorem Opens.keeps {type : ℤ} {b : Bool} (h : Opens sw sw₁ j type b) (hk : Keeps sw₁ sw₂) :
    Opens sw sw₂ j type b := by
  obtain ⟨m₁, hm₁, hid, ht, hcl, hcon⟩ := h.slot
  obtain ⟨m₂, hm₂, k⟩ := hk.live j m₁ hm₁
  refine ⟨h.off.trans (hk.off j), h.free, h.pos, ⟨m₂, hm₂, ?_⟩, hk.rd.trans h.rd, hk.wr.trans h.wr⟩
  exact ⟨k.msgid.trans hid, k.type.trans ht, k.closed.trans hcl, k.connected.trans hcon⟩

theorem msgCreate_opens {type : ℤ} (hc : msgCreate sw type = .ok (sw', j)) :
    Opens sw sw' j type false := by
  unfold msgCreate at hc
  split at hc
  · cases hc
  · rename_i msgid havail
    obtain ⟨sw₁, h₁, hc⟩ := bind_inv hc
    cases hc
    have hmem := List.mem_of_find?_eq_some havail
    have hnone := List.find?_some havail
    simp only [List.mem_range'_1, Option.isNone_iff_eq_none] at hmem hnone
    refine Opens.keeps ?_ (msgCheckSelectability_keeps h₁)
    refine ⟨⟨fun i m hi hm => ⟨m, by simpa [MsgSwitch.set, hi] using hm, .refl m⟩,
      fun i hi hn => by simpa [MsgSwitch.set, hi] using hn, fun _ _ => rfl, fun _ _ => rfl⟩, hnone,
      hmem.1, ⟨_, by simp [MsgSwitch.set]; rfl, rfl, rfl, rfl, rfl⟩, rfl, rfl⟩

theorem msgOpen_opens {type : ℤ} (hc : msgOpen sw type = .ok (sw', j)) :
    Opens sw sw' j type true := by
  obtain ⟨⟨sw₁, msgid⟩, h₁, hc⟩ := bind_inv hc
  obtain ⟨m, hm, hc⟩ := bind_inv hc
  obtain ⟨sw₂, h₂, hc⟩ := bind_inv hc
  cases hc
  have ho := msgCreate_opens h₁
  have hj := MsgSwitch.assertMsg_ok hm
  obtain ⟨m₁, hm₁, hid, ht, hcl, -⟩ := ho.slot
  obtain rfl := Option.some.inj (hm₁.symm.trans hj)
  refine Opens.keeps ?_ (msgCheckSelectability_keeps h₂)
  refine ⟨ho.off.trans (.set sw₁ j _), ho.free, ho.pos, ⟨_, by simp [MsgSwitch.set]; rfl, ?_⟩,
    ho.rd, ho.wr⟩
  exact ⟨hid, ht, hcl, rfl⟩

/-- **What `msg_accept` does.** -/
theorem msgAccept_cases {r : Except Errno ℕ} (hc : msgAccept sw j = .ok (sw', r)) :
    (sw' = sw ∧ ∀ m, sw.msgs j = some m → m.status.closed = true ∨ m.status.connected = true) ∨
      ∃ m, sw.msgs j = some m ∧ m.status.connected = false ∧ Off sw sw' j ∧
        sw'.activeReadFdSet = sw.activeReadFdSet ∧ sw'.activeWriteFdSet = sw.activeWriteFdSet ∧
        ∀ m', sw'.msgs j = some m' → m'.msgid = m.msgid ∧ m'.type = m.type ∧
          m'.status.closed = m.status.closed ∧ m'.status.connected = true := by
  unfold msgAccept at hc
  cases hj : sw.msgs j with
  | none =>
    rw [hj] at hc
    cases hc
    exact Or.inl ⟨rfl, fun m hm => by cases hm⟩
  | some m =>
    rw [hj] at hc
    simp only at hc
    split at hc
    · rename_i hcl
      cases hc
      exact Or.inl ⟨rfl, fun m' hm' => by cases hm'; exact Or.inl hcl⟩
    split at hc
    · rename_i hcon
      cases hc
      exact Or.inl ⟨rfl, fun m' hm' => by cases hm'; exact Or.inr hcon⟩
    rename_i hcon
    refine Or.inr ⟨m, rfl, by simpa using hcon, ?_⟩
    split at hc
    · obtain ⟨sw₁, h₁, hc⟩ := bind_inv hc
      cases hc
      obtain ⟨ho, hn, hr, hw⟩ := msgFree_off h₁
      refine ⟨ho, hr, hw, fun m' hm' => ?_⟩
      rw [hn] at hm'
      cases hm'
    · obtain ⟨sw₁, h₁, hc⟩ := bind_inv hc
      cases hc
      have hk := msgCheckSelectability_keeps h₁
      refine ⟨?_, hk.rd, hk.wr, fun m' hm' => ?_⟩
      · have ho := Off.set sw j (some { m with status.connected := true })
        refine ho.trans (Off.trans (Keeps.off ?_ j) (hk.off j))
        exact .of_eq (by rfl) (by rfl) (by rfl)
      · obtain ⟨m₁, hm₁, k⟩ := hk.live j { m with status.connected := true } (by simp [MsgSwitch.set])
        obtain rfl := Option.some.inj (hm'.symm.trans hm₁)
        exact ⟨k.msgid, k.type, k.closed, k.connected⟩

/-- A msg that is found is in its slot. -/
theorem msgGet_slot (hs : ∀ i m, sw.msgs i = some m → m.msgid = i) {id : ℤ}
    (hg : msgGet sw id = some m) : sw.msgs m.msgid = some m := by
  have hslot : ∀ i, sw.msgs i = some m → sw.msgs m.msgid = some m := fun i hi => by
    rw [hs i m hi]
    exact hi
  unfold msgGet at hg
  split_ifs at hg
  · exact hslot _ hg
  · exact hslot _ hg

/-- **What a frame does.** A `DISCON` frees a msg whose own one is sent. -/
theorem msgSwitchDispatch_cases {frame : Frame} (hs : ∀ i m, sw.msgs i = some m → m.msgid = i)
    (hc : msgSwitchDispatch sw frame = .ok sw') :
    Keeps sw sw' ∨
      (∃ resp m, frame = .resp resp ∧ resp.status = .discon ∧ msgGet sw resp.msgid = some m ∧
        m.status.sentDisconnect = true ∧ Off sw sw' m.msgid ∧ sw'.msgs m.msgid = none ∧
        sw'.activeReadFdSet = sw.activeReadFdSet ∧
        sw'.activeWriteFdSet = sw.activeWriteFdSet) ∨
      ∃ packet j, frame = .pack packet ∧ msgGet sw packet.msgid = none ∧
        Opens sw sw' j packet.type false := by
  cases frame with
  | resp resp =>
    cases hg : msgGet sw resp.msgid with
    | none =>
      simp only [msgSwitchDispatch, hg] at hc
      cases hc
      exact Or.inl (.refl _)
    | some m =>
      simp only [msgSwitchDispatch, hg] at hc
      obtain ⟨m₀, hm₀, hc⟩ := bind_inv hc
      have hj := MsgSwitch.assertMsg_ok hm₀
      obtain rfl := Option.some.inj ((msgGet_slot hs hg).symm.trans hj)
      cases hst : resp.status with
      | ok =>
        rw [hst] at hc
        left
        simp only at hc
        split at hc
        · cases hc; exact .refl _
        split at hc
        · cases hc
        obtain ⟨sw₁, h₁, hc⟩ := bind_inv hc
        obtain ⟨sw₂, h₂, hc⟩ := bind_inv hc
        have k₀ : Keeps sw (sw.set m.msgid (some { m with status.waitingForResp := false })) :=
          .set hj ⟨rfl, rfl, rfl, rfl⟩
        refine (k₀.trans ?_).check_update h₂ hc
        split at h₁
        · obtain ⟨⟨sw₃, r₃⟩, h₃, h₁⟩ := bind_inv h₁
          have k₃ := msgFlush_keeps h₃
          obtain ⟨m₃, hm₃, h₁⟩ := bind_inv h₁
          have hj₃ := MsgSwitch.assertMsg_ok hm₃
          simp only at h₁
          split at h₁
          · obtain ⟨sw₄, h₄, h₁⟩ := bind_inv h₁
            cases h₁
            have k₄ := msgSendResp_keeps h₄
            obtain ⟨m₄, hm₄, kept⟩ := k₄.live _ _ hj₃
            refine (k₃.trans k₄).trans (.set hm₄ ?_)
            exact ⟨kept.msgid.symm, kept.type.symm, kept.closed.symm, kept.connected.symm⟩
          · cases h₁; exact k₃
        · cases h₁; exact .refl _
      | discon =>
        rw [hst] at hc
        simp only at hc
        split at hc
        · -- the first one is answered
          left
          obtain ⟨sw₁, h₁, hc⟩ := bind_inv hc
          have k₁ := msgSendResp_keeps h₁
          obtain ⟨m₁, hm₁, kept⟩ := k₁.live _ _ hj
          have k₂ : Keeps sw ({ sw₁ with
              imsgidMap := Function.update sw₁.imsgidMap m.imsgid 0 }.set m.msgid (some { m with
                status.sentDisconnect := true, status.disconnected := true, imsgid := 0 })) := by
            refine (k₁.trans (.of_eq (by rfl) (by rfl) (by rfl))).trans (.set (by exact hm₁) ?_)
            exact ⟨kept.msgid.symm, kept.type.symm, kept.closed.symm, kept.connected.symm⟩
          split at hc
          · exact k₂.trans (msgClear_keeps hc)
          · exact k₂.trans (msgDrainWrit_keeps _ _ hc)
        · rename_i hsent
          exact Or.inr (Or.inl ⟨resp, m, rfl, hst, hg, by simpa using hsent, msgFree_off hc⟩)
  | pack packet =>
    cases hg : msgGet sw packet.msgid with
    | some m =>
      simp only [msgSwitchDispatch, hg] at hc
      exact Or.inl (msgPushReadPacket_keeps hc)
    | none =>
      simp only [msgSwitchDispatch, hg] at hc
      split at hc
      · cases hc
      split at hc
      · cases hc
      obtain ⟨⟨sw₁, msgid⟩, h₁, hc⟩ := bind_inv hc
      obtain ⟨m, hm, hc⟩ := bind_inv hc
      have ho := msgCreate_opens h₁
      have hj := MsgSwitch.assertMsg_ok hm
      refine Or.inr (Or.inr ⟨packet, msgid, rfl, hg, ?_⟩)
      refine Opens.keeps (ho.keeps ?_) (msgPushReadPacket_keeps hc)
      have hid : Keeps sw₁ (sw₁.set msgid (some { m with imsgid := packet.msgid.natAbs })) :=
        .set hj ⟨rfl, rfl, rfl, rfl⟩
      exact hid.trans (.of_eq rfl rfl rfl)

end Zimr
