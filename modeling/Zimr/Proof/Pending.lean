import Zimr.Proof.Events

/-!
# `pending_msgs` is the set of msgs being written

For runs of one endpoint, with any calls and any frames: as long as no step is a
`dropsWriting`, the flag `WRITING`, the queue `pending_msgs` and the write interest of
the socket say the same (`pending_exact_of_run`), and a write event finds something to
write. One `dropsWriting` is enough to break it (`pending_not_exact`).
-/

namespace Zimr

open Run

variable {sw : MsgSwitch}

/-- The three copies of one fact agree. -/
structure PendingExact (sw : MsgSwitch) : Prop where
  entry : ∀ p ∈ sw.pendingMsgs, ∃ m, sw.msgs p.msgid = some m ∧ m.ptr = p ∧
    m.status.writing = true ∧ m.writQueue ≠ []
  nodup : sw.pendingMsgs.Nodup
  writing : ∀ j m, sw.msgs j = some m → m.status.writing = true → m.ptr ∈ sw.pendingMsgs
  queued : ∀ j m, sw.msgs j = some m → m.writQueue ≠ [] →
    m.status.writing = true ∨ m.status.waitingForResp = true
  armed : sw.writeArmed = true ↔ sw.pendingMsgs ≠ [] ∨ sw.pendingResps ≠ []

theorem SwOK.pendingExact (h : SwOK True sw) : PendingExact sw where
  entry := fun p hp => by
    obtain ⟨m, hm, rfl⟩ := h.pend.live trivial p hp
    have hc := h.pend.count _ _ hm (Or.inr trivial)
    have hw : m.status.writing = true := by
      cases hw : m.status.writing with
      | true => rfl
      | false =>
        rw [hw] at hc
        exact absurd hp (List.count_eq_zero.1 hc)
    exact ⟨m, hm, rfl, hw, ((h.slots.ok _ _ hm).writing hw).2⟩
  nodup := by
    rw [List.nodup_iff_count_le_one]
    intro p
    by_cases hp : p ∈ sw.pendingMsgs
    · obtain ⟨m, hm, rfl⟩ := h.pend.live trivial p hp
      rw [h.pend.count _ _ hm (Or.inr trivial)]
      exact m.status.writing.toNat_le
    · rw [List.count_eq_zero.2 hp]; omega
  writing := h.pend.writing
  queued := fun j m hm => (h.slots.ok _ _ hm).queued
  armed := by
    rw [h.armed]
    simp [msgSwitchHasAvailWrits]

/-- A step of the endpoint. -/
theorem SwOK.step {strong : Prop} {e : Event} {sw' : MsgSwitch} (h : SwOK strong sw)
    (hD : strong → sw.dropsWritingAt e = false) (hs : sw.step e = .ok sw') : SwOK strong sw' := by
  cases e with
  | call op =>
    obtain ⟨⟨sw₁, ret⟩, h₁, h₂⟩ := bind_ok hs
    cases h₂; exact h.call h₁
  | writeReady =>
    simp only [MsgSwitch.step] at hs
    split_ifs at hs
    · obtain ⟨⟨sw₁, frame⟩, h₁, h₂⟩ := bind_ok hs
      cases h₂; exact h.write h₁
    · cases hs; exact h
  | recv frame => exact h.dispatch hs hD

/-- A write event on an endpoint in order finds a response or a packet. -/
theorem PendingExact.write_ok (h : PendingExact sw) (hs : Slots sw.msgs sw.nextAddr)
    (ha : sw.writeArmed = true) : ∃ sw' frame, msgSwitchWrite sw = .ok (sw', frame) := by
  cases hr : sw.pendingResps with
  | cons r rest => exact ⟨_, _, msgSwitchWrite_resp hr⟩
  | nil =>
    cases hp : sw.pendingMsgs with
    | nil => exact absurd (h.armed.1 ha) (by simp [hr, hp])
    | cons p tail =>
      obtain ⟨m, hm, rfl, -, hq⟩ := h.entry p (by rw [hp]; exact List.mem_cons_self)
      obtain ⟨q, rest, hq⟩ := List.exists_cons_of_ne_nil hq
      have hj : sw.msgs m.msgid = some m := hm
      obtain ⟨sw₁, h₁, -⟩ := msgSwitchWrite_pack hs hr hp hj hq
      exact ⟨_, _, h₁⟩

/-- **The law of `pending_msgs`.** In every run without a `dropsWriting`, whatever the
caller does and the peer sends. -/
theorem pending_exact_of_run (es : List Event) (sw : MsgSwitch)
    (hD : Along MsgSwitch.step (fun sw e => sw.dropsWritingAt e = false) msgSwitchCreate es)
    (hrun : run MsgSwitch.step msgSwitchCreate es = .ok sw) :
    PendingExact sw ∧
      (sw.writeArmed = true → ∃ sw' frame, msgSwitchWrite sw = .ok (sw', frame)) := by
  have h : SwOK True sw := run_inv (fun s e s' hs hC h => hs.step (fun _ => hC) h) es _ _
    SwOK.create hD hrun
  exact ⟨h.pendingExact, h.pendingExact.write_ok h.slots⟩

/-- A msg is opened, written, flushed and sent; its answer comes. -/
def sentAndAcked : List Event :=
  [.call (.open 7), .call (.write 1 [1, 2]), .call (.flush 1), .writeReady,
    .recv (.resp ⟨1, .ok, 0, some 0⟩), .call (.write 1 [3]), .call (.flush 1)]

theorem pending_exact_sentAndAcked :
    ∃ sw, run MsgSwitch.step msgSwitchCreate sentAndAcked = .ok sw ∧ sw.pendingMsgs = [⟨0, 1⟩] ∧
      PendingExact sw ∧
      (sw.writeArmed = true → ∃ sw' frame, msgSwitchWrite sw = .ok (sw', frame)) := by
  obtain ⟨sw, h⟩ : ∃ sw, run MsgSwitch.step msgSwitchCreate sentAndAcked = .ok sw := ⟨_, rfl⟩
  have hp : (run MsgSwitch.step msgSwitchCreate sentAndAcked).toOption.map (·.pendingMsgs) =
      some [⟨0, 1⟩] := by decide
  rw [h] at hp
  exact ⟨sw, h, by simpa [Except.toOption] using hp,
    pending_exact_of_run sentAndAcked sw (by decide) h⟩

/-- `a` opens a msg and sends a packet, which `b` does not read; `b` flushes a packet of its
own; `a` closes, and its disconnect reaches `b` before `b`'s packet is written. -/
def closedWhileWriting : List Act :=
  [.call .a (.open 7), .call .a (.write 1 [1]), .call .a (.flush 1), .writeReady .a, .readReady .b,
    .call .b (.write 1 [2]), .call .b (.flush 1), .call .a (.close 1), .writeReady .a, .readReady .b]

/-- **The law fails** between two endpoints that both run this code: the entry of `b`'s msg
stays in `pending_msgs` with nothing to write, and the write event that comes to it takes
the head of an empty queue. -/
theorem pending_not_exact :
    (∃ σ, run Net.step Net.init closedWhileWriting = .ok σ ∧ ¬ PendingExact (σ.ep .b)) ∧
      run Net.step Net.init
        (closedWhileWriting ++ [.writeReady .b, .writeReady .b, .writeReady .b]) =
          .error .nullDeref := by
  refine ⟨?_, rfl⟩
  obtain ⟨σ, h⟩ : ∃ σ, run Net.step Net.init closedWhileWriting = .ok σ := ⟨_, rfl⟩
  have hp : (run Net.step Net.init closedWhileWriting).toOption.map (fun σ =>
      ((σ.ep .b).pendingMsgs, ((σ.ep .b).msgs 1).map (·.writQueue))) =
      some ([⟨0, 1⟩], some []) := by decide
  rw [h] at hp
  simp only [Except.toOption, Option.map_some, Option.some.injEq, Prod.mk.injEq] at hp
  refine ⟨σ, h, fun hx => ?_⟩
  obtain ⟨m, hm, -, -, hq⟩ := hx.entry ⟨0, 1⟩ (by rw [hp.1]; exact List.mem_cons_self)
  rw [hm] at hp
  exact hq (by simpa using hp.2)

end Zimr
