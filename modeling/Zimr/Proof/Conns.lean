import Zimr.Proof.Refs
import Zimr.Spec.Framing

/-!
# The entry of a connection

An entry of the table comes with an accept, goes with `cleanup_connection`, and is written
by `exread` alone (`step_conns`).
-/

namespace Zimr

open Run

namespace Daemon

variable {d d' : Daemon} {fd : ℕ} {conn : ConnData}

/-- No entry is new and none has changed. -/
def Fewer (d d' : Daemon) : Prop :=
  ∀ i, d'.connections i = d.connections i ∨ d'.connections i = none

theorem SameTabs.fewer (h : SameTabs d d') : Fewer d d' :=
  fun i => Or.inl (by rw [h.connections])

theorem Fewer.refl (d : Daemon) : Fewer d d := fun _ => Or.inl rfl

theorem Fewer.trans {d₁ d₂ : Daemon} (h₁ : Fewer d d₁) (h₂ : Fewer d₁ d₂) : Fewer d d₂ := by
  intro i
  rcases h₂ i with h | h
  · rw [h]; exact h₁ i
  · exact Or.inr h

theorem cleanup_fewer {t : ℤ} (h : d.cleanupConnection t = .ok d') : Fewer d d' :=
  (cleanupConnection_shrinks h).1.connections

theorem removeWebsite_fewer (h : d.removeWebsite fd = .ok d') : Fewer d d' := by
  obtain ⟨-, rfl⟩ | ⟨-, -, hold, -⟩ := removeWebsite_tabs h
  · exact Fewer.refl _
  · intro i
    cases hi : d'.connections i with
    | none => exact Or.inr rfl
    | some conn => exact Or.inl (hold i conn hi).symm

theorem startWebsite_fewer {buf strerror text : List UInt8} {k : SockRes}
    (h : d.startWebsite fd buf k strerror = .ok (d', text)) : Fewer d d' := by
  unfold startWebsite at h
  simp only at h
  split at h
  · cases h
  · split at h
    · cases h; exact Fewer.refl _
    · obtain ⟨port, -, h⟩ := bind_inv h
      obtain ⟨⟨d₁, r⟩, h₁, h⟩ := bind_inv h
      refine (callZs_tabs h₁).fewer.trans ?_
      cases r with
      | error e =>
        obtain ⟨text', -, h⟩ := bind_inv h
        cases h; exact Fewer.refl _
      | ok exlisnfd =>
        obtain ⟨site, -, h⟩ := bind_inv h
        obtain ⟨d₂, h₂, h⟩ := bind_inv h
        cases h
        intro i
        exact (callZs'_tabs h₂).fewer i

theorem commandHandler_fewer {msgid : ℕ} {type : ℤ} {buf strerror : List UInt8} {k : SockRes}
    (h : d.commandHandler fd msgid type buf k strerror = .ok d') : Fewer d d' := by
  unfold commandHandler at h
  split at h
  · obtain ⟨⟨d₁, text⟩, h₁, h⟩ := bind_inv h
    obtain ⟨⟨d₂, n⟩, h₂, h⟩ := bind_inv h
    obtain ⟨⟨d₃, n'⟩, h₃, h⟩ := bind_inv h
    cases h
    exact ((startWebsite_fewer h₁).trans (tryMsg_tabs h₂).fewer).trans (tryMsg_tabs h₃).fewer
  · split at h
    · exact removeWebsite_fewer h
    · cases h; exact Fewer.refl _

theorem switchFailed_fewer (h : d.switchFailed fd = .ok d') : Fewer d d' := by
  obtain ⟨d₁, ht, h⟩ := switchFailed_ok h
  refine ht.fewer.trans ?_
  unfold ioError at h
  split at h
  · exact removeWebsite_fewer h
  · obtain ⟨d₂, h₂, h⟩ := bind_inv h
    obtain ⟨d₃, h₃, h⟩ := bind_inv h
    obtain ⟨⟨d₄, r⟩, h₄, h⟩ := bind_inv h
    cases h
    have hs : Fewer d₁ d₂ := (cleanupMsgs_shrinks _ _ _ h₂).connections
    exact (hs.trans (msgSwitchDestroy_tabs h₃).fewer).trans (callZs_tabs h₄).fewer

theorem switchRead_fewer {r : RwRes} {frames : List Frame}
    (h : d.switchRead fd r frames = .ok d') : Fewer d d' := by
  unfold switchRead at h
  split at h
  · cases h
  · obtain ⟨⟨d₁, got⟩, h₁, h⟩ := bind_inv h
    refine (callZs_tabs h₁).fewer.trans ?_
    cases got with
    | error e => exact switchFailed_fewer h
    | ok bytes =>
      simp only at h
      split at h
      · exact switchFailed_fewer h
      · exact (assertMsg'_tabs h).fewer

theorem switchWrite_fewer (h : d.switchWrite fd = .ok d') : Fewer d d' := by
  obtain ⟨⟨d₁, frame⟩, h₁, h⟩ := bind_inv h
  obtain ⟨⟨d₂, n⟩, h₂, h⟩ := bind_inv h
  refine ((assertMsg_tabs h₁).trans (callZs_tabs h₂)).fewer.trans ?_
  cases n with
  | error e => exact switchFailed_fewer h
  | ok n => cases h; exact Fewer.refl _

theorem msgAcceptReady_tabs {msgid : ℕ} (h : d.msgAcceptReady fd msgid = .ok d') :
    SameTabs d d' := by
  obtain ⟨⟨d₁, r⟩, h₁, h⟩ := bind_inv h
  refine (tryMsg_tabs h₁).trans ?_
  simp only at h
  split at h
  · cases h; exact SameTabs.refl _
  · exact assertMsg'_tabs h

theorem relay_fewer {type : ℤ} {buf : List UInt8} (h : d.relay type buf = .ok d') : Fewer d d' := by
  obtain ⟨d₁, h₁, h⟩ := bind_inv h
  obtain ⟨⟨d₂, n⟩, h₂, h⟩ := bind_inv h
  refine ((callZs'_tabs h₁).trans (callZs_tabs h₂)).fewer.trans ?_
  cases n with
  | error e => exact cleanup_fewer h
  | ok n => cases h; exact Fewer.refl _

theorem msgReadReady_fewer {msgid : ℕ} {stack strerror : List UInt8} {k : SockRes}
    (h : d.msgReadReady fd msgid stack k strerror = .ok d') : Fewer d d' := by
  obtain ⟨d₁, h₁, h⟩ := bind_inv h
  obtain ⟨⟨d₂, n⟩, h₂, h⟩ := bind_inv h
  obtain ⟨type, -, h⟩ := bind_inv h
  refine ((assertMsg'_tabs h₁).trans (tryMsg_tabs h₂)).fewer.trans ?_
  cases n with
  | none => exact cleanup_fewer h
  | some buf =>
    simp only at h
    split at h
    · exact cleanup_fewer h
    · split at h
      · exact commandHandler_fewer h
      · exact relay_fewer h

theorem msgWriteReady_tabs {msgid : ℕ} (h : d.msgWriteReady fd msgid = .ok d') :
    SameTabs d d' := by
  obtain ⟨type, -, h⟩ := bind_inv h
  split at h
  · cases h
  · obtain ⟨d₁, h₁, h⟩ := bind_inv h
    exact (callZs'_tabs h₁).trans (assertMsg'_tabs h)

theorem insockAccept_tabs (h : d.insockAccept fd = .ok d') : SameTabs d d' := by
  obtain ⟨⟨d₁, newfd⟩, h₁, h⟩ := bind_inv h
  refine (callZs_tabs h₁).trans ?_
  simp only at h
  split at h
  · exact msgSwitchCreate_tabs h
  · cases h; exact SameTabs.refl _

/-- A connection that has just been accepted. -/
structure Fresh (conn : ConnData) : Prop where
  websiteSockfd : conn.websiteSockfd = none
  msgid : conn.msgid = 0
  requestType : conn.requestType = none
  postlen : conn.postlen = 0
  buffer : conn.buffer = none

/-- What an accept puts into the table. -/
theorem exsockAccept_conns (h : d.exsockAccept fd = .ok d') (i : ℕ) :
    d'.connections i = d.connections i ∨
      (d.connections i = none ∧ ∃ conn, d'.connections i = some conn ∧ Fresh conn) := by
  obtain ⟨⟨d₁, newfd⟩, h₁, h⟩ := bind_inv h
  have ht := callZs_tabs h₁
  simp only at h
  split at h
  · rename_i newfd
    split at h
    · cases h
    · rename_i hnone
      split at h
      · have ht' := callZs'_tabs h
        rw [ht'.connections]
        by_cases hi : i = newfd
        · right
          refine ⟨?_, _, by rw [hi]; exact Function.update_self _ _ _, ⟨rfl, rfl, rfl, rfl, rfl⟩⟩
          rw [← ht.connections, hi]
          simpa using hnone
        · left
          rw [← ht.connections]
          exact Function.update_of_ne hi _ _
      · cases h
  · cases h
    left
    rw [ht.connections]

theorem exsockWrite_tabs (h : d.exsockWrite fd = .ok d') : SameTabs d d' := by
  obtain ⟨d₁, h₁, h⟩ := bind_inv h
  obtain ⟨conn, -, h⟩ := bind_inv h
  refine (callZs'_tabs h₁).trans ?_
  split at h
  · cases h
  · exact assertMsg'_tabs h

/-- **What a callback that is no read from a client does to an entry.** -/
theorem step_conns {a : Callback} (h : d.step a = .ok d') (ha : d.exsockReads a = none) (i : ℕ) :
    d'.connections i = d.connections i ∨ d'.connections i = none ∨
      (d.connections i = none ∧ ∃ conn, d'.connections i = some conn ∧ Fresh conn) := by
  have fewer : Fewer d d' → d'.connections i = d.connections i ∨ d'.connections i = none ∨
      (d.connections i = none ∧ ∃ conn, d'.connections i = some conn ∧ Fresh conn) := by
    intro hf
    exact (hf i).imp_right Or.inl
  cases a with
  | zfdRead fd accept r₁ r₂ => exact fewer (callZs'_tabs h).fewer
  | zfdWrite fd r₁ r₂ => exact fewer (callZs'_tabs h).fewer
  | zsRead fd r frames =>
    simp only [step] at h
    split at h
    · rename_i zs hz
      split at h
      · rename_i hcond
        rw [Bool.and_eq_true] at hcond
        unfold zsReadReady at h
        split at h
        · exact fewer (insockAccept_tabs h).fewer
        · exact (exsockAccept_conns h i).imp_right Or.inr
        · rename_i hh ht
          simp only [exsockReads, hz, hcond.1, hcond.2, hh, ht, decide_true, Bool.and_self,
            if_true] at ha
          cases ha
        · exact fewer (switchRead_fewer h)
        · cases h; exact fewer (Fewer.refl _)
        · cases h; exact fewer (Fewer.refl _)
      · cases h; exact fewer (Fewer.refl _)
    · cases h; exact fewer (Fewer.refl _)
  | zsWrite fd =>
    simp only [step] at h
    split at h
    · split at h
      · unfold zsWriteReady at h
        split at h
        · cases h
        · cases h; exact fewer (Fewer.refl _)
        · exact fewer (exsockWrite_tabs h).fewer
        · exact fewer (switchWrite_fewer h)
      · cases h; exact fewer (Fewer.refl _)
    · cases h; exact fewer (Fewer.refl _)
  | msgAccept fd msgid =>
    simp only [step] at h
    split at h
    · split at h
      · exact fewer (msgAcceptReady_tabs h).fewer
      · cases h; exact fewer (Fewer.refl _)
    · cases h; exact fewer (Fewer.refl _)
  | msgRead fd msgid stack k strerror =>
    simp only [step] at h
    split at h
    · split at h
      · exact fewer (msgReadReady_fewer h)
      · cases h; exact fewer (Fewer.refl _)
    · cases h; exact fewer (Fewer.refl _)
  | msgWrite fd msgid =>
    simp only [step] at h
    split at h
    · split at h
      · exact fewer (msgWriteReady_tabs h).fewer
      · cases h; exact fewer (Fewer.refl _)
    · cases h; exact fewer (Fewer.refl _)

end Daemon

end Zimr
