import Mathlib.Algebra.BigOperators.Fin
import Zimr.Proof.Marks

/-!
# `msg_switch_need_select`

In every run of the layer in which no check finds its msg marked and still ready,
`n_selectable` is the number of msgs that are ready (`need_select_exact`). The first packet
of a msg is such a check: the msg is marked when it is created, and the mark is taken off
when the packet is queued (`need_select_missed`).
-/

namespace Zimr

open Run
open MsgSwitch (fuller emptier)

variable {sw sw₁ sw₂ sw' : MsgSwitch} {j : ℕ} {m m' : Msg}

/-! ## The calls -/

/-- The interest in slot `j` changes to `rd` and `wr`, and the msg is checked. -/
theorem check_active_marked {rd wr : ℕ → Bool} {hash : FdHash} (h : sw.msgs j = some m)
    (hrd : ∀ i, i ≠ j → rd i = sw.activeReadFdSet i)
    (hwr : ∀ i, i ≠ j → wr i = sw.activeWriteFdSet i)
    (hn : sw.selectable j = true → m.ready (rd j) (wr j) = false)
    (hc : msgCheckSelectability { sw with
      activeReadFdSet := rd, activeWriteFdSet := wr, activeHash := hash } j = .ok sw') :
    Marked sw sw' j ∧ sw'.msgs j = some m ∧ sw'.activeReadFdSet = rd ∧ sw'.activeWriteFdSet = wr := by
  have h' : ({ sw with activeReadFdSet := rd, activeWriteFdSet := wr, activeHash := hash } :
      MsgSwitch).msgs j = some m := h
  have s := check_seen h' hn hc
  exact ⟨s.marked h hrd hwr, s.slot, s.looks.rd, s.looks.wr⟩

theorem msgSetRead_marked (h : sw.msgs j = some m) (hn : sw.selectable j = false)
    (hc : msgSetRead sw j = .ok sw') : Marked sw sw' j := by
  simp only [msgSetRead, MsgSwitch.assertMsg, h, bind, Except.bind] at hc
  refine (check_active_marked h (fun i hi => ?_) (fun _ _ => rfl) (fun hs => ?_) hc).1
  · rw [Function.update_of_ne hi]
  · rw [hn] at hs; cases hs

theorem msgSetWrite_marked (h : sw.msgs j = some m) (hn : sw.selectable j = false)
    (hc : msgSetWrite sw j = .ok sw') : Marked sw sw' j := by
  simp only [msgSetWrite, MsgSwitch.assertMsg, h, bind, Except.bind] at hc
  refine (check_active_marked h (fun _ _ => rfl) (fun i hi => ?_) (fun hs => ?_) hc).1
  · rw [Function.update_of_ne hi]
  · rw [hn] at hs; cases hs

theorem msgClrRead_marked (h : sw.msgs j = some m)
    (hn : m.ready false (sw.activeWriteFdSet j) = false) (hc : msgClrRead sw j = .ok sw') :
    Marked sw sw' j ∧ sw'.msgs j = some m ∧
      sw'.activeReadFdSet = Function.update sw.activeReadFdSet j false ∧
      sw'.activeWriteFdSet = sw.activeWriteFdSet := by
  simp only [msgClrRead, MsgSwitch.assertMsg, h, bind, Except.bind] at hc
  refine check_active_marked h (fun i hi => ?_) (fun _ _ => rfl) (fun _ => ?_) hc
  · rw [Function.update_of_ne hi]
  · rw [Function.update_self]; exact hn

theorem msgClrWrite_marked (h : sw.msgs j = some m)
    (hn : m.ready (sw.activeReadFdSet j) false = false) (hc : msgClrWrite sw j = .ok sw') :
    Marked sw sw' j ∧ sw'.msgs j = some m ∧ sw'.activeReadFdSet = sw.activeReadFdSet ∧
      sw'.activeWriteFdSet = Function.update sw.activeWriteFdSet j false := by
  simp only [msgClrWrite, MsgSwitch.assertMsg, h, bind, Except.bind] at hc
  refine check_active_marked h (fun _ _ => rfl) (fun i hi => ?_) (fun _ => ?_) hc
  · rw [Function.update_of_ne hi]
  · rw [Function.update_self]; exact hn

/-- Slot `j` is live, and what is in it is neither ready nor marked. -/
structure Low (sw : MsgSwitch) (j : ℕ) (m : Msg) : Prop where
  slot : sw.msgs j = some m
  right : sw.Right j m
  low : m.ready (sw.activeReadFdSet j) (sw.activeWriteFdSet j) = false

/-- The loop of `msg_close` keeps a msg that is not ready so. -/
theorem msgDrainRead_low : ∀ (n : ℕ) (sw : MsgSwitch) (m : Msg), Low sw j m →
    msgDrainRead n sw j = .ok sw' → Marked sw sw' j := by
  intro n
  induction n with
  | zero =>
    intro sw m h hc
    cases hc
    exact (Seen.refl h.slot h.right).marked_same h.slot
  | succ n ih =>
    intro sw m h hc
    rw [msgDrainRead] at hc
    simp only [MsgSwitch.assertMsg, h.slot] at hc
    obtain ⟨m₀, hm₀, hc⟩ := bind_ok hc
    cases hm₀
    split_ifs at hc
    · obtain ⟨sw₁, h₁, hc⟩ := bind_ok hc
      have hl := emptier_ready h.low
      have s := popRead_seen h.slot (fun _ => hl) h₁
      have hlow : Low sw₁ j m.popRead.upd := by
        refine ⟨s.slot, s.right, ?_⟩
        rw [s.looks.rd, s.looks.wr]
        exact (Msg.popRead_ready m _ _).trans hl
      exact (s.marked_same h.slot).trans (ih sw₁ _ hlow hc)
    · cases hc
      exact (Seen.refl h.slot h.right).marked_same h.slot

/-- **`msg_close`.** -/
theorem msgClose_marked {r : Except Errno ℕ} (h : sw.msgs j = some m) (hr : sw.Right j m)
    (hn : m.status.closed = false → m.ready false (sw.activeWriteFdSet j) = false)
    (hc : msgClose sw j = .ok (sw', r)) : Marked sw sw' j := by
  unfold msgClose at hc
  simp only [h, pure, Except.pure] at hc
  split_ifs at hc with hcl
  · cases hc; exact (Seen.refl h hr).marked_same h
  have hn := hn (by simpa using hcl)
  obtain ⟨sw₁, h₁, hc⟩ := bind_ok hc
  obtain ⟨sw₂, h₂, hc⟩ := bind_ok hc
  obtain ⟨k₁, hs₁, hrd₁, hwr₁⟩ := msgClrRead_marked h hn h₁
  have hconn : m.status.connected = true := by
    simp only [Msg.ready, Bool.or_eq_false_iff, Bool.not_eq_false'] at hn
    exact hn.1.1
  obtain ⟨k₂, hs₂, hrd₂, hwr₂⟩ := msgClrWrite_marked hs₁ (by
    rw [hrd₁, Function.update_self]; simp [Msg.ready, hconn]) h₂
  have k := k₁.trans k₂
  -- nobody is interested any more, and the msg is accepted
  have hoff : ∀ n : Msg, n.status.connected = true →
      n.ready (sw₂.activeReadFdSet j) (sw₂.activeWriteFdSet j) = false := by
    intro n hc
    rw [hrd₂, hwr₂, hrd₁, Function.update_self, Function.update_self]
    simp [Msg.ready, hc]
  have hr₂ : sw₂.Right j m := k₂.right m hs₂
  split_ifs at hc with hdis
  · obtain ⟨sw₃, h₃, hc⟩ := bind_ok hc
    cases hc
    exact k.trans (msgFree_marked hs₂ h₃).1
  obtain ⟨⟨sw₃, r₃⟩, h₃, hc⟩ := bind_ok hc
  have hs₃ : ∃ m₃, Seen sw₂ sw₃ j m₃ ∧ m₃.status.connected = true := by
    unfold msgFlush at h₃
    simp only [hs₂, pure, Except.pure] at h₃
    split_ifs at h₃ with hinc
    · obtain ⟨sw₄, h₄, h₃⟩ := bind_ok h₃
      cases h₃
      obtain ⟨p, hp⟩ := Option.isSome_iff_exists.1 hinc
      exact ⟨_, push_seen hs₂ hp (fun _ => fuller_ready (hoff m hconn)) h₄, hconn⟩
    · cases h₃; exact ⟨m, Seen.refl hs₂ hr₂, hconn⟩
  obtain ⟨m₃, s₃, hc₃⟩ := hs₃
  have k := k.trans (s₃.marked_same hs₂)
  simp only [MsgSwitch.assertMsg, s₃.slot] at hc
  obtain ⟨m₀, hm₀, hc⟩ := bind_ok hc
  cases hm₀
  set m₄ : Msg := { m₃ with status.closed := true } with hm₄
  have s₄ : Seen sw₃ (sw₃.set j (some m₄)) j m₄ := Seen.set s₃.right fun _ _ => rfl
  have k := k.trans (s₄.marked_same s₃.slot)
  -- the rest keeps the msg as it is, or frees it
  have hlow : ∀ (sw₅ : MsgSwitch) (m₅ : Msg), Seen (sw₃.set j (some m₄)) sw₅ j m₅ →
      m₅.status.connected = true → Low sw₅ j m₅ := by
    intro sw₅ m₅ s₅ hc₅
    refine ⟨s₅.slot, s₅.right, ?_⟩
    have s := (s₃.trans s₄).trans s₅
    rw [s.looks.rd, s.looks.wr]
    exact hoff m₅ hc₅
  split_ifs at hc
  · obtain ⟨sw₅, h₅, hc⟩ := bind_ok hc
    cases hc
    exact k.trans (msgFree_marked s₄.slot h₅).1
  · obtain ⟨sw₅, h₅, hc⟩ := bind_ok hc
    obtain ⟨sw₆, h₆, hc⟩ := bind_ok hc
    cases hc
    have l₅ := msgSendResp_looks h₅
    set m₆ : Msg := { m₄ with status.sentDisconnect := true } with hm₆
    have s₆ : Seen (sw₃.set j (some m₄)) (sw₅.set j (some m₆)) j m₆ := by
      refine ⟨by simp [MsgSwitch.set], ?_⟩
      have hb : (sw₃.set j (some m₄)).selectable j =
          m₆.ready ((sw₃.set j (some m₄)).activeReadFdSet j)
            ((sw₃.set j (some m₄)).activeWriteFdSet j) := s₄.right
      have l := l₅.trans (Looks.set sw₅ j (some m₆))
      rwa [l₅.sel, Function.update_self, hb] at l
    exact (k.trans (s₆.marked_same s₄.slot)).trans (msgDrainRead_low _ _ m₆ (hlow _ _ s₆ hc₃) h₆)
  · obtain ⟨sw₆, h₆, hc⟩ := bind_ok hc
    cases hc
    exact k.trans (msgDrainRead_low _ _ m₄
      (hlow _ _ (Seen.refl s₄.slot s₄.right) hc₃) h₆)

/-- **`msg_accept`.** -/
theorem msgAccept_marked {r : Except Errno ℕ} (h : sw.msgs j = some m) (hr : sw.Right j m)
    (hn : m.status.closed = false → m.status.connected = false → m.status.disconnected = false →
      ({ m with status.connected := true } : Msg).ready (sw.activeReadFdSet j)
        (sw.activeWriteFdSet j) = false)
    (hc : msgAccept sw j = .ok (sw', r)) : Marked sw sw' j := by
  unfold msgAccept at hc
  simp only [h, pure, Except.pure] at hc
  split_ifs at hc with hcl hco hd
  · cases hc; exact (Seen.refl h hr).marked_same h
  · cases hc; exact (Seen.refl h hr).marked_same h
  · obtain ⟨sw₁, h₁, hc⟩ := bind_ok hc
    cases hc
    exact (msgFree_marked h h₁).1
  · obtain ⟨sw₁, h₁, hc⟩ := bind_ok hc
    cases hc
    set m₁ : Msg := { m with status.connected := true } with hm₁
    have hs : ({ sw.set j (some m₁) with activeHash := fdHashRemove sw.activeHash j } :
        MsgSwitch).msgs j = some m₁ := by simp [MsgSwitch.set]
    have hlow := hn (by simpa using hcl) (by simpa using hco) (by simpa using hd)
    have s := check_seen hs (fun _ => hlow) h₁
    have l : Looks sw { sw.set j (some m₁) with activeHash := fdHashRemove sw.activeHash j } j
        (sw.selectable j) := Looks.same (fun i hi => by simp [MsgSwitch.set, hi]) rfl
    exact Seen.marked_same h ⟨s.slot, l.trans s.looks⟩

/-- **`msg_open`.** The new msg is marked, and the mark is taken off when it is connected. -/
theorem msgOpen_marked {type : ℤ} {i : ℕ} (hw : ∀ j, msgGetAvailMsgid sw = some j →
      sw.activeWriteFdSet j = false) (hc : msgOpen sw type = .ok (sw', i)) :
    sw.msgs i = none ∧ i < fdSetSize ∧ Marked sw sw' i := by
  unfold msgOpen at hc
  obtain ⟨⟨sw₁, j⟩, h₁, hc⟩ := bind_ok hc
  unfold msgCreate at h₁
  cases hav : msgGetAvailMsgid sw with
  | none => simp only [hav] at h₁; cases h₁
  | some k =>
    obtain ⟨hfree, -, hlt⟩ := msgGetAvailMsgid_some hav
    simp only [hav] at h₁
    set m₀ : Msg := { addr := sw.nextAddr, msgid := k, type
                      status := { spaceAvailForRead := true, spaceAvailForWrit := true } } with hm₀
    set sw₀ : MsgSwitch := { sw with
      nextAddr := sw.nextAddr + 1
      selectable := Function.update sw.selectable k false } with hsw₀
    obtain ⟨sw₂, h₂, h₁⟩ := bind_ok h₁
    cases h₁
    have hs₀ : (sw₀.set j (some m₀)).msgs j = some m₀ := by simp [MsgSwitch.set]
    have hun : (sw₀.set j (some m₀)).selectable j = false := by simp [MsgSwitch.set, hsw₀]
    have s₁ := check_seen hs₀ (fun hs => by rw [hun] at hs; cases hs) h₂
    simp only [MsgSwitch.assertMsg, s₁.slot] at hc
    obtain ⟨m₁, hm₁, hc⟩ := bind_ok hc
    cases hm₁
    obtain ⟨sw₃, h₃, hc⟩ := bind_ok hc
    cases hc
    -- connected, a new msg can only be ready for writing
    set m₁ : Msg := { m₀ with status.connected := true } with hm₁
    have hs₁ : (sw₁.set i (some m₁)).msgs i = some m₁ := by simp [MsgSwitch.set]
    have hlow : m₁.ready (sw₁.activeReadFdSet i) (sw₁.activeWriteFdSet i) = false := by
      rw [s₁.looks.wr, show (sw₀.set i (some m₀)).activeWriteFdSet i = _ from hw i hav]
      simp [Msg.ready, hm₁, hm₀]
    have s₂ := check_seen hs₁ (fun _ => hlow) h₃
    have l := (s₁.looks.trans (Looks.set sw₁ i (some m₁))).trans s₂.looks
    refine ⟨hfree, hlt, ?_⟩
    refine ⟨fun k hk => ?_, fun k _ => ?_, fun k _ => ?_, fun k hk => ?_, fun n hn => ?_, ?_⟩
    · rw [l.msgs k hk]; simp [MsgSwitch.set, hk, hsw₀]
    · rw [l.rd]; rfl
    · rw [l.wr]; rfl
    · rw [l.sel, Function.update_of_ne hk]; simp [MsgSwitch.set, hsw₀, hk]
    · rw [s₂.slot] at hn; cases hn; exact s₂.right
    · have hsel : sw'.selectable i =
          m₁.ready ((sw₁.set i (some m₁)).activeReadFdSet i)
            ((sw₁.set i (some m₁)).activeWriteFdSet i) := by rw [l.sel, Function.update_self]
      rw [l.count, hun, MsgSwitch.marked, MsgSwitch.marked, s₂.slot, hfree, hsel]
      simp [MsgSwitch.set, hsw₀]

/-! ## The frames -/

/-- A disconnect makes readiness a matter of interest alone. -/
theorem ready_disconnected {n : Msg} (rd wr : Bool) (hm : m.status.disconnected = true)
    (hn : n.status.disconnected = true) (hc : n.status.connected = m.status.connected) :
    n.ready rd wr = m.ready rd wr := by
  simp [Msg.ready, hm, hn, hc]

/-- The loop of `msg_recv_resp` for a disconnected msg that is not ready. -/
theorem msgDrainWrit_low : ∀ (n : ℕ) (sw : MsgSwitch) (m : Msg), Low sw j m →
    m.status.disconnected = true → msgDrainWrit n sw j = .ok sw' → Marked sw sw' j := by
  intro n
  induction n with
  | zero =>
    intro sw m h _ hc
    cases hc
    exact (Seen.refl h.slot h.right).marked_same h.slot
  | succ n ih =>
    intro sw m h hd hc
    rw [msgDrainWrit] at hc
    simp only [MsgSwitch.assertMsg, h.slot] at hc
    obtain ⟨m₀, hm₀, hc⟩ := bind_ok hc
    cases hm₀
    split_ifs at hc
    · obtain ⟨⟨sw₁, q⟩, h₁, hc⟩ := bind_ok hc
      cases hq : m.writQueue with
      | nil =>
        simp only [msgPopWritPacket, MsgSwitch.assertMsg, h.slot, hq, bind, Except.bind] at h₁
        cases h₁
      | cons p rest =>
        have hl : (m.popWrit rest).ready (sw.activeReadFdSet j) (sw.activeWriteFdSet j) = false :=
          (ready_disconnected (n := m.popWrit rest) _ _ hd hd rfl).trans h.low
        have s := popWrit_seen h.slot hq (fun _ => hl) h₁
        have hlow : Low sw₁ j (m.popWrit rest).upd := by
          refine ⟨s.slot, s.right, ?_⟩
          rw [s.looks.rd, s.looks.wr]
          exact hl
        exact (s.marked_same h.slot).trans (ih sw₁ _ hlow hd hc)
    · cases hc
      exact (Seen.refl h.slot h.right).marked_same h.slot

/-- The switch in which a disconnect is answered and nothing dropped yet. -/
def MsgSwitch.answered (sw : MsgSwitch) (j : ℕ) (m : Msg) : MsgSwitch :=
  ({ msgSwitchPushResp sw (m.resp .discon) with
    imsgidMap := Function.update sw.imsgidMap m.imsgid 0 } : MsgSwitch).set j (some m.disconnected)

theorem msgRecvResp_discon_eq {resp : MsgResp} (h : sw.msgs j = some m)
    (hr : resp.status = .discon) (hs : m.status.sentDisconnect = false) :
    msgRecvResp sw j resp =
      if !m.status.packetAvailToRead then msgClear (sw.answered j m) j
      else msgDrainWrit (m.writQueue.length + 1) (sw.answered j m) j := by
  simp only [msgRecvResp, msgSendResp, MsgSwitch.assertMsg, h, hr, bind, Except.bind, hs,
    Bool.not_false, if_true, pure, Except.pure]
  rfl

theorem answered_looks : Looks sw (sw.answered j m) j (sw.selectable j) :=
  Looks.same (fun i hi => by simp [MsgSwitch.answered, MsgSwitch.set, msgSwitchPushResp, hi]) rfl

/-- A disconnect does not make a msg less ready. -/
theorem ready_of_disconnected {rd wr : Bool} (h : m.disconnected.ready rd wr = false) :
    m.ready rd wr = false := by
  simp only [Msg.ready, Msg.disconnected, Bool.or_true, Bool.and_true, Bool.or_eq_false_iff] at h ⊢
  obtain ⟨⟨hc, rfl⟩, rfl⟩ := h
  exact ⟨⟨hc, rfl⟩, rfl⟩

/-- **The peer's disconnect** for a msg that has not sent one. -/
theorem recvDiscon_marked {resp : MsgResp} (h : sw.msgs j = some m) (hm : MsgOK m)
    (hr : sw.Right j m) (hst : resp.status = .discon) (hs : m.status.sentDisconnect = false)
    (h₀ : m.status.packetAvailToRead = false →
      m.ready (sw.activeReadFdSet j) (sw.activeWriteFdSet j) = false)
    (h₁ : ∀ p, m.status.packetAvailToRead = true → m.writQueue = [p] →
      m.ready (sw.activeReadFdSet j) (sw.activeWriteFdSet j) = false)
    (h₂ : ∀ p q rest, m.status.packetAvailToRead = true → m.writQueue = p :: q :: rest →
      m.disconnected.ready (sw.activeReadFdSet j) (sw.activeWriteFdSet j) = false)
    (hc : msgRecvResp sw j resp = .ok sw') : Marked sw sw' j := by
  rw [msgRecvResp_discon_eq h hst hs] at hc
  have l : Looks sw (sw.answered j m) j (sw.selectable j) := answered_looks
  have hslot : (sw.answered j m).msgs j = some m.disconnected := by
    simp [MsgSwitch.answered, MsgSwitch.set]
  have hsel : (sw.answered j m).selectable j = sw.selectable j := by
    rw [l.sel, Function.update_self]
  cases hp : m.status.packetAvailToRead with
  | false =>
    rw [hp, Bool.not_false, if_pos rfl] at hc
    obtain ⟨lc, hsc⟩ := msgClear_looks hslot hc
    -- not marked before, so the mark is what the check finds
    rw [hsel, hr, h₀ hp, l.rd, l.wr, Bool.not_false, Bool.true_and] at lc
    exact Seen.marked_same h ⟨hsc, l.trans lc⟩
  | true =>
    rw [hp, Bool.not_true, if_neg (by simp)] at hc
    cases hq : m.writQueue with
    | nil =>
      -- there is room to write, so the disconnect changes nothing
      have hsp : m.status.spaceAvailForWrit = true := by
        rw [hm.wspace (hm.not_disc hs), hq]; rfl
      have hpw : m.disconnected.status.packetAvailToWrit = false := by
        rw [show m.disconnected.status.packetAvailToWrit = _ from hm.paw, hq]; rfl
      rw [hq, List.length_nil, msgDrainWrit] at hc
      simp only [MsgSwitch.assertMsg, hslot, bind, Except.bind, hpw] at hc
      cases hc
      refine Seen.marked_same h ⟨hslot, ?_⟩
      have hsame : m.disconnected.ready (sw.activeReadFdSet j) (sw.activeWriteFdSet j) =
          m.ready (sw.activeReadFdSet j) (sw.activeWriteFdSet j) := by
        simp [Msg.ready, Msg.disconnected, hp, hsp]
      rw [hsame, ← hr]
      exact l
    | cons p rest =>
      have hpw : m.disconnected.status.packetAvailToWrit = true := by
        rw [show m.disconnected.status.packetAvailToWrit = _ from hm.paw, hq]; rfl
      cases rest with
      | nil =>
        rw [hq, List.length_singleton, msgDrainWrit] at hc
        simp only [MsgSwitch.assertMsg, hslot] at hc
        obtain ⟨m₀, hm₀, hc⟩ := bind_ok hc
        cases hm₀
        rw [if_pos hpw] at hc
        obtain ⟨⟨sw₁, q⟩, hpop, hc⟩ := bind_ok hc
        have hq' : m.disconnected.writQueue = p :: [] := hq
        have s := popWrit_seen hslot hq' (fun ht => by
          rw [hsel, hr, h₁ p hp hq] at ht; cases ht) hpop
        -- the queue is empty, and the loop is left
        rw [msgDrainWrit] at hc
        simp only [MsgSwitch.assertMsg, s.slot] at hc
        obtain ⟨m₁, hm₁, hc⟩ := bind_ok hc
        cases hm₁
        have hpw₁ : (m.disconnected.popWrit []).upd.status.packetAvailToWrit = false := rfl
        rw [if_neg (by rw [hpw₁]; simp)] at hc
        cases hc
        refine Seen.marked_same h ⟨s.slot, ?_⟩
        have := l.trans s.looks
        rwa [l.rd, l.wr] at this
      | cons q rest' =>
        have hlow := h₂ p q rest' hp hq
        have hoff : sw.selectable j = false := hr.trans (ready_of_disconnected hlow)
        have hL : Low (sw.answered j m) j m.disconnected := by
          refine ⟨hslot, ?_, ?_⟩
          · unfold MsgSwitch.Right; rw [hsel, l.rd, l.wr, hlow]; exact hoff
          · rw [l.rd, l.wr]; exact hlow
        have k := msgDrainWrit_low _ _ _ hL rfl hc
        have k₀ : Marked sw (sw.answered j m) j := by
          refine Seen.marked_same h ⟨hslot, ?_⟩
          rw [hlow, ← hoff]; exact l
        exact k₀.trans k

/-- The end of `msg_recv_resp` for a msg that is not ready. -/
theorem Low.check_update (h : Low sw j m) (h₁ : msgCheckSelectability sw j = .ok sw₁)
    (h₂ : msgUpdateStatus sw₁ j = .ok sw₂) : Marked sw sw₂ j := by
  have s₁ := check_seen h.slot (fun _ => h.low) h₁
  obtain ⟨sw₃, h₃, o⟩ := msgUpdateStatus_only s₁.slot
  rw [h₂] at h₃
  cases h₃
  have l := s₁.looks.trans (msgUpdateStatus_looks h₂)
  rw [s₁.looks.sel, Function.update_self] at l
  exact Seen.marked_same h.slot ⟨o.get, l⟩

/-- **The peer's acknowledgement.** -/
theorem recvOk_marked {resp : MsgResp} (h : sw.msgs j = some m) (hr : sw.Right j m)
    (hst : resp.status = .ok) (hs : m.status.sentDisconnect = false)
    (hw : m.status.waitingForResp = true)
    (hn : (if !m.status.packetAvailToWrit && !m.status.closed && m.incompleteWritPacket.isSome then
          (fuller m).ready (sw.activeReadFdSet j) (sw.activeWriteFdSet j)
        else m.ready (sw.activeReadFdSet j) (sw.activeWriteFdSet j)) = false)
    (hc : msgRecvResp sw j resp = .ok sw') : Marked sw sw' j := by
  rw [msgRecvResp_ok_eq h hst hs hw] at hc
  have s₁ : Seen sw (sw.set j (some m.acked)) j m.acked := Seen.set hr fun _ _ => rfl
  have k₁ := s₁.marked_same h
  unfold recvOkTail at hc
  obtain ⟨sw₂, h₂, hc⟩ := bind_ok hc
  obtain ⟨sw₃, h₃, hc⟩ := bind_ok hc
  -- whatever is flushed, the msg is not ready when it is checked
  suffices hL : Marked (sw.set j (some m.acked)) sw₂ j ∧ ∃ m₂, Low sw₂ j m₂ by
    obtain ⟨k₂, m₂, hL⟩ := hL
    exact (k₁.trans k₂).trans (hL.check_update h₃ hc)
  have hrefl : m.acked.ready (sw.activeReadFdSet j) (sw.activeWriteFdSet j) = false →
      Marked (sw.set j (some m.acked)) (sw.set j (some m.acked)) j ∧
        Low (sw.set j (some m.acked)) j m.acked := fun hl =>
    ⟨(Seen.refl s₁.slot s₁.right).marked_same s₁.slot, s₁.slot, s₁.right, hl⟩
  split_ifs at h₂ with hp
  · obtain ⟨⟨sw₄, r₄⟩, h₄, h₂⟩ := bind_ok h₂
    have hfl : Marked (sw.set j (some m.acked)) sw₄ j ∧ ∃ m₄, Low sw₄ j m₄ := by
      unfold msgFlush at h₄
      simp only [s₁.slot, pure, Except.pure] at h₄
      split_ifs at h₄ with hcl hinc
      · cases h₄
        have hcl : m.status.closed = true := hcl
        rw [hcl, if_neg (by simp)] at hn
        exact ⟨(hrefl hn).1, _, (hrefl hn).2⟩
      · obtain ⟨sw₅, h₅, h₄⟩ := bind_ok h₄
        cases h₄
        have hcl : m.status.closed = false := Bool.eq_false_iff.2 hcl
        have hp : m.status.packetAvailToWrit = false := by simpa using hp
        have hinc : m.incompleteWritPacket.isSome = true := hinc
        rw [hp, hcl, hinc, if_pos (by simp)] at hn
        obtain ⟨p, hi⟩ := Option.isSome_iff_exists.1 hinc
        have s₅ := push_seen s₁.slot hi (fun _ => hn) h₅
        refine ⟨s₅.marked_same s₁.slot, _, s₅.slot, s₅.right, ?_⟩
        rw [s₅.looks.rd, s₅.looks.wr]
        exact (Msg.pushWrit_ready m.acked p _ _).trans hn
      · cases h₄
        have hinc : m.incompleteWritPacket.isSome = false := Bool.eq_false_iff.2 hinc
        rw [hinc, if_neg (by simp)] at hn
        exact ⟨(hrefl hn).1, _, (hrefl hn).2⟩
    obtain ⟨k₄, m₄, hL⟩ := hfl
    simp only [MsgSwitch.assertMsg, hL.slot] at h₂
    obtain ⟨m₀, hm₀, h₂⟩ := bind_ok h₂
    cases hm₀
    split_ifs at h₂
    · obtain ⟨sw₅, h₅, h₂⟩ := bind_ok h₂
      cases h₂
      have l := (msgSendResp_looks h₅).trans
        (Looks.set sw₅ j (some { m₄ with status.sentDisconnect := true }))
      have s₅ : Seen sw₄ (sw₅.set j (some { m₄ with status.sentDisconnect := true })) j
          { m₄ with status.sentDisconnect := true } := by
        refine ⟨by simp [MsgSwitch.set], ?_⟩
        rw [(msgSendResp_looks h₅).sel, Function.update_self, hL.right] at l
        exact l
      refine ⟨k₄.trans (s₅.marked_same hL.slot), _, s₅.slot, s₅.right, ?_⟩
      rw [s₅.looks.rd, s₅.looks.wr]
      exact hL.low
    · cases h₂; exact ⟨k₄, m₄, hL⟩
  · cases h₂
    have hp : m.status.packetAvailToWrit = true := by simpa using hp
    rw [hp, if_neg (by simp)] at hn
    exact ⟨(hrefl hn).1, _, (hrefl hn).2⟩

/-! ## Steps -/

/-- Nothing that the marks depend on has changed; slot 0 is never in use. -/
theorem Marked.same (h : Tables sw) (hm : sw'.msgs = sw.msgs)
    (hs : (sw'.activeReadFdSet, sw'.activeWriteFdSet, sw'.selectable, sw'.nSelectable) =
      (sw.activeReadFdSet, sw.activeWriteFdSet, sw.selectable, sw.nSelectable)) :
    ∃ j, j < fdSetSize ∧ Marked sw sw' j := by
  simp only [Prod.mk.injEq] at hs
  obtain ⟨hrd, hwr, hsel, hn⟩ := hs
  refine ⟨0, by decide, fun _ _ => by rw [hm], fun _ _ => by rw [hrd], fun _ _ => by rw [hwr],
    fun _ _ => by rw [hsel], fun m h0 => ?_, ?_⟩
  · rw [hm] at h0
    exact absurd (h.slots.slot _ _ h0).1 (by omega)
  · rw [hn, MsgSwitch.marked, MsgSwitch.marked, hm, hsel]

/-- Every mark is right. -/
def MsgSwitch.Exact (sw : MsgSwitch) : Prop := ∀ j m, sw.msgs j = some m → sw.Right j m

theorem call_marked {op : Op} {ret : OpRet} (h : Tables sw) (hE : sw.Exact)
    (hn : sw.rechecksCall op = false) (hc : sw.call op = .ok (sw', ret)) :
    ∃ j, j < fdSetSize ∧ Marked sw sw' j := by
  have hrefl : ∃ j, j < fdSetSize ∧ Marked sw sw j := Marked.same h rfl rfl
  have hlt : ∀ {i : ℕ} {n : Msg}, sw.msgs i = some n → i < fdSetSize := fun hi =>
    (h.slots.slot _ _ hi).2
  have hid : ∀ {i : ℕ} {n : Msg}, sw.msgs i = some n → n.msgid = i := fun hi =>
    h.slots.msgid _ _ hi
  cases op with
  | «open» type =>
    obtain ⟨⟨sw₁, i⟩, h₁, hc⟩ := bind_ok hc
    cases hc
    obtain ⟨-, hi, k⟩ := msgOpen_marked (fun j hj => by
      simpa only [MsgSwitch.rechecksCall, hj] using hn) h₁
    exact ⟨i, hi, k⟩
  | accept i =>
    obtain ⟨⟨sw₁, r⟩, h₁, hc⟩ := bind_ok hc
    cases hc
    cases hi : sw.msgs i with
    | none => simp only [msgAccept, hi, pure, Except.pure] at h₁; cases h₁; exact hrefl
    | some m =>
      refine ⟨i, hlt hi, msgAccept_marked hi (hE _ _ hi) (fun h₁ h₂ h₃ => ?_) h₁⟩
      simpa [MsgSwitch.rechecksCall, hi, h₁, h₂, h₃, MsgSwitch.stillReady, hid hi] using hn
  | write i buf =>
    obtain ⟨⟨sw₁, r⟩, h₁, hc⟩ := bind_ok hc
    cases hc
    cases hi : sw.msgs i with
    | none => simp only [msgWrite, hi, pure, Except.pure] at h₁; cases h₁; exact hrefl
    | some m =>
      obtain ⟨m', s⟩ := msgWrite_seen hi (hE _ _ hi) (fun h₁ h₂ h₃ h₄ => by
        have hf : (fuller m).msgid = i := h.slots.msgid i m hi
        simpa [MsgSwitch.rechecksCall, hi, h₁, h₂, h₃, h₄, MsgSwitch.stillReady, hf] using hn) h₁
      exact ⟨i, hlt hi, s.marked_same hi⟩
  | flush i =>
    obtain ⟨⟨sw₁, r⟩, h₁, hc⟩ := bind_ok hc
    cases hc
    cases hi : sw.msgs i with
    | none => simp only [msgFlush, hi, pure, Except.pure] at h₁; cases h₁; exact hrefl
    | some m =>
      obtain ⟨m', s⟩ := msgFlush_seen hi (hE _ _ hi) (fun h₁ h₂ => by
        have hf : (fuller m).msgid = i := h.slots.msgid i m hi
        simpa [MsgSwitch.rechecksCall, hi, h₁, h₂, MsgSwitch.stillReady, hf] using hn) h₁
      exact ⟨i, hlt hi, s.marked_same hi⟩
  | read i size =>
    obtain ⟨⟨sw₁, r⟩, h₁, hc⟩ := bind_ok hc
    cases hc
    cases hi : sw.msgs i with
    | none => simp only [msgRead, hi, pure, Except.pure] at h₁; cases h₁; exact hrefl
    | some m =>
      obtain ⟨m', s⟩ := msgRead_seen hi (hE _ _ hi) (fun h₁ h₂ h₃ h₄ => by
        obtain ⟨p, rest, hq, hle⟩ := h₄
        have hf : (emptier m).msgid = i := h.slots.msgid i m hi
        have hle' : p.size ≤ size + m.curReadPacketPos := by omega
        simpa [MsgSwitch.rechecksCall, hi, h₁, h₂, h₃, hq, hle', MsgSwitch.stillReady, hf]
          using hn) h₁
      exact ⟨i, hlt hi, s.marked_same hi⟩
  | close i =>
    obtain ⟨⟨sw₁, r⟩, h₁, hc⟩ := bind_ok hc
    cases hc
    cases hi : sw.msgs i with
    | none => simp only [msgClose, hi, pure, Except.pure] at h₁; cases h₁; exact hrefl
    | some m =>
      refine ⟨i, hlt hi, msgClose_marked hi (hE _ _ hi) (fun h₁ => ?_) h₁⟩
      simpa [MsgSwitch.rechecksCall, hi, h₁] using hn
  | setRead i =>
    obtain ⟨sw₁, h₁, hc⟩ := bind_ok hc
    cases hc
    cases hi : sw.msgs i with
    | none => simp only [msgSetRead, MsgSwitch.assertMsg, hi, bind, Except.bind] at h₁; cases h₁
    | some m =>
      refine ⟨i, hlt hi, msgSetRead_marked hi ?_ h₁⟩
      rw [hE _ _ hi]
      simpa [MsgSwitch.rechecksCall, MsgSwitch.ready, hi] using hn
  | clrRead i =>
    obtain ⟨sw₁, h₁, hc⟩ := bind_ok hc
    cases hc
    cases hi : sw.msgs i with
    | none => simp only [msgClrRead, MsgSwitch.assertMsg, hi, bind, Except.bind] at h₁; cases h₁
    | some m =>
      refine ⟨i, hlt hi, (msgClrRead_marked hi ?_ h₁).1⟩
      simpa [MsgSwitch.rechecksCall, hi] using hn
  | setWrite i =>
    obtain ⟨sw₁, h₁, hc⟩ := bind_ok hc
    cases hc
    cases hi : sw.msgs i with
    | none => simp only [msgSetWrite, MsgSwitch.assertMsg, hi, bind, Except.bind] at h₁; cases h₁
    | some m =>
      refine ⟨i, hlt hi, msgSetWrite_marked hi ?_ h₁⟩
      rw [hE _ _ hi]
      simpa [MsgSwitch.rechecksCall, MsgSwitch.ready, hi] using hn
  | clrWrite i =>
    obtain ⟨sw₁, h₁, hc⟩ := bind_ok hc
    cases hc
    cases hi : sw.msgs i with
    | none => simp only [msgClrWrite, MsgSwitch.assertMsg, hi, bind, Except.bind] at h₁; cases h₁
    | some m =>
      refine ⟨i, hlt hi, (msgClrWrite_marked hi ?_ h₁).1⟩
      simpa [MsgSwitch.rechecksCall, hi] using hn

theorem dispatch_marked {frame : Frame} (h : Tables sw) (hE : sw.Exact)
    (hn : sw.rechecksFrame frame = false) (hc : msgSwitchDispatch sw frame = .ok sw') :
    ∃ j, j < fdSetSize ∧ Marked sw sw' j := by
  have hrefl : ∃ j, j < fdSetSize ∧ Marked sw sw j := Marked.same h rfl rfl
  cases frame with
  | pack p =>
    cases hg : msgGet sw p.msgid with
    | none => simp [MsgSwitch.rechecksFrame, hg] at hn
    | some m =>
      have hj := h.slots.get_slot hg
      simp only [msgSwitchDispatch, hg] at hc
      have hlow : m.ready (sw.activeReadFdSet m.msgid) (sw.activeWriteFdSet m.msgid) = false := by
        simpa [MsgSwitch.rechecksFrame, hg, MsgSwitch.stillReady] using hn
      have s := pushRead_seen p hj (fun hs => by rw [hE _ _ hj, hlow] at hs; cases hs) hc
      exact ⟨_, (h.slots.slot _ _ hj).2, s.marked_same hj⟩
  | resp resp =>
    cases hg : msgGet sw resp.msgid with
    | none => simp only [msgSwitchDispatch, hg] at hc; cases hc; exact hrefl
    | some m =>
      have hj := h.slots.get_slot hg
      have hlt := (h.slots.slot _ _ hj).2
      have hm := h.slots.ok _ _ hj
      simp only [msgSwitchDispatch, hg] at hc
      cases hs : m.status.sentDisconnect with
      | true =>
        -- freed, or nothing happens
        simp only [msgRecvResp, MsgSwitch.assertMsg, hj, bind, Except.bind, hs] at hc
        cases hr : resp.status with
        | ok => rw [hr] at hc; simp only [if_true] at hc; cases hc; exact hrefl
        | discon =>
          rw [hr] at hc
          simp only [Bool.not_true] at hc
          exact ⟨_, hlt, (msgFree_marked hj hc).1⟩
      | false =>
        cases hr : resp.status with
        | ok =>
          cases hw : m.status.waitingForResp with
          | false =>
            simp only [msgRecvResp, MsgSwitch.assertMsg, hj, bind, Except.bind, hr, hs, hw] at hc
            cases hc
          | true =>
            refine ⟨_, hlt, recvOk_marked hj (hE _ _ hj) hr hs hw ?_ hc⟩
            simpa [MsgSwitch.rechecksFrame, hg, hr, hs, hw, MsgSwitch.stillReady, fuller] using hn
        | discon =>
          simp only [MsgSwitch.rechecksFrame, hg, hr, hs, MsgSwitch.stillReady, Bool.not_false,
            Bool.true_and] at hn
          refine ⟨_, hlt, recvDiscon_marked hj hm (hE _ _ hj) hr hs (fun hp => ?_)
            (fun p hp hq => ?_) (fun p q rest hp hq => ?_) hc⟩
          · simpa [hp] using hn
          · simpa [hp, hq] using hn
          · simpa [hp, hq, Msg.ready, Msg.disconnected] using hn

/-- **A step of one switch** in which no check finds its msg marked and still ready. -/
theorem sockStep_marked {e : SockEvent} (h : Tables sw) (hE : sw.Exact)
    (hn : sw.rechecks e = false) (hs : sw.sockStep e = .ok sw') :
    ∃ j, j < fdSetSize ∧ Marked sw sw' j := by
  cases e with
  | failed => cases hs; exact Marked.same h rfl rfl
  | event ev =>
    cases ev with
    | call op =>
      obtain ⟨⟨sw₁, ret⟩, h₁, h₂⟩ := bind_ok hs
      cases h₂; exact call_marked h hE hn h₁
    | recv frame => exact dispatch_marked h hE hn hs
    | writeReady =>
      simp only [MsgSwitch.sockStep, MsgSwitch.step] at hs
      split_ifs at hs with harm
      swap
      · cases hs; exact Marked.same h rfl rfl
      obtain ⟨⟨sw₁, frame⟩, h₁, hs'⟩ := bind_ok hs
      have hdis : ∀ sw₂ : MsgSwitch, sw₂.disarm.msgs = sw₂.msgs ∧
          (sw₂.disarm.activeReadFdSet, sw₂.disarm.activeWriteFdSet, sw₂.disarm.selectable,
            sw₂.disarm.nSelectable) =
          (sw₂.activeReadFdSet, sw₂.activeWriteFdSet, sw₂.selectable, sw₂.nSelectable) := by
        intro sw₂; unfold MsgSwitch.disarm; split_ifs <;> exact ⟨rfl, rfl⟩
      unfold msgSwitchWrite at h₁
      obtain ⟨⟨sw₂, f₂⟩, h₂, h₁⟩ := bind_ok h₁
      have hsw' : sw' = sw₂.disarm := by cases h₁; cases hs'; rfl
      rw [hsw']
      cases hr : sw.pendingResps with
      | cons r rest =>
        rw [hr] at h₂
        cases h₂
        exact Marked.same h (hdis _).1 (hdis _).2
      | nil =>
        rw [hr] at h₂
        obtain ⟨⟨sw₃, p⟩, h₃, h₂⟩ := bind_ok h₂
        cases h₂
        unfold msgSwitchPopWritPacket at h₃
        cases hp : sw.pendingMsgs with
        | nil => rw [hp] at h₃; cases h₃
        | cons ptr tail =>
          rw [hp] at h₃
          simp only at h₃
          cases hi : sw.msgs ptr.msgid with
          | none => rw [hi] at h₃; cases h₃
          | some m =>
            rw [hi] at h₃
            simp only at h₃
            split_ifs at h₃
            have hlow : sw.ready ptr.msgid = false := by
              simpa [MsgSwitch.rechecks, hr, hp, harm] using hn
            have hsel : sw.selectable ptr.msgid = false := by
              rw [hE _ _ hi]
              simpa [MsgSwitch.ready, hi] using hlow
            have hi' : ({ sw with pendingMsgs := tail } : MsgSwitch).msgs ptr.msgid = some m := hi
            cases hq : m.writQueue with
            | nil =>
              simp only [msgPopWritPacket, MsgSwitch.assertMsg, hi, hq, bind, Except.bind] at h₃
              cases h₃
            | cons q rest =>
              have s := popWrit_seen hi' hq (fun ht => by
                rw [show ({ sw with pendingMsgs := tail } : MsgSwitch).selectable ptr.msgid = _
                  from hsel] at ht
                cases ht) h₃
              have l : Looks sw { sw with pendingMsgs := tail } ptr.msgid
                  (sw.selectable ptr.msgid) := Looks.same (fun _ _ => rfl) rfl
              have ld : Looks sw₂ sw₂.disarm ptr.msgid (sw₂.selectable ptr.msgid) :=
                Looks.same (fun _ _ => by rw [(hdis sw₂).1]) (hdis sw₂).2
              rw [s.looks.sel, Function.update_self] at ld
              refine ⟨_, (h.slots.slot _ _ hi).2, Seen.marked_same hi ⟨?_, (l.trans s.looks).trans ld⟩⟩
              rw [(hdis sw₂).1]
              exact s.slot

/-! ## The counter of one switch -/

/-- The live msgs of a switch that are marked. -/
def MsgSwitch.nMarked (sw : MsgSwitch) : ℕ := ∑ j ∈ Finset.range fdSetSize, (sw.marked j).toNat

/-- The live msgs of a switch that are ready. -/
def MsgSwitch.nReady (sw : MsgSwitch) : ℕ := ∑ j ∈ Finset.range fdSetSize, (sw.ready j).toNat

theorem MsgSwitch.Exact.marked_eq (hE : sw.Exact) (j : ℕ) : sw.marked j = sw.ready j := by
  unfold MsgSwitch.marked MsgSwitch.ready
  cases hj : sw.msgs j with
  | none => rfl
  | some m => rw [hE j m hj]; rfl

theorem Marked.marked_other (h : Marked sw sw' j) {i : ℕ} (hi : i ≠ j) :
    sw'.marked i = sw.marked i := by
  unfold MsgSwitch.marked
  rw [h.msgs i hi, h.sel i hi]

theorem Marked.exact (h : Marked sw sw' j) (hE : sw.Exact) : sw'.Exact := by
  intro i m hi
  by_cases hij : i = j
  · subst hij
    exact h.right m hi
  · unfold MsgSwitch.Right
    rw [h.sel i hij, h.rd i hij, h.wr i hij]
    rw [h.msgs i hij] at hi
    exact hE i m hi

/-- The counter moves with the number of marks. -/
theorem Marked.nMarked (h : Marked sw sw' j) (hj : j < fdSetSize) :
    sw'.nSelectable - sw'.nMarked = sw.nSelectable - sw.nMarked := by
  have hmem : j ∈ Finset.range fdSetSize := Finset.mem_range.2 hj
  have hrest : ∑ i ∈ (Finset.range fdSetSize).erase j, (sw'.marked i).toNat =
      ∑ i ∈ (Finset.range fdSetSize).erase j, (sw.marked i).toNat :=
    Finset.sum_congr rfl fun i hi => by rw [h.marked_other (Finset.ne_of_mem_erase hi)]
  have hsum : ∀ s : MsgSwitch, s.nMarked =
      (s.marked j).toNat + ∑ i ∈ (Finset.range fdSetSize).erase j, (s.marked i).toNat :=
    fun s => (Finset.add_sum_erase _ _ hmem).symm
  have hc := h.count
  rw [hsum sw', hsum sw, hrest]
  push_cast
  omega

/-- The loop of `msg_switch_destroy` leaves the slots it has passed empty. -/
theorem msgFreeAll_marked : ∀ (is : List ℕ) (sw sw' : MsgSwitch),
    (∀ i ∈ is, i < fdSetSize) → msgFreeAll is sw = .ok sw' →
      sw'.nSelectable - sw'.nMarked = sw.nSelectable - sw.nMarked ∧
        (∀ i ∈ is, sw'.msgs i = none) ∧ ∀ i, sw.msgs i = none → sw'.msgs i = none := by
  intro is
  induction is with
  | nil =>
    intro sw sw' _ hc
    cases hc
    exact ⟨rfl, by simp, fun _ h => h⟩
  | cons i is ih =>
    intro sw sw' hlt hc
    obtain ⟨sw₁, h₁, hc⟩ := bind_ok hc
    obtain ⟨hn, hall, hkeep⟩ := ih sw₁ sw' (fun k hk => hlt k (List.mem_cons_of_mem _ hk)) hc
    have hone : sw₁.nSelectable - sw₁.nMarked = sw.nSelectable - sw.nMarked ∧
        sw₁.msgs i = none ∧ ∀ k, sw.msgs k = none → sw₁.msgs k = none := by
      cases hi : sw.msgs i with
      | none =>
        simp only [hi, Option.isSome_none] at h₁
        cases h₁
        exact ⟨rfl, hi, fun _ h => h⟩
      | some m =>
        simp only [hi, Option.isSome_some, if_true] at h₁
        obtain ⟨hm, hnone⟩ := msgFree_marked hi h₁
        refine ⟨hm.nMarked (hlt i List.mem_cons_self), hnone, fun k hk => ?_⟩
        by_cases hki : k = i
        · rw [hki]; exact hnone
        · rw [hm.msgs k hki]; exact hk
    refine ⟨hn.trans hone.1, fun k hk => ?_, fun k hk => hkeep k (hone.2.2 k hk)⟩
    rcases List.mem_cons.1 hk with rfl | hk
    · exact hkeep k hone.2.1
    · exact hall k hk

theorem msgSwitchDestroy_count (hc : msgSwitchDestroy sw = .ok sw') :
    sw'.nSelectable = sw.nSelectable - sw.nMarked := by
  unfold msgSwitchDestroy at hc
  obtain ⟨hn, hall, -⟩ := msgFreeAll_marked (List.range fdSetSize) sw sw' (by simp) hc
  have hzero : sw'.nMarked = 0 := by
    unfold MsgSwitch.nMarked
    refine Finset.sum_eq_zero fun i hi => ?_
    unfold MsgSwitch.marked
    rw [hall i (List.mem_range.2 (Finset.mem_range.1 hi))]
    rfl
  rw [hzero] at hn
  omega

theorem msgSwitchCreate_nMarked : msgSwitchCreate.nMarked = 0 := by
  unfold MsgSwitch.nMarked
  exact Finset.sum_eq_zero fun _ _ => rfl

/-! ## The layer -/

namespace Switches

variable {σ σ' : Switches} {fd : ℕ}

/-- The msgs of the switch of `fd` that are marked. -/
def nMarkedAt (σ : Switches) (fd : ℕ) : ℕ := ((σ.sw fd).map MsgSwitch.nMarked).getD 0

/-- The msgs of the layer that are ready. -/
def nReady (σ : Switches) : ℕ :=
  ∑ fd ∈ Finset.range fdSetSize, ((σ.sw fd).map MsgSwitch.nReady).getD 0

/-- Every switch has its tables in order and its marks right, and the counter counts the
marks. -/
structure Counted (σ : Switches) : Prop where
  fds : ∀ fd sw, σ.sw fd = some sw → fd < fdSetSize
  tables : ∀ fd sw, σ.sw fd = some sw → Tables sw
  exact : ∀ fd sw, σ.sw fd = some sw → sw.Exact
  count : σ.nSelectable = ∑ fd ∈ Finset.range fdSetSize, (σ.nMarkedAt fd : ℤ)

/-- One switch is replaced, made or dropped, and the counter moves by as much as its marks. -/
theorem Counted.update (h : Counted σ) (hfd : fd < fdSetSize) {o : Option MsgSwitch} {n : ℤ}
    (ht : ∀ sw, o = some sw → Tables sw) (hE : ∀ sw, o = some sw → sw.Exact)
    (hn : n = σ.nSelectable - σ.nMarkedAt fd + ((o.map MsgSwitch.nMarked).getD 0 : ℕ)) :
    Counted ⟨Function.update σ.sw fd o, n⟩ := by
  have hsw : ∀ {P : ℕ → MsgSwitch → Prop}, (∀ fd sw, σ.sw fd = some sw → P fd sw) →
      (∀ sw, o = some sw → P fd sw) →
      ∀ k sw, Function.update σ.sw fd o k = some sw → P k sw := by
    intro P hold hnew k sw hk
    by_cases hkf : k = fd
    · subst hkf
      rw [Function.update_self] at hk
      exact hnew sw hk
    · rw [Function.update_of_ne hkf] at hk
      exact hold k sw hk
  have hmem : fd ∈ Finset.range fdSetSize := Finset.mem_range.2 hfd
  have hrest : ∑ k ∈ (Finset.range fdSetSize).erase fd,
      ((⟨Function.update σ.sw fd o, n⟩ : Switches).nMarkedAt k : ℤ) =
      ∑ k ∈ (Finset.range fdSetSize).erase fd, (σ.nMarkedAt k : ℤ) := by
    refine Finset.sum_congr rfl fun k hk => ?_
    unfold nMarkedAt
    simp only [Function.update_of_ne (Finset.ne_of_mem_erase hk)]
  have hself : (⟨Function.update σ.sw fd o, n⟩ : Switches).nMarkedAt fd =
      (o.map MsgSwitch.nMarked).getD 0 := by
    unfold nMarkedAt
    simp only [Function.update_self]
  refine ⟨hsw h.fds fun _ _ => hfd, hsw h.tables ht, hsw h.exact hE, ?_⟩
  rw [← Finset.add_sum_erase _ _ hmem, hrest, hself]
  have hc := h.count
  rw [← Finset.add_sum_erase _ _ hmem] at hc
  show n = _
  omega

theorem nMarkedAt_some {sw : MsgSwitch} (h : σ.sw fd = some sw) : σ.nMarkedAt fd = sw.nMarked := by
  unfold nMarkedAt
  rw [h, Option.map_some, Option.getD_some]

/-- What a step of one switch is handed. -/
theorem Counted.get {sw : MsgSwitch} (h : Counted σ) (hg : σ.get fd = some sw) :
    fd < fdSetSize ∧ Tables sw ∧ sw.Exact ∧ sw.nSelectable = σ.nSelectable ∧
      sw.nMarked = σ.nMarkedAt fd := by
  unfold Switches.get at hg
  obtain ⟨sw₀, h₀, rfl⟩ := Option.map_eq_some_iff.1 hg
  refine ⟨h.fds _ _ h₀, ⟨(h.tables _ _ h₀).slots, (h.tables _ _ h₀).maps⟩,
    fun j m hj => h.exact fd sw₀ h₀ j m hj, rfl, ?_⟩
  rw [nMarkedAt_some h₀]
  exact Finset.sum_congr rfl fun _ _ => rfl

theorem Counted.init : Counted Switches.init where
  fds := by rintro _ _ ⟨⟩
  tables := by rintro _ _ ⟨⟩
  exact := by rintro _ _ ⟨⟩
  count := (Finset.sum_eq_zero fun _ _ => rfl).symm

theorem Counted.step (a : SwAct) (h : Counted σ) (hn : σ.rechecks a = false)
    (hs : σ.step a = .ok σ') : Counted σ' := by
  cases a with
  | create fd =>
    simp only [Switches.step] at hs
    split_ifs at hs with hfree
    · cases hs
      simp only [Bool.and_eq_true, decide_eq_true_eq, Option.isNone_iff_eq_none] at hfree
      refine h.update hfree.1 ?_ ?_ ?_
      · rintro _ ⟨⟩; exact Tables.create
      · rintro _ ⟨⟩ _ _ ⟨⟩
      · have h₁ : σ.nMarkedAt fd = 0 := by unfold nMarkedAt; rw [hfree.2]; rfl
        rw [h₁, Option.map_some, Option.getD_some, msgSwitchCreate_nMarked]
        omega
    · cases hs; exact h
  | destroy fd =>
    simp only [Switches.step] at hs
    cases hg : σ.get fd with
    | none => rw [hg] at hs; cases hs; exact h
    | some sw =>
      rw [hg] at hs
      obtain ⟨sw₁, h₁, hs⟩ := bind_ok hs
      cases hs
      obtain ⟨hfd, -, -, hcount, hat⟩ := h.get hg
      refine h.update hfd (by rintro _ ⟨⟩) (by rintro _ ⟨⟩) ?_
      rw [Option.map_none, Option.getD_none, msgSwitchDestroy_count h₁, hcount, hat]
      omega
  | event fd e =>
    simp only [Switches.step] at hs
    cases hg : σ.get fd with
    | none => rw [hg] at hs; cases hs; exact h
    | some sw =>
      rw [hg] at hs
      obtain ⟨sw₁, h₁, hs⟩ := bind_ok hs
      cases hs
      obtain ⟨hfd, ht, hE, hcount, hat⟩ := h.get hg
      have hn' : sw.rechecks e = false := by
        unfold Switches.get at hg
        obtain ⟨sw₀, h₀, rfl⟩ := Option.map_eq_some_iff.1 hg
        simp only [Switches.rechecks, h₀] at hn
        exact hn
      obtain ⟨j, hj, hm⟩ := sockStep_marked ht hE hn' h₁
      refine h.update hfd ?_ ?_ ?_
      · rintro _ ⟨⟩; exact (ht.sockStep h₁).1
      · rintro _ ⟨⟩; exact hm.exact hE
      · have hd := hm.nMarked hj
        rw [hcount, hat] at hd
        rw [Option.map_some, Option.getD_some]
        omega

theorem Counted.nReady_eq (h : Counted σ) : σ.nSelectable = σ.nReady := by
  rw [h.count]
  unfold nReady nMarkedAt
  push_cast
  refine Finset.sum_congr rfl fun fd _ => ?_
  cases hfd : σ.sw fd with
  | none => rw [Option.map_none, Option.map_none]
  | some sw =>
    have : sw.nMarked = sw.nReady := by
      unfold MsgSwitch.nMarked MsgSwitch.nReady
      exact Finset.sum_congr rfl fun j _ => by rw [(h.exact fd sw hfd).marked_eq]
    rw [Option.map_some, Option.getD_some, Option.map_some, Option.getD_some, this]

theorem Counted.needSelect_iff (h : Counted σ) :
    msgSwitchNeedSelect σ = true ↔ ∃ fd sw j, σ.sw fd = some sw ∧ sw.ready j = true := by
  unfold msgSwitchNeedSelect
  rw [decide_eq_true_eq, h.nReady_eq]
  constructor
  · intro hne
    obtain ⟨fd, -, hfd⟩ := Finset.exists_ne_zero_of_sum_ne_zero (Nat.cast_ne_zero.1 hne)
    cases hsw : σ.sw fd with
    | none => rw [hsw, Option.map_none, Option.getD_none] at hfd; exact absurd rfl hfd
    | some sw =>
      rw [hsw, Option.map_some, Option.getD_some] at hfd
      unfold MsgSwitch.nReady at hfd
      obtain ⟨j, -, hj⟩ := Finset.exists_ne_zero_of_sum_ne_zero hfd
      refine ⟨fd, sw, j, hsw, ?_⟩
      cases hr : sw.ready j with
      | true => rfl
      | false => rw [hr] at hj; exact absurd rfl hj
  · rintro ⟨fd, sw, j, hsw, hj⟩ hz
    have hz : σ.nReady = 0 := by exact_mod_cast hz
    unfold nReady at hz
    have hfd := Finset.sum_eq_zero_iff.1 hz fd (Finset.mem_range.2 (h.fds fd sw hsw))
    rw [hsw, Option.map_some, Option.getD_some] at hfd
    unfold MsgSwitch.nReady at hfd
    -- a live msg sits in a slot of the table
    have hlive : ∃ m, sw.msgs j = some m := by
      unfold MsgSwitch.ready at hj
      cases hm : sw.msgs j with
      | none => rw [hm] at hj; cases hj
      | some m => exact ⟨m, rfl⟩
    obtain ⟨m, hm⟩ := hlive
    have hlt := ((h.tables fd sw hsw).slots.slot j m hm).2
    have hzero := Finset.sum_eq_zero_iff.1 hfd j (Finset.mem_range.2 hlt)
    rw [hj] at hzero
    cases hzero

end Switches

/-- **The ready counter is exact** in every run of the layer in which no step checks a msg
that is marked and still ready. -/
theorem need_select_exact (acts : List SwAct) (σ : Switches)
    (hC : Along Switches.step (fun σ a => σ.rechecks a = false) Switches.init acts)
    (hrun : run Switches.step Switches.init acts = .ok σ) :
    σ.nSelectable = σ.nReady ∧
      (msgSwitchNeedSelect σ = true ↔ ∃ fd sw j, σ.sw fd = some sw ∧ sw.ready j = true) := by
  have h : σ.Counted :=
    run_inv (fun _ a _ hI hn hs => Switches.Counted.step a hI hn hs) acts _ _
      Switches.Counted.init hC hrun
  exact ⟨h.nReady_eq, h.needSelect_iff⟩

/-- Two switches; a msg of the first is armed for writing. -/
def armedRun : List SwAct :=
  [.create 4, .create 9, .event 4 (.event (.call (.open 7))), .event 4 (.event (.call (.setWrite 1)))]

theorem need_select_exact_armed :
    ∃ σ, run Switches.step Switches.init armedRun = .ok σ ∧ σ.nSelectable = 1 ∧
      σ.nSelectable = σ.nReady ∧
      (msgSwitchNeedSelect σ = true ↔ ∃ fd sw j, σ.sw fd = some sw ∧ sw.ready j = true) := by
  obtain ⟨σ, h⟩ : ∃ σ, run Switches.step Switches.init armedRun = .ok σ := ⟨_, rfl⟩
  have hn : (run Switches.step Switches.init armedRun).toOption.map (·.nSelectable) = some 1 := by
    decide
  rw [h] at hn
  exact ⟨σ, h, by simpa [Except.toOption] using hn, need_select_exact armedRun σ (by decide) h⟩

/-- The first packet of a msg that the peer opens: it waits to be accepted, and the counter
is 0. -/
theorem need_select_missed :
    ∃ σ sw, run Switches.step Switches.init
        [.create 4, .event 4 (.event (.recv (.pack ⟨-5, 7, [1], 0⟩)))] = .ok σ ∧
      σ.sw 4 = some sw ∧ sw.ready 1 = true ∧ msgSwitchNeedSelect σ = false ∧ σ.nSelectable = 0 := by
  refine ⟨_, _, rfl, rfl, ?_, ?_, ?_⟩ <;> decide

end Zimr
