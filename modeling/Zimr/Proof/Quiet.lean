import Mathlib.Algebra.BigOperators.Group.Finset.Basic
import Zimr.Proof.Acks
import Zimr.Proof.Closing
import Zimr.Proof.Discon
import Zimr.Proof.Exhausted
import Zimr.Proof.Pending

/-!
# The link comes to rest

When the applications stop calling, the write and read events come to an end: each of them
takes something off what there is to move (`Net.toMove`).

* `comes_to_rest` — in every run, after whatever calls
* `rest_delivered` — what has arrived then, in every run without `msg_close`
-/

namespace Zimr

open Finset (range)

variable {σ σ' : Net} {s : Side} {j x y : ℕ} {m m' n : Msg} {str dns : Bool} {a : Act}
  {sw sw' : MsgSwitch} {R : List MsgResp} {P : List MsgPtr} {strong : Prop} {f : Frame}

/-! ## What there is to move -/

/-- A packet is written, read and acknowledged; a disconnect is written, and answered. -/
def Frame.toMove : Frame → ℕ
  | .resp _ => 1
  | .pack _ => 6

def Msg.toMove (m : Msg) : ℕ :=
  7 * m.writQueue.length +
    if m.status.sentDisconnect then 0 else 3 + 7 * m.incompleteWritPacket.toList.length

def slotToMove (o : Option Msg) : ℕ := o.elim 0 Msg.toMove

def MsgSwitch.toMove (sw : MsgSwitch) : ℕ :=
  (∑ j ∈ range fdSetSize, slotToMove (sw.msgs j)) + 2 * sw.pendingResps.length

def Net.toMoveAt (σ : Net) (s : Side) : ℕ := (σ.ep s).toMove + ((σ.chan s).map Frame.toMove).sum

/-- The weight of a state. -/
def Net.toMove (σ : Net) : ℕ := σ.toMoveAt .a + σ.toMoveAt .b

theorem Net.toMove_eq (σ : Net) (s : Side) : σ.toMove = σ.toMoveAt s + σ.toMoveAt s.other := by
  cases s with
  | a => rfl
  | b => exact Nat.add_comm _ _

theorem Frame.toMove_pos (f : Frame) : 1 ≤ f.toMove := by cases f <;> simp [Frame.toMove]

/-- One slot is written. -/
theorem sum_slot (msgs : ℕ → Option Msg) (hj : j < fdSetSize) (o : Option Msg) :
    (∑ i ∈ range fdSetSize, slotToMove (Function.update msgs j o i)) + slotToMove (msgs j) =
      (∑ i ∈ range fdSetSize, slotToMove (msgs i)) + slotToMove o := by
  have hmem : j ∈ range fdSetSize := Finset.mem_range.2 hj
  have hrest : ∑ i ∈ (range fdSetSize).erase j, slotToMove (Function.update msgs j o i) =
      ∑ i ∈ (range fdSetSize).erase j, slotToMove (msgs i) :=
    Finset.sum_congr rfl fun i hi => by rw [Function.update_of_ne (Finset.ne_of_mem_erase hi)]
  rw [← Finset.add_sum_erase _ _ hmem, ← Finset.add_sum_erase _ (fun i => slotToMove (msgs i)) hmem,
    hrest, Function.update_self]
  omega

theorem MsgSwitch.toMove_update {o : Option Msg} (hj : j < fdSetSize)
    (hm : sw'.msgs = Function.update sw.msgs j o) (hr : sw'.pendingResps = sw.pendingResps ++ R) :
    sw'.toMove + slotToMove (sw.msgs j) = sw.toMove + slotToMove o + 2 * R.length := by
  have := sum_slot sw.msgs hj o
  simp only [MsgSwitch.toMove, hm, hr, List.length_append]
  omega

theorem Only.toMove (o : Only sw sw' j m' R P) (hj : sw.msgs j = some m) (hb : j < fdSetSize) :
    sw'.toMove + m.toMove = sw.toMove + m'.toMove + 2 * R.length := by
  have := MsgSwitch.toMove_update hb o.msgs o.resps
  rw [hj] at this
  exact this

/-! ## One event -/

/-- `recvOkTail_flush`, with what is left to send: the incomplete packet is in the queue. -/
theorem recvOkTail_queues (h : sw.msgs j = some m) (hm : MsgOK m) (hc : m.status.closed = false)
    (hs : m.status.sentDisconnect = false) :
    ∃ sw' m', recvOkTail sw j false = .ok sw' ∧ (∃ P, Only sw sw' j m' [] P) ∧
      m'.toMove = m.toMove := by
  obtain ⟨sw₁, m₁, ret, hf, mv, hinc, -⟩ := msgFlush_moves (S := True) (H := True) h hm
  obtain ⟨sw₂, sw₃, h₂, h₃, o⟩ := check_update_ok mv.only.get mv.ok
  refine ⟨sw₃, m₁, ?_, ⟨_, mv.only.trans o⟩, ?_⟩
  · simp only [recvOkTail, MsgSwitch.assertMsg, hf, mv.only.get, bind, Except.bind, pure, Except.pure]
    rw [if_pos (by simp), if_neg (by simp [mv.closed, hc])]
    simp only [h₂, h₃]
  · simp only [Msg.toMove, mv.sent, mv.writs, hinc, hs, List.length_append, Option.toList_none,
      List.length_nil, Bool.false_eq_true, if_false]
    omega

/-- An acknowledgement moves what waits for it. -/
theorem msgRecvResp_ok_toMove {resp : MsgResp} (hj : sw.msgs j = some m) (hm : MsgOK m)
    (hb : j < fdSetSize) (hr : resp.status = .ok) (hs : m.status.sentDisconnect = false)
    (hw : m.status.waitingForResp = true) (hc : msgRecvResp sw j resp = .ok sw') :
    sw'.toMove ≤ sw.toMove := by
  have o₁ := Only.set sw j m.acked
  have h₁ := o₁.toMove hj hb
  have hacked : m.acked.toMove = m.toMove := rfl
  rw [msgRecvResp_ok_eq hj hr hs hw] at hc
  have hnw : m.status.writing = false := by
    cases hwr : m.status.writing with
    | false => rfl
    | true => rw [(hm.writing hwr).1] at hw; cases hw
  by_cases hq : m.writQueue = []
  · have hp : m.status.packetAvailToWrit = false := by rw [hm.paw, hq]; rfl
    rw [hp] at hc
    cases hcl : m.status.closed with
    | false =>
      obtain ⟨sw₂, m₂, h₂, ⟨P, o₂⟩, hw₂⟩ := recvOkTail_queues o₁.get (hm.acked hq hcl) hcl hs
      rw [h₂] at hc; cases hc
      have h₃ := o₂.toMove o₁.get hb
      rw [List.length_nil] at h₁ h₃
      omega
    | true =>
      obtain ⟨sw₂, h₂, o₂⟩ := recvOkTail_shut o₁.get hm hq hcl
      rw [h₂] at hc; cases hc
      have h₃ := o₂.toMove o₁.get hb
      have h₅ : ({ m.acked with status.sentDisconnect := true } : Msg).toMove = 0 := by
        simp [Msg.toMove, Msg.acked, hq]
      have h₄ : 3 ≤ m.acked.toMove := by
        simp only [Msg.toMove, Msg.acked, hs, Bool.false_eq_true, if_false]
        omega
      rw [List.length_nil] at h₁
      rw [h₅, List.length_singleton] at h₃
      omega
  · have hp : m.status.packetAvailToWrit = true := by rw [hm.paw]; simpa using hq
    rw [hp] at hc
    obtain ⟨sw₂, h₂, o₂⟩ := recvOkTail_more o₁.get hm hq hnw
    rw [h₂] at hc; cases hc
    have h₃ : _ = _ + m.toMove + 2 * 0 := o₂.toMove o₁.get hb
    rw [List.length_nil] at h₁
    omega

/-- A packet that comes to a msg is acknowledged at most. -/
theorem msgPushReadPacket_toMove {p : MsgPacket} (hj : sw.msgs j = some m) (hb : j < fdSetSize)
    (hc : msgPushReadPacket sw j p = .ok sw') : sw'.toMove ≤ sw.toMove + 2 := by
  obtain ⟨sw₁, h₁, o⟩ := msgPushReadPacket_only p hj
  rw [h₁] at hc; cases hc
  have h₂ : _ = _ + m.toMove + _ := o.toMove hj hb
  have h₃ : (m.pushRead p).updResps.length ≤ 1 := by
    unfold Msg.updResps
    split_ifs <;> simp
  omega

/-- **A frame** that is read moves nothing back. -/
theorem SwOK.dispatch_toMove (h : SwOK strong sw) (hc : msgSwitchDispatch sw f = .ok sw') :
    sw'.toMove + 1 ≤ sw.toMove + f.toMove := by
  have hpos := f.toMove_pos
  cases dispatch_eff (S := True) (H := True) h hc with
  | dropped resp hf hg he => rw [he]; omega
  | ignored resp m hf hg hr hs he => rw [he]; omega
  | acked resp m m' R hf hg hr hs hw t _ =>
    subst hf
    have hj := h.get_slot hg
    simp only [msgSwitchDispatch, hg] at hc
    have := msgRecvResp_ok_toMove hj (h.slots.ok _ _ hj) (h.slots.slot _ _ hj).2 hr hs hw hc
    omega
  | answered resp m m' hf hg hr hs a =>
    have hj := h.get_slot hg
    have h₁ := MsgSwitch.toMove_update (h.slots.slot _ _ hj).2 a.msgs a.resps
    have h₂ : slotToMove (some m') = 0 := by
      simp [slotToMove, Msg.toMove, (a.ok.disc a.disc).1, a.writs]
    have h₃ : 3 ≤ slotToMove (some m) := by
      simp only [slotToMove, Option.elim, Msg.toMove, hs, Bool.false_eq_true, if_false]
      omega
    rw [hj, h₂, List.length_singleton] at h₁
    omega
  | freed resp m hf hg hr hs c =>
    have hj := h.get_slot hg
    have h₁ := MsgSwitch.toMove_update (R := []) (h.slots.slot _ _ hj).2 c.msgs (by simpa using c.resps)
    have h₂ : slotToMove none = 0 := rfl
    rw [h₂, List.length_nil] at h₁
    omega
  | data p m m' R hf hg t _ =>
    subst hf
    have hj := h.get_slot hg
    simp only [msgSwitchDispatch, hg] at hc
    have := msgPushReadPacket_toMove hj (h.slots.slot _ _ hj).2 hc
    have : (Frame.pack p).toMove = 6 := rfl
    omega
  | born p sw₁ j m' R hf hg hneg c t _ =>
    subst hf
    rcases dispatch_new_cases hg with ⟨-, he⟩ | ⟨-, he, -⟩ | ⟨-, sw₂, i, hrun, c⟩
    · rw [he] at hc; cases hc
    · rw [he] at hc; cases hc
    · rw [hrun] at hc
      have h₁ := MsgSwitch.toMove_update (R := []) c.slot.2 c.msgs (by simpa using c.resps)
      have h₂ : slotToMove (some (.fresh sw.nextAddr i p.type false p.msgid.natAbs)) = 3 := rfl
      have h₃ : slotToMove none = 0 := rfl
      have := msgPushReadPacket_toMove (by rw [c.msgs]; exact Function.update_self ..) c.slot.2 hc
      have : (Frame.pack p).toMove = 6 := rfl
      rw [c.free, h₂, h₃, List.length_nil] at h₁
      omega

theorem MsgSwitch.disarm_toMove (sw : MsgSwitch) : sw.disarm.toMove = sw.toMove := by
  obtain ⟨hm, hr, -⟩ := sw.disarm_eq
  simp only [MsgSwitch.toMove, hm, hr]

/-- **A frame** that is written has less to go. -/
theorem SwOK.write_toMove (h : SwOK strong sw) (hc : msgSwitchWrite sw = .ok (sw', f)) :
    sw'.toMove + f.toMove + 1 ≤ sw.toMove := by
  rcases msgSwitchWrite_cases h.slots hc with
    ⟨r, rest, hr, rfl, rfl⟩ | ⟨m, p, rest, tail, sw₁, hr, hp, hj, hq, rfl, rfl, o⟩
  · rw [MsgSwitch.disarm_toMove]
    simp only [MsgSwitch.toMove, hr, Frame.toMove, List.length_cons]
    omega
  · rw [MsgSwitch.disarm_toMove]
    have h₁ := o.toMove (m := m) hj (h.slots.slot _ _ hj).2
    have h₂ : m.toMove = (m.popWrit rest).toMove + 7 := by
      simp only [Msg.toMove, hq, List.length_cons]
      change _ = 7 * rest.length + (if m.status.sentDisconnect then 0
        else 3 + 7 * m.incompleteWritPacket.toList.length) + 7
      omega
    have h₃ : sw₁.toMove + m.toMove = sw.toMove + (m.popWrit rest).toMove + 2 * 0 := h₁
    have h₄ : (Frame.pack p).toMove = 6 := rfl
    omega

/-! ## Events -/

/-- An event of the link: the write event of an armed socket, or a frame to read. -/
def Net.stirs (σ : Net) : Act → Bool
  | .call _ _ => false
  | .writeReady s => (σ.ep s).writeArmed
  | .readReady s => !(σ.chan s.other).isEmpty

theorem Net.step_sw (h : ∀ s, SwOK False (σ.ep s)) (hs : σ.step a = .ok σ') (s : Side) :
    SwOK False (σ'.ep s) := by
  rcases Net.step_ep hs s with he | ⟨ev, hev, -⟩
  · rw [he]; exact h s
  · exact (h s).step False.elim hev

/-- **Each event takes something off.** -/
theorem Net.stirs_toMove (h : ∀ s, SwOK False (σ.ep s)) (ha : σ.stirs a = true)
    (hs : σ.step a = .ok σ') : σ'.toMove + 1 ≤ σ.toMove := by
  cases a with
  | call s op => cases ha
  | writeReady s =>
    have harm : (σ.ep s).writeArmed = true := ha
    simp only [Net.step, Net.writeReady, if_pos harm] at hs
    obtain ⟨⟨sw, frame⟩, h₁, hc⟩ := bind_ok hs
    cases hc
    have := (h s).write_toMove h₁
    rw [Net.toMove_eq _ s, Net.toMove_eq σ s]
    simp only [Net.toMoveAt, Net.setChan_ep, Net.setEp_ep, Net.setEp_ep_other, Net.setChan_chan,
      Net.setChan_chan_other, Net.setEp_chan, List.map_append, List.sum_append, List.map_cons,
      List.map_nil, List.sum_cons, List.sum_nil]
    omega
  | readReady s =>
    cases hch : σ.chan s.other with
    | nil => simp [Net.stirs, hch] at ha
    | cons f rest =>
      simp only [Net.step, Net.readReady, hch] at hs
      obtain ⟨sw, h₁, hc⟩ := bind_ok hs
      have h₂ := (h s).dispatch_toMove h₁
      -- the histories weigh nothing
      have hw : σ'.toMove = ((σ.setEp s sw).setChan s.other rest).toMove := by
        split_ifs at hc <;> · cases hc; rfl
      rw [hw, Net.toMove_eq _ s, Net.toMove_eq σ s]
      simp only [Net.toMoveAt, Net.setChan_ep, Net.setEp_ep, Net.setEp_ep_other, Net.setChan_chan,
        Net.setChan_other_chan, Net.setEp_chan, hch, List.map_cons, List.sum_cons]
      omega

/-- The link is at rest when nothing is queued or in flight. -/
theorem Net.quiescent_iff_rest (h : ∀ s, SwOK False (σ.ep s)) :
    σ.Quiescent ↔ ∀ a, σ.stirs a = false := by
  constructor
  · intro hq a
    cases a with
    | call s op => rfl
    | writeReady s =>
      show (σ.ep s).writeArmed = false
      rw [(h s).armed]
      simp [msgSwitchHasAvailWrits, (hq s).2.1, (hq s).2.2]
    | readReady s => simp [Net.stirs, (hq s.other).1]
  · intro hr s
    have hw : (σ.ep s).writeArmed = false := hr (.writeReady s)
    have hc := hr (.readReady s.other)
    rw [(h s).armed] at hw
    simp only [msgSwitchHasAvailWrits, Bool.or_eq_false_iff, Bool.not_eq_false',
      List.isEmpty_iff] at hw
    simp only [Net.stirs, Side.other_other, Bool.not_eq_false', List.isEmpty_iff] at hc
    exact ⟨hc, hw.2, hw.1⟩

/-- **The link comes to rest.** From wherever a run ends, after whatever calls: at most
`Net.toMove` write and read events follow one another, and after some of them nothing is queued
or in flight, unless an event stops the program. -/
theorem comes_to_rest (acts : List Act) (σ : Net) (hr : Run.run Net.step Net.init acts = .ok σ) :
    (∀ evs σ', Run.Along Net.step (fun σ a => σ.stirs a = true) σ evs →
      Run.run Net.step σ evs = .ok σ' → evs.length + σ'.toMove ≤ σ.toMove ∧
        (σ'.Quiescent ↔ ∀ a, σ'.stirs a = false)) ∧
    ∃ evs σ', Run.Along Net.step (fun σ a => σ.stirs a = true) σ evs ∧
      Run.run Net.step σ evs = .ok σ' ∧
      (σ'.Quiescent ∨ ∃ a e, σ'.stirs a = true ∧ σ'.step a = .error e) := by
  have hstep : ∀ (σ : Net) a σ', (∀ s, SwOK False (σ.ep s)) → σ.step a = .ok σ' →
      ∀ s, SwOK False (σ'.ep s) := fun σ a σ' h hs => Net.step_sw h hs
  have hσ : ∀ s, SwOK False (σ.ep s) :=
    Run.run_inv (C := fun _ _ => True) (fun σ a σ' h _ hs => hstep σ a σ' h hs) acts _ _
      (fun _ => SwOK.create) (Run.Along.of_forall fun _ _ => trivial) hr
  have hw := fun (σ : Net) a σ' (h : ∀ s, SwOK False (σ.ep s)) (hc : σ.stirs a = true)
    (hs : σ.step a = .ok σ') => Net.stirs_toMove h hc hs
  refine ⟨fun evs σ' hC hr' => ⟨Run.length_le_weight hstep hw evs _ _ hσ hC hr',
    Net.quiescent_iff_rest (Run.run_inv (fun σ a σ' h _ hs => hstep σ a σ' h hs) evs _ _ hσ hC hr')⟩, ?_⟩
  obtain ⟨evs, σ', hC, hr', hrest⟩ := Run.exists_rest hstep hw _ σ hσ le_rfl
  refine ⟨evs, σ', hC, hr', ?_⟩
  by_cases hq : ∀ a, σ'.stirs a = false
  · exact Or.inl ((Net.quiescent_iff_rest
      (Run.run_inv (fun σ a σ' h _ hs => hstep σ a σ' h hs) evs _ _ hσ hC hr')).2 hq)
  · obtain ⟨a, ha⟩ := not_forall.1 hq
    have ha : σ'.stirs a = true := by simpa using ha
    obtain ⟨e, he⟩ := hrest a ha
    exact Or.inr ⟨a, e, ha, he⟩

/-! ## What has arrived -/

/-- The bytes of the incomplete packet: written, and not flushed. -/
def Msg.unflushed (m : Msg) : List UInt8 := (m.incompleteWritPacket.toList.map MsgPacket.data).flatten

/-- What the other end of the msg `m` has of it: everything that was flushed, read or not, unless
it has as many packets to read as it may have. -/
structure Delivered (σ : Net) (s : Side) (m : Msg) : Prop where
  joined : ∀ y, σ.peer s m.addr = some y → ∃ i n, (σ.ep s.other).msgs i = some n ∧ n.addr = y ∧
    (n.readQueue.length = msgNBuffPacketsAllowed ∨
      (σ.log s m.addr).accepted = (σ.log s.other y).got ++ n.unread ++ m.unflushed)
  alone : σ.peer s m.addr = none → (σ.log s m.addr).accepted = m.unflushed

theorem Net.Quiescent.inFlight (hq : σ.Quiescent) (s : Side) (x : ℕ) : σ.inFlight s x = [] := by
  rw [Net.inFlight, (hq s).1]; rfl

theorem Net.Quiescent.oks (hq : σ.Quiescent) (s : Side) (x : ℕ) : σ.oks s x = 0 := by
  rw [Net.oks, Net.wire, (hq s).1, (hq s).2.1]; rfl

/-- What is queued for the link waits for an acknowledgement. -/
theorem NetOK.waits_of_queued (h : NetOK str dns σ) (hq : σ.Quiescent)
    (hj : (σ.ep s).msgs j = some m) (hw : m.writQueue ≠ []) : m.status.waitingForResp = true := by
  refine (((h.sw s).slots.ok _ _ hj).queued hw).resolve_left fun hwr => ?_
  have := (h.sw s).pend.writing j m hj hwr
  rw [(hq s).2.2] at this; cases this

theorem Msg.unsent_eq (hw : m.writQueue = []) : m.unsent = m.unflushed := by
  rw [Msg.unsent, hw]; rfl

/-- **At rest everything has arrived**, where there is room for it. -/
theorem NetOK.delivered (h : NetOK true dns σ) (hu : σ.Unclosed) (hb : σ.Bounded) (hq : σ.Quiescent)
    (hj : (σ.ep s).msgs j = some m) : Delivered σ s m where
  joined := fun y hp => by
    obtain ⟨-, i, n, hi, hn, -, hacc⟩ := (h.streamOf hu hj).joined y hp
    refine ⟨i, n, hi, hn, ?_⟩
    by_cases hw : m.writQueue = []
    · rw [hq.inFlight, Msg.unsent_eq hw] at hacc
      exact Or.inr (by simpa using hacc)
    · -- the reader owes the acknowledgement, so that it is full
      obtain ⟨i', n', hi', hn', hcount⟩ := (h.ackOf hu hj).joined y hp
      obtain rfl := (h.sw s.other).slots.inj _ _ _ _ hi hi' (hn.trans hn'.symm)
      rw [hi] at hi'
      cases hi'
      rw [h.waits_of_queued hq hj hw, hq.inFlight, hq.oks] at hcount
      have hneed : n.status.needToSendResp = true := by
        cases hneed : n.status.needToSendResp with
        | true => rfl
        | false => rw [hneed] at hcount; cases hcount
      have hm := (h.sw s.other).slots.ok _ _ hi
      have hd := (h.unclosed hu hi).2.2
      have hfull := hm.space hd
      rw [hm.need hneed hd] at hfull
      have hle := hb s.other i n hi
      have hge := of_decide_eq_false hfull.symm
      exact Or.inl (by omega)
  alone := fun hp => by
    have hacc := (h.streamOf hu hj).alone hp
    have hw : m.writQueue = [] := by
      by_contra hw
      have hcount := (h.ackOf hu hj).alone hp
      rw [h.waits_of_queued hq hj hw, hq.inFlight] at hcount
      cases hcount
    rw [hq.inFlight, Msg.unsent_eq hw] at hacc
    exact hacc

/-- No disconnect comes while nothing is closed. -/
theorem NetOK.no_discon {r : MsgResp} {rest : List Frame} (h : NetOK str dns σ) (hu : σ.Unclosed)
    (hch : σ.chan s.other = .resp r :: rest) : r.status = .ok := by
  cases hr : r.status with
  | ok => rfl
  | discon =>
    have hmem : Frame.resp r ∈ σ.wire s.other := by simp [Net.wire, hch]
    have hx : r.owner < σ.made s.other := ((h.ids s.other).frame _ hmem).1
    have hsent := (h.link s.other r.owner hx).inv.shake.sent_of_out
      (mem_outOf.2 ⟨_, hmem, rfl, by simp [Frame.item, MsgResp.item, hr]⟩)
    obtain ⟨i, n, hi, hn⟩ := h.alive hu hx
    have hst := h.stage_live hi
    rw [hn] at hst
    rcases hsent with hg | ⟨e, he, hse⟩
    · rw [hst] at hg; cases hg
    · rw [hst] at he
      cases he
      have := (h.unclosed hu hi).2.1
      rw [show n.status.sentDisconnect = _ from hse] at this; cases this

/-- What holds of the two ends while nothing is closed. -/
structure Net.Open (σ : Net) : Prop where
  ok : NetOK true false σ
  unclosed : σ.Unclosed
  bounded : σ.Bounded
  strong : ∀ s, SwOK True (σ.ep s)

theorem Net.Open.init : Net.Open Net.init :=
  ⟨NetOK.init true false, fun _ _ => rfl, fun s j m h => by simp [Net.init, msgSwitchCreate] at h,
    fun _ => SwOK.create⟩

theorem Net.Open.step (h : σ.Open) (ha : a.closes = false) (hs : σ.step a = .ok σ') : σ'.Open where
  ok := h.ok.step_unclosed h.unclosed ha hs
  unclosed := h.unclosed.step ha hs
  bounded := h.ok.bounded_step h.unclosed h.bounded hs
  strong := fun s => by
    rcases Net.step_ep hs s with he | ⟨ev, hev, hrecv⟩
    · rw [he]; exact h.strong s
    · refine (h.strong s).step (fun _ => ?_) hev
      cases ev with
      | call op => rfl
      | writeReady => rfl
      | recv f =>
        obtain ⟨-, rest, hch⟩ := hrecv f rfl
        cases f with
        | pack p => rfl
        | resp r =>
          have hr := h.ok.no_discon h.unclosed hch
          simp only [MsgSwitch.dropsWritingAt, MsgSwitch.dropsWriting]
          split
          · simp [hr]
          · rfl

theorem Net.stirs_closes (ha : σ.stirs a = true) : a.closes = false := by
  cases a with
  | call s op => cases ha
  | _ => rfl

/-- The ids of the frames on the way are those of slots. -/
theorem NetOK.msgid_lt (h : NetOK str dns σ) (hu : σ.Unclosed) {rest : List Frame}
    (hch : σ.chan s = f :: rest) (hneg : f.msgid < 0) : f.msgid.natAbs < fdSetSize := by
  have hmem : f ∈ σ.wire s := by
    unfold Net.wire
    rw [hch]
    exact List.mem_append_left _ List.mem_cons_self
  obtain ⟨howner, hid⟩ := (h.ids s).frame f hmem
  -- whoever has sent it is still there, in the slot that the id names
  obtain ⟨j, m, hj, hm⟩ := h.alive hu howner
  have hwid : (σ.log s m.addr).wid < 0 := by rw [hm, ← hid]; exact hneg
  have hopener := (h.ids s).opener j m hj hwid
  rw [hm, ← hid] at hopener
  have hslot := ((h.sw s).slots.slot j m hj).2
  omega

/-- No event stops the program, unless there is no slot for a new msg. -/
theorem Net.Open.event_fault {e : Fault} (h : σ.Open) (ha : σ.stirs a = true)
    (hs : σ.step a = .error e) : e = .outOfBounds ∧ ∃ s, a = .readReady s ∧ (σ.ep s).Full := by
  cases a with
  | call s op => cases ha
  | writeReady s =>
    have harm : (σ.ep s).writeArmed = true := ha
    obtain ⟨sw', f, h₁⟩ := (h.strong s).pendingExact.write_ok (h.strong s).slots harm
    simp only [Net.step, Net.writeReady, if_pos harm, h₁, bind, Except.bind, pure, Except.pure] at hs
    cases hs
  | readReady s =>
    have hnw := h.ok.never_notWaiting (.readReady s)
    have hnb := h.ok.never_badMsgid (.readReady s)
    cases hch : σ.chan s.other with
    | nil => simp [Net.stirs, hch] at ha
    | cons f rest =>
      rw [hs] at hnw hnb
      simp only [Net.step, Net.readReady, hch] at hs
      rcases bind_error hs with hc | ⟨sw, -, hc⟩
      · rcases (h.ok.sw s).dispatch_fault hc with ⟨rfl, -⟩ | ⟨rfl, -⟩ | ⟨rfl, p, rfl, hneg, hwhy⟩
        · exact absurd rfl hnw
        · exact absurd rfl hnb
        · refine ⟨rfl, s, rfl, ?_⟩
          have hid := h.ok.msgid_lt h.unclosed hch hneg
          apply create_fails_iff.1
          exact hwhy.resolve_left (Nat.not_le.2 hid)
      · split_ifs at hc <;> cases hc

/-- **At rest everything has arrived.** In every run without `msg_close`, and however the events
go on from there: no event stops the program, unless it is a read and every msgid of its end is in
use, and when the link is at rest, what was flushed is with the reader, unless its queue is full. -/
theorem rest_delivered (acts : List Act) (σ : Net) (hn : ∀ a ∈ acts, a.closes = false)
    (hr : Run.run Net.step Net.init acts = .ok σ) (evs : List Act) (σ' : Net)
    (hC : Run.Along Net.step (fun σ a => σ.stirs a = true) σ evs)
    (hr' : Run.run Net.step σ evs = .ok σ') :
    (∀ a e, σ'.stirs a = true → σ'.step a = .error e →
      e = .outOfBounds ∧ ∃ s, a = .readReady s ∧ (σ'.ep s).Full) ∧
    (σ'.Quiescent → ∀ s j m, (σ'.ep s).msgs j = some m → Delivered σ' s m) := by
  have hσ : σ.Open := Run.run_inv (f := Net.step) (C := fun _ a => a.closes = false)
    (fun _ _ _ h hc hs => h.step hc hs) acts _ _ Net.Open.init (Run.Along.of_forall hn) hr
  have hσ' : σ'.Open := Run.run_inv (fun _ _ _ h hc hs => h.step (Net.stirs_closes hc) hs) evs _ _
    hσ hC hr'
  exact ⟨fun a e ha he => hσ'.event_fault ha he,
    fun hq s j m hj => hσ'.ok.delivered hσ'.unclosed hσ'.bounded hq hj⟩

/-- `a` writes a packet and flushes it, and writes two bytes more. -/
def flushedPart : List Act :=
  [.call .a (.open 7), .call .a (.write 1 [1, 2, 3]), .call .a (.flush 1), .call .a (.write 1 [4, 5])]

/-- The packet goes over and its acknowledgement comes back. The two bytes that were not flushed
go over by that, and are acknowledged. -/
def allEvents : List Act :=
  [.writeReady .a, .readReady .b, .writeReady .b, .readReady .a, .writeReady .a, .readReady .b]

theorem comes_to_rest_flushedPart :
    ∃ σ, Run.run Net.step Net.init flushedPart = .ok σ ∧
      (∀ evs σ', Run.Along Net.step (fun σ a => σ.stirs a = true) σ evs →
        Run.run Net.step σ evs = .ok σ' → evs.length + σ'.toMove ≤ σ.toMove ∧
          (σ'.Quiescent ↔ ∀ a, σ'.stirs a = false)) ∧
      ∃ evs σ', Run.Along Net.step (fun σ a => σ.stirs a = true) σ evs ∧
        Run.run Net.step σ evs = .ok σ' ∧
        (σ'.Quiescent ∨ ∃ a e, σ'.stirs a = true ∧ σ'.step a = .error e) := by
  obtain ⟨σ, h⟩ : ∃ σ, Run.run Net.step Net.init flushedPart = .ok σ := ⟨_, rfl⟩
  exact ⟨σ, h, comes_to_rest flushedPart σ h⟩

theorem rest_delivered_flushedPart :
    ∃ σ σ', Run.run Net.step Net.init flushedPart = .ok σ ∧ Run.run Net.step σ allEvents = .ok σ' ∧
      σ'.Quiescent ∧
      (∀ a e, σ'.stirs a = true → σ'.step a = .error e →
        e = .outOfBounds ∧ ∃ s, a = .readReady s ∧ (σ'.ep s).Full) ∧
      (σ'.Quiescent → ∀ s j m, (σ'.ep s).msgs j = some m → Delivered σ' s m) := by
  obtain ⟨σ, h⟩ : ∃ σ, Run.run Net.step Net.init flushedPart = .ok σ := ⟨_, rfl⟩
  have hp : (Run.run Net.step Net.init flushedPart).toOption.map (fun σ =>
      (decide (Run.Along Net.step (fun σ a => σ.stirs a = true) σ allEvents),
        (Run.run Net.step σ allEvents).toOption.map fun σ' => decide σ'.Quiescent)) =
      some (true, some true) := by decide
  rw [h] at hp
  simp only [Except.toOption, Option.map_some, Option.some.injEq, Prod.mk.injEq,
    decide_eq_true_eq] at hp
  obtain ⟨hC, hq⟩ := hp
  cases h' : Run.run Net.step σ allEvents with
  | error e => rw [h'] at hq; cases hq
  | ok σ' =>
    rw [h'] at hq
    exact ⟨σ, σ', h, h', by simpa using hq, rest_delivered flushedPart σ (by decide) h allEvents σ'
      hC h'⟩

end Zimr
