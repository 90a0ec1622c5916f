import Zimr.Proof.Became
import Zimr.Proof.Faults
import Zimr.Proof.Stream

/-!
# Acknowledgements

An end that waits is waited for: of the packet on the way, the acknowledgement owed and the
acknowledgement on the way there is exactly one (`ack_conservation`). With msgs closed and
slots reused this still holds, and every acknowledgement comes to the msg it is for, unless
an accepted msg acknowledges after its disconnect (`no_stale_ack`, `stale_ack`).
-/

namespace Zimr

open Link (Item Half Stage)

variable {σ σ' : Net} {s : Side} {j x y : ℕ} {m n : Msg} {str dns : Bool} {a : Act}

/-! ## While nothing is closed -/

theorem Net.half_oks (σ : Net) (s : Side) (x : ℕ) :
    (σ.half str s x).out.countP Item.isOk = σ.oks s x := outOf_oks _ _

/-- The three places where what the msg `m` waits for can be. -/
structure AckOf (σ : Net) (s : Side) (m : Msg) : Prop where
  joined : ∀ y, σ.peer s m.addr = some y → ∃ i n, (σ.ep s.other).msgs i = some n ∧ n.addr = y ∧
    (σ.inFlight s m.addr).length + n.status.needToSendResp.toNat + σ.oks s.other y =
      m.status.waitingForResp.toNat
  alone : σ.peer s m.addr = none →
    (σ.inFlight s m.addr).length = m.status.waitingForResp.toNat

theorem NetOK.ackOf (h : NetOK true dns σ) (hu : σ.Unclosed) (hj : (σ.ep s).msgs j = some m) :
    AckOf σ s m where
  joined := fun y hp => by
    obtain ⟨hy, -⟩ := h.mutual s m.addr y ((h.sw s).slots.addr _ _ hj) hp
    obtain ⟨i, n, hi, rfl⟩ := h.alive hu hy
    have ht := h.exact_tokens hj (h.unclosed hu hj).2.1
    unfold Link.tokens Link.across at ht
    rw [hp, Net.half_data, h.owes hi, Net.half_oks] at ht
    exact ⟨i, n, hi, rfl, ht⟩
  alone := fun hp => by
    have ht := h.exact_tokens hj (h.unclosed hu hj).2.1
    unfold Link.tokens Link.across at ht
    rw [hp, Net.half_data] at ht
    exact ht

/-- A packet does not come to a msg whose `read_queue` is full. -/
theorem NetOK.room {p : MsgPacket} {rest : List Frame} (h : NetOK true dns σ) (hu : σ.Unclosed)
    (hch : σ.chan s.other = .pack p :: rest) (hg : msgGet (σ.ep s) p.msgid = some m) :
    m.readQueue.length < msgNBuffPacketsAllowed := by
  by_contra hfull
  have hj := (h.sw s).get_slot hg
  have hx := (h.sw s).slots.addr _ _ hj
  obtain ⟨hd, hp⟩ := h.resolve_some hch (by simp [Frame.item]) hg
  have hneed := ((h.sw s).slots.ok _ _ hj).full hd (by omega)
  have hfw := (h.ids_other s).frame (.pack p) (by simp [Net.wire, hch])
  -- the sender of the packet would wait for two
  obtain ⟨i, n, hi, hn⟩ := h.alive hu (s := s.other) hfw.1
  have hn : n.addr = p.owner := hn
  have hpn : σ.peer s.other n.addr = some m.addr := by rw [hn]; exact hp
  obtain ⟨i', m₁, hi', hm₁, hsum⟩ := (h.ackOf hu hi).joined _ hpn
  rw [Side.other_other] at hi'
  have hij := (h.sw s).slots.inj _ _ _ _ hi' hj hm₁
  rw [hij, hj] at hi'
  cases hi'
  have hfl : 1 ≤ (σ.inFlight s.other n.addr).length := by
    rw [hn, Net.inFlight, hch]
    simp [Frame.packOf]
  have hw := n.status.waitingForResp.toNat_le
  rw [hneed] at hsum
  simp only [Bool.toNat_true] at hsum
  omega

/-- No `read_queue` is too long. -/
def Net.Bounded (σ : Net) : Prop :=
  ∀ s j m, (σ.ep s).msgs j = some m → m.readQueue.length ≤ msgNBuffPacketsAllowed

theorem NetOK.bounded_step (h : NetOK true dns σ) (hu : σ.Unclosed) (hb : σ.Bounded)
    (hs : σ.step a = .ok σ') : σ'.Bounded := by
  intro t j n hj
  rcases Net.step_ep hs t with he | ⟨ev, hev, hrecv⟩
  · rw [he] at hj; exact hb t j n hj
  · cases step_became (h.sw t) hev hj with
    | changed i m hi _ _ _ _ hl => exact hl.trans (hb t i m hi)
    | received p m hp hg _ _ _ _ hl =>
      obtain ⟨-, rest, hch⟩ := hrecv _ hp
      have := h.room hu hch hg
      omega
    | answered r m _ _ hg _ _ _ _ hl =>
      rw [hl]; exact hb t _ m ((h.sw t).get_slot hg)
    | fresh _ _ hl => exact hl.trans (by decide)

/-- Every acknowledgement that a msg takes was waited for. -/
theorem NetOK.waits_ok {r : MsgResp} {rest : List Frame} (h : NetOK true dns σ)
    (hch : σ.chan s.other = .resp r :: rest) (hr : r.status = .ok)
    (hg : msgGet (σ.ep s) r.msgid = some m) (hs : m.status.sentDisconnect = false) :
    r.ackOf = some m.addr ∧ m.status.waitingForResp = true := by
  have hw := Net.wire_other hch (σ.ep s)
  have hj := (h.sw s).get_slot hg
  have hx := (h.sw s).slots.addr _ _ hj
  have hmem : Frame.resp r ∈ σ.wire s.other := by rw [hw]; exact List.mem_cons_self
  have hfw := (h.ids_other s).frame _ hmem
  have hg' : msgGet (σ.ep s) (Frame.resp r).msgid = some m := hg
  have hp : σ.peer s.other r.owner = some m.addr := by
    rcases h.resolve hw with ⟨m₁, hg₁, hp⟩ | ⟨hno, -⟩ | ⟨y, hp, hseen, hno | ⟨hpos, -⟩⟩
    · rw [hg'] at hg₁; cases hg₁; exact hp
    · rw [hg'] at hno; cases hno
    · rw [hg'] at hno; cases hno
    · have := (h.seen_ok hw hp hseen).2 rfl
      omega
  refine ⟨((h.src s.other).acks r hmem hr).1.trans hp, ?_⟩
  have hmp : σ.peer s m.addr = some r.owner := ((h.ids_other s).peer _ _ hfw.1 hp).2.1
  have ht := h.exact_tokens hj hs
  unfold Link.tokens Link.across at ht
  rw [hmp, Net.half_data, Net.half_oks] at ht
  have hone : 1 ≤ σ.oks s.other r.owner := by
    unfold Net.oks
    rw [hw, List.countP_cons]
    simp [Frame.isOkOf, hr]
  cases hwt : m.status.waitingForResp with
  | true => rfl
  | false => rw [hwt] at ht; simp only [Bool.toNat_false] at ht; omega

theorem NetOK.never_notWaiting (h : NetOK true dns σ) (a : Act) :
    σ.step a ≠ .error .notWaiting := by
  intro hs
  rcases Net.step_fault h.sw hs with ⟨-, s, r, rest, m, -, hch, hr, hg, hns, hw⟩ | ⟨he, -⟩ | ⟨he, -⟩
  · rw [(h.waits_ok hch hr hg hns).2] at hw; cases hw
  · cases he
  · exact he rfl

/-- **Acknowledgements are conserved**, in every run without `msg_close`: a msg waits iff
exactly one packet, debt or acknowledgement of it is under way, the assert of
`msg_recv_resp` holds, and no `read_queue` overflows. -/
theorem ack_conservation (acts : List Act) (σ : Net) (hn : ∀ a ∈ acts, a.closes = false)
    (hr : Run.run Net.step Net.init acts = .ok σ) :
    (∀ s j m, (σ.ep s).msgs j = some m → AckOf σ s m) ∧
    (∀ a, σ.step a ≠ .error .notWaiting) ∧
    ∀ s j m, (σ.ep s).msgs j = some m → m.readQueue.length ≤ msgNBuffPacketsAllowed := by
  have hI : (NetOK true false σ ∧ σ.Unclosed) ∧ σ.Bounded :=
    Run.run_inv (f := Net.step) (C := fun _ a => a.closes = false)
      (I := fun σ => (NetOK true false σ ∧ σ.Unclosed) ∧ σ.Bounded)
      (fun _ _ _ h hc hs =>
        ⟨⟨h.1.1.step_unclosed h.1.2 hc hs, h.1.2.step hc hs⟩, h.1.1.bounded_step h.1.2 h.2 hs⟩)
      acts _ _ ⟨⟨NetOK.init true false, fun _ _ => rfl⟩, fun s j m h => by
        simp [Net.init, msgSwitchCreate] at h⟩ (Run.Along.of_forall hn) hr
  obtain ⟨⟨h, hu⟩, hb⟩ := hI
  exact ⟨fun s j m hj => h.ackOf hu hj, h.never_notWaiting, hb⟩

/-- Two packets have reached `b`, which has read neither, and a third byte is written. -/
def twoUnread : List Act :=
  [.call .a (.open 7), .call .a (.write 1 [1]), .call .a (.flush 1), .writeReady .a, .readReady .b,
    .writeReady .b, .readReady .a, .call .a (.write 1 [2]), .call .a (.flush 1), .writeReady .a,
    .readReady .b, .call .a (.write 1 [3])]

theorem ack_conservation_twoUnread :
    ∃ σ, Run.run Net.step Net.init twoUnread = .ok σ ∧
      ((σ.ep .b).msgs 1).map (fun m => (m.readQueue.length, m.status.needToSendResp)) =
        some (2, true) ∧
      (∀ s j m, (σ.ep s).msgs j = some m → AckOf σ s m) ∧
      (∀ a, σ.step a ≠ .error .notWaiting) ∧
      ∀ s j m, (σ.ep s).msgs j = some m → m.readQueue.length ≤ msgNBuffPacketsAllowed := by
  obtain ⟨σ, h⟩ : ∃ σ, Run.run Net.step Net.init twoUnread = .ok σ := ⟨_, rfl⟩
  have hp : (Run.run Net.step Net.init twoUnread).toOption.map (fun σ =>
      ((σ.ep .b).msgs 1).map (fun m => (m.readQueue.length, m.status.needToSendResp))) =
      some (some (2, true)) := by decide
  rw [h] at hp
  exact ⟨σ, h, by simpa [Except.toOption] using hp, ack_conservation twoUnread σ (by decide) h⟩

/-! ## With msgs closed and slots reused -/

/-- **No stale acknowledgement**, in every run in which no flush is late and no accepted msg
acknowledges after its disconnect. -/
theorem no_stale_ack (acts : List Act) (σ : Net)
    (hC : Run.Along Net.step (fun σ a => σ.flushesLate a = false ∧ σ.acksLate a = false)
      Net.init acts)
    (hr : Run.run Net.step Net.init acts = .ok σ) :
    (∀ s r rest m, σ.chan s.other = .resp r :: rest → r.status = .ok →
      msgGet (σ.ep s) r.msgid = some m → m.status.sentDisconnect = false →
      r.ackOf = some m.addr ∧ m.status.waitingForResp = true) ∧
    ∀ a, σ.step a ≠ .error .notWaiting := by
  have h : NetOK true false σ := NetOK.run (hC.mono fun _ _ hc =>
    ⟨hc.1, fun _ => hc.2, fun hd => (by cases hd)⟩) hr
  exact ⟨fun s r rest m hch hr' hg hs => h.waits_ok hch hr' hg hs, h.never_notWaiting⟩

/-- `a` opens a msg, sends a packet and closes once `b` has acknowledged it; the slot is
opened again, and the packet of the new msg is acknowledged too. -/
def slotReused : List Act :=
  [.call .a (.open 7), .call .a (.write 1 [1]), .call .a (.flush 1), .writeReady .a, .readReady .b,
    .writeReady .b, .readReady .a, .call .a (.close 1), .writeReady .a, .readReady .b,
    .writeReady .b, .readReady .a, .call .b (.close 1), .call .a (.open 8), .call .a (.write 1 [2]),
    .call .a (.flush 1), .writeReady .a, .readReady .b, .writeReady .b]

theorem no_stale_ack_slotReused :
    ∃ σ, Run.run Net.step Net.init slotReused = .ok σ ∧
      σ.chan .b = [.resp ⟨1, .ok, 1, some 1⟩] ∧
      (∀ s r rest m, σ.chan s.other = .resp r :: rest → r.status = .ok →
        msgGet (σ.ep s) r.msgid = some m → m.status.sentDisconnect = false →
        r.ackOf = some m.addr ∧ m.status.waitingForResp = true) ∧
      ∀ a, σ.step a ≠ .error .notWaiting := by
  obtain ⟨σ, h⟩ : ∃ σ, Run.run Net.step Net.init slotReused = .ok σ := ⟨_, rfl⟩
  have hp : (Run.run Net.step Net.init slotReused).toOption.map (·.chan .b) =
      some [.resp ⟨1, .ok, 1, some 1⟩] := by decide
  rw [h] at hp
  exact ⟨σ, h, by simpa [Except.toOption] using hp, no_stale_ack slotReused σ (by decide) h⟩

/-- `b` closes the msg `a` has opened while a packet is on the way to it, and acknowledges
that packet after its disconnect. `a` answers the disconnect, closes and opens the slot
again; the acknowledgement is the next frame. -/
def ackedAfterClose : List Act :=
  [.call .a (.open 7), .call .a (.write 1 [1]), .call .a (.flush 1), .writeReady .a, .readReady .b,
    .writeReady .b, .readReady .a, .call .a (.write 1 [2]), .call .a (.flush 1), .writeReady .a,
    .call .b (.close 1), .readReady .b, .writeReady .b, .readReady .a, .call .a (.close 1),
    .call .a (.open 8), .writeReady .b]

/-- **The law fails**: the acknowledgement for the old msg comes to the new one in its slot,
which does not wait, and the assert stops the endpoint. -/
theorem stale_ack :
    (∃ σ r m, Run.run Net.step Net.init ackedAfterClose = .ok σ ∧ σ.chan .b = [.resp r] ∧
      r.status = .ok ∧ msgGet (σ.ep .a) r.msgid = some m ∧ m.status.sentDisconnect = false ∧
      r.ackOf ≠ some m.addr ∧ m.status.waitingForResp = false) ∧
    Run.run Net.step Net.init (ackedAfterClose ++ [.readReady .a]) = .error .notWaiting := by
  refine ⟨?_, rfl⟩
  obtain ⟨σ, h⟩ : ∃ σ, Run.run Net.step Net.init ackedAfterClose = .ok σ := ⟨_, rfl⟩
  have hp : (Run.run Net.step Net.init ackedAfterClose).toOption.map (fun σ => (σ.chan .b,
      (msgGet (σ.ep .a) 1).map fun m => (m.addr, m.status.sentDisconnect, m.status.waitingForResp))) =
      some ([.resp ⟨1, .ok, 0, some 0⟩], some (1, false, false)) := by decide
  rw [h] at hp
  simp only [Except.toOption, Option.map_some, Option.some.injEq, Prod.mk.injEq] at hp
  obtain ⟨hch, hm⟩ := hp
  obtain ⟨m, hg, hm⟩ := Option.map_eq_some_iff.1 hm
  simp only [Prod.mk.injEq] at hm
  exact ⟨σ, _, m, h, hch, rfl, hg, hm.2.1, by simp [hm.1], hm.2.2⟩

end Zimr
