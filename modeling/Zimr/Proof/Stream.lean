import Zimr.Proof.Unclosed

/-!
# The byte stream of a msg

What one end has written is what the other end has read, followed by what lies, in order,
in the reader's `read_queue`, in the frame on the way, in the writer's `writ_queue` and in
its incomplete packet.

* `stream_integrity` — in every run without `msg_close`
-/

namespace Zimr

open Link (Item Half Stage)

variable {σ : Net} {s : Side} {j x y : ℕ} {m n : Msg} {str dns : Bool}

/-- The bytes of `read_queue`, from `cur_read_packet_pos` on. -/
def Msg.unread (m : Msg) : List UInt8 :=
  ((m.readQueue.map MsgPacket.data).flatten).drop m.curReadPacketPos

/-- The bytes of `writ_queue` and of the incomplete packet. -/
def Msg.unsent (m : Msg) : List UInt8 :=
  ((m.writQueue ++ m.incompleteWritPacket.toList).map MsgPacket.data).flatten

/-- The packet of a frame of the object `x`. -/
def Frame.packOf (x : ℕ) : Frame → Option MsgPacket
  | .pack p => if p.owner = x then some p else none
  | .resp _ => none

/-- An acknowledgement of the object `x`. -/
def Frame.isOkOf (x : ℕ) : Frame → Bool
  | .resp r => r.owner = x && r.status = .ok
  | .pack _ => false

/-- The packets of the object `x` that are in flight. -/
def Net.inFlight (σ : Net) (s : Side) (x : ℕ) : List MsgPacket := (σ.chan s).filterMap (Frame.packOf x)

/-- How many acknowledgements of the object `x` are queued or in flight. -/
def Net.oks (σ : Net) (s : Side) (x : ℕ) : ℕ := (σ.wire s).countP (Frame.isOkOf x)

/-! ## On the link -/

theorem outOf_bytes (w : List Frame) (x : ℕ) : ((outOf w x).map Item.bytes).flatten =
    ((w.filterMap (Frame.packOf x)).map MsgPacket.data).flatten := by
  induction w with
  | nil => rfl
  | cons f w ih =>
    rw [outOf_cons, List.map_append, List.flatten_append, ih]
    cases f with
    | resp r =>
      cases hr : r.status <;> split_ifs <;>
        simp [List.filterMap_cons, Frame.packOf, Frame.item, MsgResp.item, hr, Item.bytes]
    | pack p => by_cases hx : p.owner = x <;> simp [Frame.owner, Frame.packOf, Frame.item, Item.bytes, hx]

theorem outOf_data (w : List Frame) (x : ℕ) :
    (outOf w x).countP Item.isData = (w.filterMap (Frame.packOf x)).length := by
  induction w with
  | nil => rfl
  | cons f w ih =>
    rw [outOf_cons, List.countP_append, ih]
    cases f with
    | resp r =>
      cases hr : r.status <;> split_ifs <;>
        simp [List.filterMap_cons, Frame.packOf, Frame.item, MsgResp.item, hr, Item.isData]
    | pack p =>
      by_cases hx : p.owner = x <;>
        simp [Frame.owner, Frame.packOf, Frame.item, Item.isData, hx, Nat.add_comm]

theorem outOf_oks (w : List Frame) (x : ℕ) :
    (outOf w x).countP Item.isOk = w.countP (Frame.isOkOf x) := by
  induction w with
  | nil => rfl
  | cons f w ih =>
    rw [outOf_cons, List.countP_append, ih, List.countP_cons, Nat.add_comm]
    congr 1
    cases f with
    | resp r =>
      cases hr : r.status <;> by_cases hx : r.owner = x <;>
        simp [Frame.owner, Frame.isOkOf, Frame.item, MsgResp.item, hr, Item.isOk, hx]
    | pack p => by_cases hx : p.owner = x <;> simp [Frame.owner, Frame.isOkOf, Frame.item, Item.isOk, hx]

/-- Packets are on the way only in the channel. -/
theorem Net.wire_packs (σ : Net) (s : Side) (x : ℕ) :
    (σ.wire s).filterMap (Frame.packOf x) = σ.inFlight s x := by
  have hr : ∀ rs : List MsgResp, (rs.map Frame.resp).filterMap (Frame.packOf x) = [] := by
    intro rs
    induction rs with
    | nil => rfl
    | cons r rs ih => exact ih
  rw [Net.wire, List.filterMap_append, hr, List.append_nil]; rfl

theorem Net.half_data (σ : Net) (s : Side) (x : ℕ) :
    (σ.half str s x).out.countP Item.isData = (σ.inFlight s x).length := by
  change (outOf (σ.wire s) x).countP _ = _
  rw [outOf_data, Net.wire_packs]

theorem Net.half_bytes (σ : Net) (s : Side) (x : ℕ) :
    ((σ.half str s x).out.map Item.bytes).flatten =
      ((σ.inFlight s x).map MsgPacket.data).flatten := by
  change ((outOf (σ.wire s) x).map _).flatten = _
  rw [outOf_bytes, Net.wire_packs]

theorem Msg.view_unsent (m : Msg) : m.view.unsent.flatten = m.unsent := rfl

theorem Msg.view_unread (h : m.status.closed = false) : m.view.unread = m.unread := by
  simp [Msg.view, Msg.unread, h]

/-- The waits of an end, counted in frames. -/
theorem NetOK.exact_tokens (h : NetOK true dns σ) (hj : (σ.ep s).msgs j = some m)
    (hs : m.status.sentDisconnect = false) :
    Link.tokens (σ.half true s m.addr)
      (Link.across Side.other (.unborn true) (σ.half true) σ.peer s m.addr) =
        m.status.waitingForResp.toNat := by
  have hl := h.link s m.addr ((h.sw s).slots.addr _ _ hj)
  exact le_antisymm ((hl.exact (by simp)).1 m.view (h.stage_live hj) hs)
    (hl.inv.waits m.view (h.stage_live hj) hs)

theorem NetOK.owes (h : NetOK str dns σ) (hj : (σ.ep s).msgs j = some m) :
    (σ.half str s m.addr).owes = m.status.needToSendResp.toNat := by
  unfold Link.Half.owes
  rw [h.stage_live hj]; rfl

/-! ## The law -/

/-- The bytes the msg `m` of side `s` has accepted and the other end has not returned. -/
structure StreamOf (σ : Net) (s : Side) (m : Msg) : Prop where
  flight : (σ.inFlight s m.addr).length ≤ 1
  /-- The other end of the msg exists. -/
  joined : ∀ y, σ.peer s m.addr = some y → σ.peer s.other y = some m.addr ∧
    ∃ i n, (σ.ep s.other).msgs i = some n ∧ n.addr = y ∧
      (σ.log s.other y).got <+: (σ.log s m.addr).accepted ∧
      (σ.log s m.addr).accepted = (σ.log s.other y).got ++ (n.unread ++
        ((σ.inFlight s m.addr).map MsgPacket.data).flatten ++ m.unsent)
  /-- It does not, and nothing has been read. -/
  alone : σ.peer s m.addr = none → (σ.log s m.addr).accepted =
    ((σ.inFlight s m.addr).map MsgPacket.data).flatten ++ m.unsent

theorem NetOK.streamOf (h : NetOK true dns σ) (hu : σ.Unclosed) (hj : (σ.ep s).msgs j = some m) :
    StreamOf σ s m where
  flight := by
    have ht := h.exact_tokens hj (h.unclosed hu hj).2.1
    have hw := m.status.waitingForResp.toNat_le
    unfold Link.tokens at ht
    rw [Net.half_data] at ht
    omega
  joined := fun y hp => by
    have hx := (h.sw s).slots.addr _ _ hj
    obtain ⟨hy, hpy⟩ := h.mutual s m.addr y hx hp
    obtain ⟨i, n, hi, rfl⟩ := h.alive hu hy
    obtain ⟨hc, -, hd⟩ := h.unclosed hu hi
    have hflow := (h.sound hx hp).inv.flow
    obtain ⟨e, he, -, hacc⟩ := hflow.stream n.view (h.stage_live hi) hc hd
      (by rw [h.stage_live hj]; simp)
    rw [h.stage_live hj] at he
    cases he
    rw [Msg.view_unread hc, Net.half_bytes, Msg.view_unsent] at hacc
    have hacc : (σ.log s m.addr).accepted = (σ.log s.other n.addr).got ++ (n.unread ++
        ((σ.inFlight s m.addr).map MsgPacket.data).flatten ++ m.unsent) := by
      rw [← List.append_assoc, ← List.append_assoc]; exact hacc
    exact ⟨hpy, i, n, hi, rfl, by rw [hacc]; exact List.prefix_append _ _, hacc⟩
  alone := fun hp => by
    have hx := (h.sw s).slots.addr _ _ hj
    have hacc := (h.sound_unborn hx hp).inv.flow.alone rfl m.view (h.stage_live hj)
    rw [Net.half_bytes, Msg.view_unsent] at hacc
    exact hacc

/-- A write is refused and changes nothing, or takes all its bytes. -/
theorem SwOK.write_all {sw : MsgSwitch} {strong : Prop} (h : SwOK strong sw) (j : ℕ)
    (buf : List UInt8) : ∃ sw' r, msgWrite sw j buf = .ok (sw', r) ∧
      ((∃ e, r = .error e ∧ sw' = sw) ∨ r = .ok buf.length) := by
  cases hj : sw.msgs j with
  | none =>
    refine ⟨sw, .error .ebadmsg, ?_, Or.inl ⟨_, rfl, rfl⟩⟩
    simp only [msgWrite, hj]
    rfl
  | some m =>
    rcases msgWrite_moves (S := False) (H := False) hj (h.slots.ok _ _ hj) buf with
      ⟨e, h₁⟩ | ⟨sw₁, m', Q, h₁, -⟩
    · exact ⟨sw, _, h₁, Or.inl ⟨e, rfl, rfl⟩⟩
    · exact ⟨sw₁, _, h₁, Or.inr rfl⟩

/-- **Stream integrity.** In every run without `msg_close`, for every object of either side. -/
theorem stream_integrity (acts : List Act) (σ : Net) (hn : ∀ a ∈ acts, a.closes = false)
    (hr : Run.run Net.step Net.init acts = .ok σ) :
    (∀ s x, x < σ.made s → ∃ j m, (σ.ep s).msgs j = some m ∧ m.addr = x ∧ StreamOf σ s m) ∧
    ∀ s j buf, ∃ sw' r, msgWrite (σ.ep s) j buf = .ok (sw', r) ∧
      ((∃ e, r = .error e ∧ sw' = σ.ep s) ∨ r = .ok buf.length) := by
  obtain ⟨h, hu⟩ := NetOK.unclosed_run hn hr
  refine ⟨fun s x hx => ?_, fun s j buf => (h.sw s).write_all j buf⟩
  obtain ⟨j, m, hj, hm⟩ := h.alive hu hx
  exact ⟨j, m, hj, hm, h.streamOf hu hj⟩

/-- `a` writes five bytes, three of them flushed; `b` reads two and writes one. -/
def writtenAndRead : List Act :=
  [.call .a (.open 7), .call .a (.write 1 [1, 2, 3]), .call .a (.flush 1), .writeReady .a,
    .readReady .b, .call .a (.write 1 [4, 5]), .call .b (.read 1 2), .call .b (.write 1 [9])]

theorem stream_integrity_writtenAndRead :
    ∃ σ, Run.run Net.step Net.init writtenAndRead = .ok σ ∧
      (σ.log .a 0).accepted = [1, 2, 3, 4, 5] ∧ (σ.log .b 0).got = [1, 2] ∧
      (∀ s x, x < σ.made s → ∃ j m, (σ.ep s).msgs j = some m ∧ m.addr = x ∧ StreamOf σ s m) ∧
      ∀ s j buf, ∃ sw' r, msgWrite (σ.ep s) j buf = .ok (sw', r) ∧
        ((∃ e, r = .error e ∧ sw' = σ.ep s) ∨ r = .ok buf.length) := by
  obtain ⟨σ, h⟩ : ∃ σ, Run.run Net.step Net.init writtenAndRead = .ok σ := ⟨_, rfl⟩
  have hp : (Run.run Net.step Net.init writtenAndRead).toOption.map (fun σ =>
      ((σ.log .a 0).accepted, (σ.log .b 0).got)) = some ([1, 2, 3, 4, 5], [1, 2]) := by decide
  rw [h] at hp
  simp only [Except.toOption, Option.map_some, Option.some.injEq, Prod.mk.injEq] at hp
  exact ⟨σ, h, hp.1, hp.2, stream_integrity writtenAndRead σ (by decide) h⟩

end Zimr
