import Zimr.Proof.Tables

/-!
# The mark of a msg and the ready counter

`msg_check_selectability` gives a msg the mark `!old && ready`: right, unless the msg was
marked and is still ready. `Seen` says that a function left the mark of its msg right and
the counter with it; the functions that check their msg do so when no check finds it
marked and still ready.

* `Looks` — what a function does to the marks
* `msgWrite_seen`, `msgRead_seen`, `msgClose_seen`, ... — one for each function
-/

namespace Zimr

variable {sw sw₁ sw₂ sw' : MsgSwitch} {j : ℕ} {m m₁ m₂ m' : Msg} {b b₁ b₂ : Bool}

/-- From `sw` to `sw'` only slot `j` was touched, and its mark is `b` now. -/
structure Looks (sw sw' : MsgSwitch) (j : ℕ) (b : Bool) : Prop where
  msgs : ∀ i, i ≠ j → sw'.msgs i = sw.msgs i
  rd : sw'.activeReadFdSet = sw.activeReadFdSet
  wr : sw'.activeWriteFdSet = sw.activeWriteFdSet
  sel : sw'.selectable = Function.update sw.selectable j b
  count : sw'.nSelectable = sw.nSelectable + b.toNat - (sw.selectable j).toNat

theorem Looks.trans (h₁ : Looks sw sw₁ j b₁) (h₂ : Looks sw₁ sw₂ j b₂) : Looks sw sw₂ j b₂ where
  msgs := fun i hi => (h₂.msgs i hi).trans (h₁.msgs i hi)
  rd := h₂.rd.trans h₁.rd
  wr := h₂.wr.trans h₁.wr
  sel := by rw [h₂.sel, h₁.sel, Function.update_idem]
  count := by
    have hb : sw₁.selectable j = b₁ := by rw [h₁.sel, Function.update_self]
    rw [h₂.count, h₁.count, hb]
    omega

/-- The marks are left alone. -/
theorem Looks.same (hm : ∀ i, i ≠ j → sw'.msgs i = sw.msgs i)
    (h : (sw'.activeReadFdSet, sw'.activeWriteFdSet, sw'.selectable, sw'.nSelectable) =
      (sw.activeReadFdSet, sw.activeWriteFdSet, sw.selectable, sw.nSelectable)) :
    Looks sw sw' j (sw.selectable j) := by
  simp only [Prod.mk.injEq] at h
  obtain ⟨hr, hw, hs, hn⟩ := h
  exact ⟨hm, hr, hw, by rw [hs, Function.update_eq_self], by rw [hn]; omega⟩

theorem Looks.refl (sw : MsgSwitch) (j : ℕ) : Looks sw sw j (sw.selectable j) :=
  Looks.same (fun _ _ => rfl) rfl

theorem Looks.set (sw : MsgSwitch) (j : ℕ) (o : Option Msg) :
    Looks sw (sw.set j o) j (sw.selectable j) :=
  Looks.same (fun i hi => by simp [MsgSwitch.set, hi]) rfl

/-- **The rule of `msg_check_selectability`.** -/
theorem msgCheckSelectability_looks (h : sw.msgs j = some m)
    (hc : msgCheckSelectability sw j = .ok sw') :
    Looks sw sw' j (!sw.selectable j && m.ready (sw.activeReadFdSet j) (sw.activeWriteFdSet j)) ∧
      sw'.msgs = sw.msgs := by
  unfold msgCheckSelectability MsgSwitch.assertMsg at hc
  simp only [h, bind, Except.bind, pure, Except.pure] at hc
  have hsel : ∀ b, sw.selectable j = !b → sw.select j b = sw' →
      Looks sw sw' j b ∧ sw'.msgs = sw.msgs := by
    rintro b hb rfl
    refine ⟨⟨fun _ _ => rfl, rfl, rfl, rfl, ?_⟩, rfl⟩
    cases b <;> simp [MsgSwitch.select, hb]
  -- the four tests in turn
  split_ifs at hc with h₁ h₂ h₃ h₄ <;> cases hc
  · simp only [Bool.and_eq_true, Bool.not_eq_true'] at h₁
    have hr : (!sw.selectable j && m.ready (sw.activeReadFdSet j) (sw.activeWriteFdSet j)) = true := by
      simp [Msg.ready, h₁]
    rw [hr]
    exact hsel true h₁.1 rfl
  · simp only [Bool.and_eq_true, Bool.not_eq_true'] at h₂
    have hr : (!sw.selectable j && m.ready (sw.activeReadFdSet j) (sw.activeWriteFdSet j)) = true := by
      simp only [Msg.ready, h₂.1.1, h₂.1.2, h₂.2]; simp
    rw [hr]
    exact hsel true h₂.1.1 rfl
  · simp only [Bool.and_eq_true, Bool.not_eq_true'] at h₃
    have hr : (!sw.selectable j && m.ready (sw.activeReadFdSet j) (sw.activeWriteFdSet j)) = true := by
      simp only [Msg.ready, h₃.1.1, h₃.1.2, h₃.2]; simp
    rw [hr]
    exact hsel true h₃.1.1 rfl
  · rw [h₄, Bool.not_true, Bool.false_and]
    exact hsel false h₄ rfl
  · have hs : sw.selectable j = false := by simpa using h₄
    have hr : m.ready (sw.activeReadFdSet j) (sw.activeWriteFdSet j) = false := by
      simp only [hs, Bool.not_false, Bool.true_and] at h₁ h₂ h₃
      simp only [Msg.ready, Bool.or_eq_false_iff]
      exact ⟨⟨by simpa using h₁, by simpa using h₂⟩, by simpa using h₃⟩
    rw [hs, hr]
    refine ⟨?_, rfl⟩
    simpa [hs] using Looks.refl sw j

/-- Slot `j` holds `m'` now, and its mark is right. -/
structure Seen (sw sw' : MsgSwitch) (j : ℕ) (m' : Msg) : Prop where
  slot : sw'.msgs j = some m'
  looks : Looks sw sw' j (m'.ready (sw.activeReadFdSet j) (sw.activeWriteFdSet j))

/-- The mark of slot `j` is right. -/
def MsgSwitch.Right (sw : MsgSwitch) (j : ℕ) (m : Msg) : Prop :=
  sw.selectable j = m.ready (sw.activeReadFdSet j) (sw.activeWriteFdSet j)

theorem Seen.right (h : Seen sw sw' j m) : sw'.Right j m := by
  unfold MsgSwitch.Right
  rw [h.looks.rd, h.looks.wr, h.looks.sel, Function.update_self]

theorem Seen.refl (h : sw.msgs j = some m) (hr : sw.Right j m) : Seen sw sw j m :=
  ⟨h, by rw [← hr]; exact Looks.refl sw j⟩

theorem Seen.trans (h₁ : Seen sw sw₁ j m₁) (h₂ : Seen sw₁ sw₂ j m₂) : Seen sw sw₂ j m₂ :=
  ⟨h₂.slot, by
    have := h₁.looks.trans h₂.looks
    rwa [h₁.looks.rd, h₁.looks.wr] at this⟩

/-- The object is written, and is as ready as before. -/
theorem Seen.set (hr : sw.Right j m) (hm : ∀ rd wr, m'.ready rd wr = m.ready rd wr) :
    Seen sw (sw.set j (some m')) j m' :=
  ⟨by simp [MsgSwitch.set], by rw [hm, ← hr]; exact Looks.set sw j _⟩

/-- A check of a msg that is not marked, or not ready any more. -/
theorem check_seen (h : sw.msgs j = some m)
    (hn : sw.selectable j = true →
      m.ready (sw.activeReadFdSet j) (sw.activeWriteFdSet j) = false)
    (hc : msgCheckSelectability sw j = .ok sw') : Seen sw sw' j m := by
  obtain ⟨l, hm⟩ := msgCheckSelectability_looks h hc
  refine ⟨by rw [hm]; exact h, ?_⟩
  have hb : (!sw.selectable j && m.ready (sw.activeReadFdSet j) (sw.activeWriteFdSet j)) =
      m.ready (sw.activeReadFdSet j) (sw.activeWriteFdSet j) := by
    cases hs : sw.selectable j with
    | false => rfl
    | true => rw [hn hs]; rfl
  rwa [hb] at l

/-- `msg_send_resp` and `msg_update_status` leave the marks alone. -/
theorem msgSendResp_looks {status : RespStatus} (hc : msgSendResp sw j status = .ok sw') :
    Looks sw sw' j (sw.selectable j) := by
  unfold msgSendResp MsgSwitch.assertMsg at hc
  cases h : sw.msgs j with
  | none => simp only [h, bind, Except.bind] at hc; cases hc
  | some m =>
    simp only [h, bind, Except.bind, pure, Except.pure] at hc
    split_ifs at hc <;> cases hc
    · exact Looks.same (fun i hi => by simp [MsgSwitch.set, msgSwitchPushResp, hi]) rfl
    · exact Looks.same (fun i hi => rfl) rfl

theorem msgUpdateStatus_looks (hc : msgUpdateStatus sw j = .ok sw') :
    Looks sw sw' j (sw.selectable j) := by
  unfold msgUpdateStatus at hc
  obtain ⟨m, -, hc⟩ := bind_ok hc
  obtain ⟨sw₁, h₁, hc⟩ := bind_ok hc
  have l₁ : Looks sw sw₁ j (sw.selectable j) := by
    split_ifs at h₁
    · exact msgSendResp_looks h₁
    · cases h₁; exact Looks.refl sw j
  obtain ⟨m₁, -, hc⟩ := bind_ok hc
  have l₂ : Looks sw₁ sw' j (sw₁.selectable j) := by
    split_ifs at hc <;> cases hc
    · exact Looks.same (fun i hi => by simp [MsgSwitch.set, msgSwitchPushWritMsg, hi]) rfl
    · exact Looks.refl _ j
  have hs : sw₁.selectable j = sw.selectable j := by rw [l₁.sel, Function.update_self]
  rw [hs] at l₂
  exact l₁.trans l₂

/-- `msg_update_status` does not change what the mark depends on. -/
@[simp] theorem Msg.upd_ready (m : Msg) (rd wr : Bool) : m.upd.ready rd wr = m.ready rd wr := rfl

/-- The end the four packet functions share. -/
theorem set_check_update_seen
    (hn : sw.selectable j = true →
      m.ready (sw.activeReadFdSet j) (sw.activeWriteFdSet j) = false)
    (h₁ : msgCheckSelectability (sw.set j (some m)) j = .ok sw₁)
    (h₂ : msgUpdateStatus sw₁ j = .ok sw₂) (hs : sw₂.msgs j = some m.upd) :
    Seen sw sw₂ j m.upd := by
  have hset : (sw.set j (some m)).msgs j = some m := by simp [MsgSwitch.set]
  have s₁ := check_seen hset hn h₁
  have l₂ := msgUpdateStatus_looks h₂
  have hr : sw₁.selectable j =
      m.upd.ready (sw.activeReadFdSet j) (sw.activeWriteFdSet j) := by
    rw [s₁.looks.sel, Function.update_self]; rfl
  rw [hr] at l₂
  exact ⟨hs, ((Looks.set sw j _).trans s₁.looks).trans l₂⟩

/-! ## Packets in and out of the queues -/

open MsgSwitch (fuller emptier)

theorem Msg.pushWrit_ready (m : Msg) (p : MsgPacket) (rd wr : Bool) :
    (m.pushWrit p).ready rd wr = (fuller m).ready rd wr := by
  simp [Msg.ready, Msg.pushWrit, fuller]

theorem Msg.popRead_ready (m : Msg) (rd wr : Bool) :
    m.popRead.ready rd wr = (emptier m).ready rd wr := by
  have h : decide (m.readQueue.length - 1 = 0) = decide (m.readQueue.length ≤ 1) := by
    rw [decide_eq_decide]; omega
  simp [Msg.ready, Msg.popRead, emptier, h]

/-- A full queue makes a msg less ready, -/
theorem fuller_ready {rd wr : Bool} (h : m.ready rd wr = false) : (fuller m).ready rd wr = false := by
  simp only [Msg.ready, fuller, Bool.or_eq_false_iff] at h ⊢
  refine ⟨h.1, ?_⟩
  split_ifs
  · cases wr
    · rfl
    · simpa using (Bool.or_eq_false_iff.1 (by simpa using h.2)).2
  · exact h.2

/-- and so does an empty one. -/
theorem emptier_ready {rd wr : Bool} (h : m.ready rd wr = false) :
    (emptier m).ready rd wr = false := by
  simp only [Msg.ready, emptier, Bool.or_eq_false_iff] at h ⊢
  refine ⟨⟨h.1.1, ?_⟩, h.2⟩
  split_ifs
  · cases rd
    · rfl
    · simpa using (Bool.or_eq_false_iff.1 (by simpa using h.1.2)).2
  · exact h.1.2

theorem push_seen {p : MsgPacket} (h : sw.msgs j = some m) (hp : m.incompleteWritPacket = some p)
    (hn : sw.selectable j = true →
      (fuller m).ready (sw.activeReadFdSet j) (sw.activeWriteFdSet j) = false)
    (hc : msgPushWritPacket sw j = .ok sw') : Seen sw sw' j (m.pushWrit p).upd := by
  obtain ⟨sw₁, sw₂, h₁, h₂, o⟩ := set_check_update sw j (m.pushWrit p)
  have s := set_check_update_seen (by rw [Msg.pushWrit_ready]; exact hn) h₁ h₂ o.get
  simp only [Msg.pushWrit] at h₁
  simp only [msgPushWritPacket, MsgSwitch.assertMsg, h, bind, Except.bind, hp, h₁, h₂] at hc
  cases hc
  exact s

theorem popWrit_seen {p q : MsgPacket} {rest : List MsgPacket} (h : sw.msgs j = some m)
    (hq : m.writQueue = p :: rest)
    (hn : sw.selectable j = true →
      (m.popWrit rest).ready (sw.activeReadFdSet j) (sw.activeWriteFdSet j) = false)
    (hc : msgPopWritPacket sw j = .ok (sw', q)) : Seen sw sw' j (m.popWrit rest).upd := by
  obtain ⟨sw₁, sw₂, h₁, h₂, o⟩ := set_check_update sw j (m.popWrit rest)
  have s := set_check_update_seen hn h₁ h₂ o.get
  simp only [Msg.popWrit] at h₁
  simp only [msgPopWritPacket, MsgSwitch.assertMsg, h, bind, Except.bind, hq, h₁, h₂, pure,
    Except.pure] at hc
  cases hc
  exact s

theorem pushRead_seen (p : MsgPacket) (h : sw.msgs j = some m)
    (hn : sw.selectable j = true →
      (m.pushRead p).ready (sw.activeReadFdSet j) (sw.activeWriteFdSet j) = false)
    (hc : msgPushReadPacket sw j p = .ok sw') : Seen sw sw' j (m.pushRead p).upd := by
  obtain ⟨sw₁, sw₂, h₁, h₂, o⟩ := set_check_update sw j (m.pushRead p)
  have s := set_check_update_seen hn h₁ h₂ o.get
  simp only [Msg.pushRead] at h₁
  simp only [msgPushReadPacket, MsgSwitch.assertMsg, h, bind, Except.bind, h₁, h₂] at hc
  cases hc
  exact s

theorem popRead_seen (h : sw.msgs j = some m)
    (hn : sw.selectable j = true →
      (emptier m).ready (sw.activeReadFdSet j) (sw.activeWriteFdSet j) = false)
    (hc : msgPopReadPacket sw j = .ok sw') : Seen sw sw' j m.popRead.upd := by
  obtain ⟨sw₁, sw₂, h₁, h₂, o⟩ := set_check_update sw j m.popRead
  have s := set_check_update_seen (by rw [Msg.popRead_ready]; exact hn) h₁ h₂ o.get
  simp only [Msg.popRead] at h₁
  simp only [msgPopReadPacket, MsgSwitch.assertMsg, h, bind, Except.bind, h₁, h₂] at hc
  cases hc
  exact s

/-! ## Bytes in and out -/

/-- `msg_flush`: nothing, or one push. -/
theorem msgFlush_seen {r : Except Errno ℕ} (h : sw.msgs j = some m) (hr : sw.Right j m)
    (hn : m.status.closed = false → m.incompleteWritPacket.isSome = true →
      (fuller m).ready (sw.activeReadFdSet j) (sw.activeWriteFdSet j) = false)
    (hc : msgFlush sw j = .ok (sw', r)) : ∃ m', Seen sw sw' j m' := by
  unfold msgFlush at hc
  simp only [h, pure, Except.pure] at hc
  split_ifs at hc with h₁ h₂
  · cases hc; exact ⟨m, Seen.refl h hr⟩
  · obtain ⟨sw₁, hp, hc⟩ := bind_ok hc
    cases hc
    obtain ⟨p, hi⟩ := Option.isSome_iff_exists.1 h₂
    exact ⟨_, push_seen h hi (fun _ => hn (by simpa using h₁) h₂) hp⟩
  · cases hc; exact ⟨m, Seen.refl h hr⟩

/-- `msg_packet_new`; the packet it starts is empty. -/
theorem msgPacketNew_seen (h : sw.msgs j = some m) (hr : sw.Right j m)
    (hn : m.incompleteWritPacket.isSome = true →
      (fuller m).ready (sw.activeReadFdSet j) (sw.activeWriteFdSet j) = false)
    (hc : msgPacketNew sw j = .ok sw') :
    ∃ m' p, Seen sw sw' j m' ∧ m'.incompleteWritPacket = some p ∧ p.size = 0 ∧
      (m.incompleteWritPacket.isSome = true →
        m'.ready (sw.activeReadFdSet j) (sw.activeWriteFdSet j) = false) ∧
      (m.incompleteWritPacket.isSome = false → fuller m' = fuller m.newPacket) := by
  unfold msgPacketNew MsgSwitch.assertMsg at hc
  simp only [h] at hc
  obtain ⟨m₀, hm₀, hc⟩ := bind_ok hc
  cases hm₀
  obtain ⟨sw₁, h₁, hc⟩ := bind_ok hc
  split_ifs at h₁ with hi
  · obtain ⟨p, hp⟩ := Option.isSome_iff_exists.1 hi
    have s₁ := push_seen h hp (fun _ => hn hi) h₁
    simp only [s₁.slot] at hc
    cases hc
    refine ⟨_, _, s₁.trans (Seen.set s₁.right fun _ _ => rfl), rfl, rfl, fun _ => ?_, fun hf => ?_⟩
    · exact (Msg.pushWrit_ready m p _ _).trans (hn hi)
    · rw [hi] at hf; cases hf
  · cases h₁
    simp only [h] at hc
    cases hc
    exact ⟨_, _, Seen.set hr fun _ _ => rfl, rfl, rfl, fun hf => absurd hf hi, fun _ => rfl⟩

/-- The copy loop of `msg_write`. The induction is on the rounds. Either nothing is pushed
any more, or a push finds the msg not ready, and then so do those that follow. -/
theorem msgWriteLoop_seen : ∀ (n : ℕ) (data : List UInt8) (sw : MsgSwitch) (m : Msg)
    (p : MsgPacket), sw.msgs j = some m → sw.Right j m → m.incompleteWritPacket = some p →
    (fuller m).ready (sw.activeReadFdSet j) (sw.activeWriteFdSet j) = false ∨
      p.size + data.length ≤ packDataSize →
    msgWriteLoop n sw j data = .ok sw' → ∃ m', Seen sw sw' j m' := by
  intro n
  induction n with
  | zero => intro data sw m p h hr _ _ hc; cases hc; exact ⟨m, Seen.refl h hr⟩
  | succ n ih =>
    intro data sw m p h hr hp hP hc
    rw [msgWriteLoop] at hc
    split_ifs at hc with hd
    · cases hc; exact ⟨m, Seen.refl h hr⟩
    have hpos : 0 < data.length := List.length_pos_iff.2 (by simpa using hd)
    simp only [MsgSwitch.assertMsg, h] at hc
    obtain ⟨m₀, hm₀, hc⟩ := bind_ok hc
    cases hm₀
    obtain ⟨sw₁, h₁, hc⟩ := bind_ok hc
    -- the msg the bytes are copied into, with what holds of it
    have hcopy : ∃ m₁ p₁, Seen sw sw₁ j m₁ ∧ m₁.incompleteWritPacket = some p₁ ∧
        ((fuller m₁).ready (sw.activeReadFdSet j) (sw.activeWriteFdSet j) = false ∨
          p₁.size + data.length ≤ packDataSize) := by
      split_ifs at h₁ with hfull
      · have hlow : (fuller m).ready (sw.activeReadFdSet j) (sw.activeWriteFdSet j) = false := by
          rw [hp, Option.map_some, Option.some.injEq] at hfull
          exact hP.resolve_right (by omega)
        obtain ⟨m₁, p₁, s, hp₁, -, hl, -⟩ := msgPacketNew_seen h hr (fun _ => hlow) h₁
        exact ⟨m₁, p₁, s, hp₁, Or.inl (fuller_ready (hl (by simp [hp])))⟩
      · cases h₁; exact ⟨m, p, Seen.refl h hr, hp, hP⟩
    obtain ⟨m₁, p₁, s₁, hp₁, hP₁⟩ := hcopy
    simp only [s₁.slot] at hc
    obtain ⟨m₂, hm₂, hc⟩ := bind_ok hc
    cases hm₂
    simp only [hp₁] at hc
    set chunk := if packDataSize - p₁.size < data.length then packDataSize - p₁.size
      else data.length with hchunk
    set p₂ : MsgPacket := { p₁ with data := p₁.data ++ data.take chunk } with hp₂
    have s₂ : Seen sw₁ (sw₁.set j (some { m₁ with incompleteWritPacket := some p₂ })) j
        { m₁ with incompleteWritPacket := some p₂ } := Seen.set s₁.right fun _ _ => rfl
    have hsize : p₂.size + (data.drop chunk).length = p₁.size + data.length := by
      have hle : chunk ≤ data.length := by rw [hchunk]; split_ifs <;> omega
      simp only [hp₂, MsgPacket.size, List.length_append, List.length_take, List.length_drop]
      omega
    have s := s₁.trans s₂
    obtain ⟨m', s'⟩ := ih (data.drop chunk) _ _ p₂ s₂.slot s₂.right rfl (by
      rw [hsize, s.looks.rd, s.looks.wr]; exact hP₁) hc
    exact ⟨m', s.trans s'⟩

/-- **`msg_write`.** -/
theorem msgWrite_seen {buf : List UInt8} {r : Except Errno ℕ} (h : sw.msgs j = some m)
    (hr : sw.Right j m)
    (hn : m.status.closed = false → m.status.disconnected = false →
      m.status.spaceAvailForWrit = true →
      packDataSize < (m.incompleteWritPacket.map MsgPacket.size).getD 0 + buf.length →
      (fuller m).ready (sw.activeReadFdSet j) (sw.activeWriteFdSet j) = false)
    (hc : msgWrite sw j buf = .ok (sw', r)) : ∃ m', Seen sw sw' j m' := by
  -- the loop, from the msg that has a packet to copy into
  have hloop : ∀ (sw₁ : MsgSwitch) (m₁ : Msg) (p₁ : MsgPacket), Seen sw sw₁ j m₁ →
      m₁.incompleteWritPacket = some p₁ →
      ((fuller m₁).ready (sw.activeReadFdSet j) (sw.activeWriteFdSet j) = false ∨
        p₁.size + buf.length ≤ packDataSize) →
      msgWriteLoop buf.length sw₁ j buf = .ok sw' → ∃ m', Seen sw sw' j m' := by
    intro sw₁ m₁ p₁ s₁ hp₁ hP h₂
    obtain ⟨m', s'⟩ := msgWriteLoop_seen _ buf sw₁ m₁ p₁ s₁.slot s₁.right hp₁
      (by rw [s₁.looks.rd, s₁.looks.wr]; exact hP) h₂
    exact ⟨m', s₁.trans s'⟩
  unfold msgWrite at hc
  simp only [h, pure, Except.pure] at hc
  split_ifs at hc with hcl hd hs hi
  · cases hc; exact ⟨m, Seen.refl h hr⟩
  · cases hc; exact ⟨m, Seen.refl h hr⟩
  · cases hc; exact ⟨m, Seen.refl h hr⟩
  · -- a first packet pushes nothing
    obtain ⟨sw₁, h₁, hc⟩ := bind_ok hc
    obtain ⟨sw₂, h₂, hc⟩ := bind_ok hc
    cases hc
    have hi : m.incompleteWritPacket = none := by simpa using hi
    obtain ⟨m₁, p₁, s, hp₁, hz, -, hf⟩ := msgPacketNew_seen h hr (by simp [hi]) h₁
    refine hloop sw₁ m₁ p₁ s hp₁ ?_ h₂
    have hn := hn (by simpa using hcl) (by simpa using hd) (by simpa using hs)
    rw [hi] at hn hf
    by_cases hlt : packDataSize < 0 + buf.length
    · left
      rw [hf rfl]
      exact hn hlt
    · right; omega
  · obtain ⟨sw₁, h₁, hc⟩ := bind_ok hc
    cases h₁
    obtain ⟨sw₂, h₂, hc⟩ := bind_ok hc
    cases hc
    obtain ⟨p, hi⟩ := Option.ne_none_iff_exists'.1 (by simpa using hi)
    refine hloop sw m p (Seen.refl h hr) hi ?_ h₂
    have hn := hn (by simpa using hcl) (by simpa using hd) (by simpa using hs)
    rw [hi] at hn
    by_cases hlt : packDataSize < p.size + buf.length
    · left; exact hn hlt
    · right; omega

/-- The copy loop of `msg_read`. Either the head packet is not finished, or a pop finds the
msg not ready, and then so do those that follow. -/
theorem msgReadLoop_seen : ∀ (n size : ℕ) (buf buf' : List UInt8) (sw : MsgSwitch) (m : Msg),
    sw.msgs j = some m → sw.Right j m →
    (emptier m).ready (sw.activeReadFdSet j) (sw.activeWriteFdSet j) = false ∨ size = 0 ∨
      (∃ p rest, m.readQueue = p :: rest ∧ size < p.size - m.curReadPacketPos) →
    msgReadLoop n sw j size buf = .ok (sw', buf') → ∃ m', Seen sw sw' j m' := by
  intro n
  induction n with
  | zero => intro size buf buf' sw m h hr _ hc; cases hc; exact ⟨m, Seen.refl h hr⟩
  | succ n ih =>
    intro size buf buf' sw m h hr hP hc
    rw [msgReadLoop] at hc
    split_ifs at hc with hz
    · cases hc; exact ⟨m, Seen.refl h hr⟩
    simp only [MsgSwitch.assertMsg, h] at hc
    obtain ⟨m₀, hm₀, hc⟩ := bind_ok hc
    cases hm₀
    split at hc
    · cases hc
    · rename_i p rest hq
      set chunk := if size < p.size - m.curReadPacketPos then size
        else p.size - m.curReadPacketPos with hchunk
      set m₁ : Msg := { m with curReadPacketPos := m.curReadPacketPos + chunk } with hm₁
      have s₁ : Seen sw (sw.set j (some m₁)) j m₁ := Seen.set hr fun _ _ => rfl
      split_ifs at hc with hend
      · -- the head is finished, and popped
        have hlow : (emptier m).ready (sw.activeReadFdSet j) (sw.activeWriteFdSet j) = false := by
          rcases hP with hP | hP | ⟨q, rest', hq', hlt⟩
          · exact hP
          · exact absurd hP hz
          · rw [hq] at hq'
            cases hq'
            rw [hchunk, if_pos hlt] at hend
            omega
        obtain ⟨sw₂, h₂, hc⟩ := bind_ok hc
        have s₂ := popRead_seen s₁.slot (fun _ => hlow) h₂
        have hlow₂ : m₁.popRead.upd.ready (sw.activeReadFdSet j) (sw.activeWriteFdSet j) =
            false := (Msg.popRead_ready m₁ _ _).trans hlow
        have s := s₁.trans s₂
        simp only [s₂.slot] at hc
        obtain ⟨m₂, hm₂, hc⟩ := bind_ok hc
        cases hm₂
        split_ifs at hc
        · cases hc; exact ⟨_, s⟩
        · obtain ⟨m', s'⟩ := ih _ _ _ _ _ s₂.slot s₂.right (Or.inl (by
            rw [s.looks.rd, s.looks.wr]; exact emptier_ready hlow₂)) hc
          exact ⟨m', s.trans s'⟩
      · have hP₁ : (emptier m₁).ready (sw.activeReadFdSet j) (sw.activeWriteFdSet j) = false ∨
            size - chunk = 0 ∨
            ∃ q rest', m₁.readQueue = q :: rest' ∧ size - chunk < q.size - m₁.curReadPacketPos := by
          by_cases hlt : size < p.size - m.curReadPacketPos
          · exact Or.inr (Or.inl (by rw [hchunk, if_pos hlt]; omega))
          · rcases hP with hP | hP | ⟨q, rest', hq', hlt'⟩
            · exact Or.inl hP
            · exact absurd hP hz
            · rw [hq] at hq'
              cases hq'
              exact absurd hlt' hlt
        obtain ⟨m', s'⟩ := ih _ _ _ _ _ s₁.slot s₁.right hP₁ hc
        exact ⟨m', s₁.trans s'⟩

/-- **`msg_read`.** -/
theorem msgRead_seen {size : ℕ} {r : Except Errno (List UInt8)} (h : sw.msgs j = some m)
    (hr : sw.Right j m)
    (hn : m.status.closed = false → m.status.packetAvailToRead = true → 0 < size →
      (∃ p rest, m.readQueue = p :: rest ∧ p.size - m.curReadPacketPos ≤ size) →
      (emptier m).ready (sw.activeReadFdSet j) (sw.activeWriteFdSet j) = false)
    (hc : msgRead sw j size = .ok (sw', r)) : ∃ m', Seen sw sw' j m' := by
  unfold msgRead at hc
  simp only [h, pure, Except.pure] at hc
  split_ifs at hc with hcl hd hp
  · cases hc; exact ⟨m, Seen.refl h hr⟩
  · cases hc; exact ⟨m, Seen.refl h hr⟩
  · cases hc; exact ⟨m, Seen.refl h hr⟩
  obtain ⟨⟨sw₁, buf⟩, h₁, hc⟩ := bind_ok hc
  cases hc
  refine msgReadLoop_seen _ size [] _ sw m h hr ?_ h₁
  by_cases hz : size = 0
  · exact Or.inr (Or.inl hz)
  cases hq : m.readQueue with
  | nil =>
    -- the loop would stop at the empty queue
    rw [msgReadLoop, if_neg hz] at h₁
    simp only [MsgSwitch.assertMsg, h, bind, Except.bind, hq] at h₁
    cases h₁
  | cons p rest =>
    by_cases hlt : size < p.size - m.curReadPacketPos
    · exact Or.inr (Or.inr ⟨p, rest, rfl, hlt⟩)
    · exact Or.inl (hn (by simpa using hcl) (by simpa using hp) (by omega)
        ⟨p, rest, hq, by omega⟩)

/-! ## Marks of a slot that may come or go -/

/-- From `sw` to `sw'` only slot `j` was touched; if it is live its mark is right, and the
counter has changed as its mark has. -/
structure Marked (sw sw' : MsgSwitch) (j : ℕ) : Prop where
  msgs : ∀ i, i ≠ j → sw'.msgs i = sw.msgs i
  rd : ∀ i, i ≠ j → sw'.activeReadFdSet i = sw.activeReadFdSet i
  wr : ∀ i, i ≠ j → sw'.activeWriteFdSet i = sw.activeWriteFdSet i
  sel : ∀ i, i ≠ j → sw'.selectable i = sw.selectable i
  right : ∀ m, sw'.msgs j = some m → sw'.Right j m
  count : sw'.nSelectable - (sw'.marked j).toNat = sw.nSelectable - (sw.marked j).toNat

theorem Marked.trans (h₁ : Marked sw sw₁ j) (h₂ : Marked sw₁ sw₂ j) : Marked sw sw₂ j where
  msgs := fun i hi => (h₂.msgs i hi).trans (h₁.msgs i hi)
  rd := fun i hi => (h₂.rd i hi).trans (h₁.rd i hi)
  wr := fun i hi => (h₂.wr i hi).trans (h₁.wr i hi)
  sel := fun i hi => (h₂.sel i hi).trans (h₁.sel i hi)
  right := h₂.right
  count := h₂.count.trans h₁.count

/-- The interest in slot `j` is set or cleared, and the msg looked at. -/
theorem Seen.marked {rd wr : ℕ → Bool} {hash : FdHash} (h : sw.msgs j = some m)
    (hrd : ∀ i, i ≠ j → rd i = sw.activeReadFdSet i)
    (hwr : ∀ i, i ≠ j → wr i = sw.activeWriteFdSet i)
    (s : Seen { sw with activeReadFdSet := rd, activeWriteFdSet := wr, activeHash := hash } sw' j m') :
    Marked sw sw' j where
  msgs := s.looks.msgs
  rd := fun i hi => by rw [s.looks.rd]; exact hrd i hi
  wr := fun i hi => by rw [s.looks.wr]; exact hwr i hi
  sel := fun i hi => by rw [s.looks.sel, Function.update_of_ne hi]
  right := fun n hn => by
    rw [s.slot] at hn
    cases hn
    exact s.right
  count := by
    have hr := s.right
    unfold MsgSwitch.Right at hr
    rw [s.looks.rd, s.looks.wr] at hr
    rw [s.looks.count, MsgSwitch.marked, MsgSwitch.marked, s.slot, h, hr]
    simp only [Option.isSome_some, Bool.true_and]
    omega

/-- The object alone is looked at. -/
theorem Seen.marked_same (h : sw.msgs j = some m) (s : Seen sw sw' j m') : Marked sw sw' j :=
  have s : Seen { sw with activeReadFdSet := sw.activeReadFdSet } sw' j m' := s
  Seen.marked h (fun _ _ => rfl) (fun _ _ => rfl) s

/-! ## `msg_free` -/

theorem msgClear_looks (h : sw.msgs j = some m) (hc : msgClear sw j = .ok sw') :
    Looks sw sw' j
        (!sw.selectable j && m.cleared.ready (sw.activeReadFdSet j) (sw.activeWriteFdSet j)) ∧
      sw'.msgs j = some m.cleared := by
  unfold msgClear MsgSwitch.assertMsg at hc
  simp only [h, bind, Except.bind] at hc
  set sw₀ : MsgSwitch := if m.status.writing && sw.pendingMsgs.contains m.ptr then
      if !msgSwitchHasAvailWrits { sw with pendingMsgs := sw.pendingMsgs.erase m.ptr } then
        { sw with pendingMsgs := sw.pendingMsgs.erase m.ptr, writeArmed := false }
      else { sw with pendingMsgs := sw.pendingMsgs.erase m.ptr }
    else sw with hsw₀
  have hsame : (sw₀.activeReadFdSet, sw₀.activeWriteFdSet, sw₀.selectable, sw₀.nSelectable,
      sw₀.msgs) =
      (sw.activeReadFdSet, sw.activeWriteFdSet, sw.selectable, sw.nSelectable, sw.msgs) := by
    rw [hsw₀]; split_ifs <;> rfl
  simp only [Prod.mk.injEq] at hsame
  obtain ⟨hrd, hwr, hsel, hn, hm⟩ := hsame
  have l₀ : Looks sw (sw₀.set j (some m.cleared)) j (sw.selectable j) :=
    Looks.same (fun i hi => by simp [MsgSwitch.set, hi, hm]) (by simp only [MsgSwitch.set, hrd, hwr, hsel, hn])
  have hset : (sw₀.set j (some m.cleared)).msgs j = some m.cleared := by simp [MsgSwitch.set]
  obtain ⟨l, hl⟩ := msgCheckSelectability_looks hset hc
  refine ⟨?_, by rw [hl]; exact hset⟩
  have := l₀.trans l
  rwa [l₀.sel, l₀.rd, l₀.wr, Function.update_self] at this

/-- **`msg_free`** takes the mark along, whatever the check inside it does. -/
theorem msgFree_marked (h : sw.msgs j = some m) (hc : msgFree sw j = .ok sw') :
    Marked sw sw' j ∧ sw'.msgs j = none := by
  unfold msgFree at hc
  obtain ⟨sw₁, h₁, hc⟩ := bind_ok hc
  obtain ⟨l, hm⟩ := msgClear_looks h h₁
  simp only [MsgSwitch.assertMsg, hm] at hc
  obtain ⟨m₀, hm₀, hc⟩ := bind_ok hc
  cases hm₀
  have hsel : sw₁.selectable j =
      (!sw.selectable j && m.cleared.ready (sw.activeReadFdSet j) (sw.activeWriteFdSet j)) := by
    rw [l.sel, Function.update_self]
  have hsw' : sw'.msgs = Function.update sw₁.msgs j none ∧
      sw'.activeReadFdSet = sw₁.activeReadFdSet ∧ sw'.activeWriteFdSet = sw₁.activeWriteFdSet ∧
      sw'.selectable = sw₁.selectable ∧
      sw'.nSelectable = sw₁.nSelectable - (sw₁.selectable j).toNat := by
    cases hb : sw₁.selectable j <;> simp only [hb] at hc <;> cases hc <;>
      by_cases hi : m.cleared.imsgid ≠ 0 <;> simp [MsgSwitch.set, hi]
  obtain ⟨hmsgs, hrd, hwr, hs, hn⟩ := hsw'
  have hnone : sw'.msgs j = none := by rw [hmsgs, Function.update_self]
  refine ⟨⟨fun i hi => ?_, fun i _ => ?_, fun i _ => ?_, fun i hi => ?_, fun n hn => ?_, ?_⟩, hnone⟩
  · rw [hmsgs, Function.update_of_ne hi]; exact l.msgs i hi
  · rw [hrd, l.rd]
  · rw [hwr, l.wr]
  · rw [hs, l.sel, Function.update_of_ne hi]
  · rw [hnone] at hn; cases hn
  · rw [hn, l.count, hsel, MsgSwitch.marked, MsgSwitch.marked, hnone, h]
    simp only [Option.isSome_none, Option.isSome_some, Bool.false_and, Bool.true_and,
      Bool.toNat_false]
    omega

end Zimr
