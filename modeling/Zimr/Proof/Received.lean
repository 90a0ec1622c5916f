import Zimr.Proof.Closing

/-!
# What is read was written

Msgs are closed, released and their slots used again. Still, what `msg_read` has returned of
an object is the beginning of what `msg_write` has accepted from one object of the other side,
and that one sends to no other (`received_prefix`).
-/

namespace Zimr

open Link (Item Half Stage)

variable {σ σ' : Net} {s t : Side} {j x y : ℕ} {m : Msg} {str dns : Bool} {a : Act}

/-- What the other end of the object `y` has accepted; nothing while there is no other end. -/
def Net.sentTo (σ : Net) (s : Side) (y : ℕ) : List UInt8 :=
  match σ.peer s y with
  | some x => (σ.log s.other x).accepted
  | none => []

theorem Net.sentTo_some (hp : σ.peer s y = some x) : σ.sentTo s y = (σ.log s.other x).accepted := by
  rw [Net.sentTo, hp]

theorem Net.sentTo_none (hp : σ.peer s y = none) : σ.sentTo s y = [] := by
  rw [Net.sentTo, hp]

/-- A msg that is not closed has read the beginning of what was sent to it. -/
theorem NetOK.got_prefix (h : NetOK str dns σ) (hj : (σ.ep s).msgs j = some m)
    (hc : m.status.closed = false) : (σ.log s m.addr).got <+: σ.sentTo s m.addr := by
  have hx := (h.sw s).slots.addr _ _ hj
  have hst := h.stage_live hj
  cases hp : σ.peer s m.addr with
  | none =>
    rcases (h.sound_unborn hx hp).inv.shake.alone rfl with ⟨hg, -⟩ | ⟨e, -, -, -, -, -, hgot, -⟩
    · rw [hst] at hg; cases hg
    · rw [show (σ.log s m.addr).got = [] from hgot]; exact List.nil_prefix
  | some x =>
    rw [Net.sentTo_some hp]
    have hinv := (h.sound hx hp).inv
    cases hd : m.status.disconnected with
    | true =>
      obtain ⟨hacc, -⟩ := hinv.flow'.ended m.view hst hc hd
      exact ⟨_, hacc.symm⟩
    | false =>
      have hborn : (σ.half str s.other x).stage ≠ .unborn := by
        rcases MsgSwitch.stage_cases (h.sw s.other).slots x with ⟨i, n, -, -, hi⟩ | ⟨-, hi⟩
        · rw [show (σ.half str s.other x).stage = _ from hi]; simp
        · rw [show (σ.half str s.other x).stage = _ from hi]; simp
      obtain ⟨e, -, -, hacc⟩ := hinv.flow'.stream m.view hst hc hd hborn
      rw [List.append_assoc, List.append_assoc] at hacc
      exact ⟨_, hacc.symm⟩

/-! ## One step -/

/-- How the histories change: more is accepted, and more has been returned of a msg that is
not closed only. -/
structure Net.Extends (σ σ' : Net) : Prop where
  made : ∀ t, σ.made t ≤ σ'.made t
  peer : ∀ t z x, z < σ.made t → σ.peer t z = some x → σ'.peer t z = some x
  accepted : ∀ t z, z < σ.made t → (σ.log t z).accepted <+: (σ'.log t z).accepted
  got : ∀ t z, z < σ'.made t → (σ'.log t z).got = [] ∨
    (z < σ.made t ∧ (σ'.log t z).got = (σ.log t z).got) ∨
    ∃ j m, (σ'.ep t).msgs j = some m ∧ m.addr = z ∧ m.status.closed = false

theorem Net.Extends.same (hm : σ'.made = σ.made) (hl : σ'.log = σ.log) : σ.Extends σ' where
  made := fun t => by rw [hm]
  peer := fun t z x _ hp => by rw [Net.peer, hl]; exact hp
  accepted := fun t z _ => by rw [hl]
  got := fun t z hz => Or.inr (Or.inl ⟨hm ▸ hz, by rw [hl]⟩)

theorem EndLog.record_accepted (l : EndLog) (op : Op) (ret : OpRet) :
    l.accepted <+: (l.record op ret).accepted := by
  unfold EndLog.record
  split
  · exact List.prefix_append _ _
  · exact List.prefix_rfl
  · exact List.prefix_rfl
  · exact List.prefix_rfl

/-- Only a read returns bytes. -/
theorem EndLog.record_got (l : EndLog) (op : Op) (ret : OpRet) :
    (l.record op ret).got = l.got ∨ ∃ i size bs, op = .read i size ∧ ret = .bytes (.ok bs) := by
  unfold EndLog.record
  split
  · exact Or.inl rfl
  · rename_i i size bs; exact Or.inr ⟨i, size, bs, rfl, rfl⟩
  · exact Or.inl rfl
  · exact Or.inl rfl

/-- A read that returns bytes is one of a msg that is not closed, before and after. -/
theorem SwOK.read_open {strong : Prop} {sw sw' : MsgSwitch} {size : ℕ} {bs : List UInt8}
    (h : SwOK strong sw) (hj : sw.msgs j = some m)
    (hr : sw.call (.read j size) = .ok (sw', .bytes (.ok bs))) :
    ∃ m', sw'.msgs j = some m' ∧ m'.addr = m.addr ∧ m'.status.closed = false := by
  obtain ⟨⟨sw₁, r⟩, h₁, h₂⟩ := bind_ok hr
  cases h₂
  obtain ⟨sw₂, ret, h₃, ⟨e, rfl, rfl⟩ | ⟨m', R, bs', rfl, mv, hc, -⟩⟩ :=
    msgRead_moves (S := True) (H := True) hj (h.slots.ok _ _ hj) size
  · rw [h₁] at h₃; cases h₃
  · rw [h₁] at h₃; cases h₃
    refine ⟨m', ?_, (Msg.ptr_eq_iff.1 mv.ptr).1, mv.closed.trans hc⟩
    rw [mv.only.msgs, Function.update_self]

/-- One object's history goes on. -/
theorem Net.Extends.record {sw : MsgSwitch} {op : Op} {ret : OpRet}
    (h : NetOK str dns σ) (hj : (σ.ep s).msgs j = some m) (hop : op.msgid = some j)
    (h₁ : (σ.ep s).call op = .ok (sw, ret)) (hn : sw.nextAddr = (σ.ep s).nextAddr) :
    σ.Extends ((σ.setEp s sw).setLog s m.addr ((σ.log s m.addr).record op ret)) := by
  have hrec := (σ.log s m.addr).record_same op ret
  have hmade : ∀ t, ((σ.setEp s sw).setLog s m.addr ((σ.log s m.addr).record op ret)).made t =
      σ.made t := Side.forall_of s (by simpa [Net.made] using hn) (by simp [Net.made])
  refine ⟨fun t => (hmade t).ge, ?_, ?_, ?_⟩
  · refine Side.forall_of s (fun z x _ hp => ?_) fun z x _ hp => by simpa [Net.peer] using hp
    by_cases hz : z = m.addr
    · subst hz; simpa [Net.peer, hrec] using hp
    · simpa [Net.peer, Function.update_of_ne hz] using hp
  · refine Side.forall_of s (fun z _ => ?_) fun z _ => by simp
    by_cases hz : z = m.addr
    · subst hz; simpa using EndLog.record_accepted _ _ _
    · simp [Function.update_of_ne hz]
  · refine Side.forall_of s (fun z hz => ?_) fun z hz => Or.inr (Or.inl ⟨hmade _ ▸ hz, by simp⟩)
    rw [hmade] at hz
    by_cases hzm : z = m.addr
    · subst hzm
      rcases (σ.log s m.addr).record_got op ret with hg | ⟨i, size, bs, rfl, rfl⟩
      · exact Or.inr (Or.inl ⟨hz, by simpa using hg⟩)
      · cases hop
        obtain ⟨m', hj', ha, hc⟩ := (h.sw s).read_open hj h₁
        exact Or.inr (Or.inr ⟨j, m', by simpa using hj', ha, hc⟩)
    · exact Or.inr (Or.inl ⟨hz, by simp [Function.update_of_ne hzm]⟩)

theorem SwOK.write_next {strong : Prop} {sw sw' : MsgSwitch} {f : Frame} (h : SwOK strong sw)
    (hw : msgSwitchWrite sw = .ok (sw', f)) : sw'.nextAddr = sw.nextAddr := by
  rcases msgSwitchWrite_cases h.slots hw with
    ⟨r, rest, -, -, rfl⟩ | ⟨m, p, rest, tail, sw₁, -, -, -, -, -, rfl, o⟩
  · exact ({ sw with pendingResps := rest } : MsgSwitch).disarm_eq.2.2.2.2.1
  · exact sw₁.disarm_eq.2.2.2.2.1.trans o.next

/-- The first packet of an object without a peer makes its peer. -/
theorem NetOK.extends_born {f : Frame} {rest : List Frame} {sw : MsgSwitch} (h : NetOK str dns σ)
    (hch : σ.chan s.other = f :: rest) (h₁ : msgSwitchDispatch (σ.ep s) f = .ok sw)
    (hn : sw.nextAddr ≠ (σ.ep s).nextAddr) :
    σ.Extends ((((σ.setEp s sw).setChan s.other rest).setLog s (σ.ep s).nextAddr
      { peer := some f.owner, wid := -f.msgid }).setLog s.other f.owner
        { σ.log s.other f.owner with peer := some (σ.ep s).nextAddr }) := by
  obtain ⟨hnext, hp⟩ : sw.nextAddr = (σ.ep s).nextAddr + 1 ∧ σ.peer s.other f.owner = none := by
    cases dispatch_eff (S := True) (H := True) (h.sw s) h₁ with
    | dropped resp hf hg he => rw [he] at hn; exact absurd rfl hn
    | ignored resp m hf hg hr hs he => rw [he] at hn; exact absurd rfl hn
    | acked resp m m' R hf hg hr hs hw t _ => exact absurd t.only.next hn
    | answered resp m m' hf hg hr hs a => exact absurd a.next hn
    | freed resp m hf hg hr hs c => exact absurd c.next hn
    | data p m m' R hf hg t _ => exact absurd t.only.next hn
    | born p sw₁ j m' R hf hg hneg c t _ =>
      subst hf
      refine ⟨t.only.next.trans c.next, ?_⟩
      rcases h.resolve_item hch (by simp [Frame.item]) with ⟨m₁, hg₁, -⟩ | ⟨-, hp⟩
      · rw [show msgGet (σ.ep s) (Frame.pack p).msgid = none from hg] at hg₁; cases hg₁
      · exact hp
  have hold : ∀ z, z < σ.made s → z ≠ (σ.ep s).nextAddr := fun z hz => Nat.ne_of_lt hz
  refine ⟨Side.forall_of s ?_ (by simp [Net.made]), ?_, ?_, ?_⟩
  · simp [Net.made, hnext]
  · refine Side.forall_of s (fun z x hz hpz => ?_) fun z x _ hpz => ?_
    · simpa [Net.peer, Function.update_of_ne (hold z hz)] using hpz
    · have hz : z ≠ f.owner := fun hz => by rw [hz, hp] at hpz; cases hpz
      simpa [Net.peer, Function.update_of_ne hz] using hpz
  · refine Side.forall_of s (fun z hz => by simp [Function.update_of_ne (hold z hz)]) fun z _ => ?_
    by_cases hz : z = f.owner
    · subst hz; simp
    · simp [Function.update_of_ne hz]
  · refine Side.forall_of s (fun z hz => ?_) fun z hz => ?_
    · by_cases hzn : z = (σ.ep s).nextAddr
      · subst hzn; exact Or.inl (by simp)
      · refine Or.inr (Or.inl ⟨?_, by simp [Function.update_of_ne hzn]⟩)
        simp only [Net.made, Net.setLog_ep, Net.setChan_ep, Net.setEp_ep, hnext] at hz ⊢
        omega
    · refine Or.inr (Or.inl ⟨by simpa [Net.made] using hz, ?_⟩)
      by_cases hzo : z = f.owner
      · subst hzo; simp
      · simp [Function.update_of_ne hzo]

/-- **What a step adds to the histories.** -/
theorem NetOK.extends (h : NetOK str dns σ) (hs : σ.step a = .ok σ') : σ.Extends σ' := by
  cases a with
  | call s op =>
    obtain ⟨⟨sw, ret⟩, h₁, -⟩ := bind_ok hs
    cases call_eff (S := True) (H := True) (h.sw s) h₁ with
    | idle hop he hrec =>
      obtain ⟨j, hop⟩ := Option.ne_none_iff_exists'.1 hop
      obtain ⟨hsome, hnone⟩ := Net.call_eq h₁ hop hs
      subst he
      rw [Net.setEp_self] at hsome hnone
      have : σ' = σ := by
        cases hj : (σ.ep s).msgs j with
        | none => exact hnone hj
        | some m => rw [hsome m hj, hrec, Net.setLog_self]
      rw [this]; exact .same rfl rfl
    | turn j m m' R hop hj t _ =>
      rw [(Net.call_eq h₁ hop hs).1 m hj]
      exact .record h hj hop h₁ t.only.next
    | freed j m hop hj c _ =>
      rw [(Net.call_eq h₁ hop hs).1 m hj]
      exact .record h hj hop h₁ c.next
    | opened j type hop hret c =>
      subst hop hret
      have : σ' = (σ.setEp s sw).setLog s (σ.ep s).nextAddr { wid := -(j : ℤ) } := by
        simp only [Net.step, Net.call, h₁, bind, Except.bind, Op.msgid, pure, Except.pure] at hs
        cases hs; rfl
      subst this
      have hold : ∀ z, z < σ.made s → z ≠ (σ.ep s).nextAddr := fun z hz => Nat.ne_of_lt hz
      refine ⟨Side.forall_of s ?_ (by simp [Net.made]), ?_, ?_, ?_⟩
      · simp [Net.made, c.next]
      · exact Side.forall_of s
          (fun z x hz hp => by simpa [Net.peer, Function.update_of_ne (hold z hz)] using hp)
          fun z x _ hp => by simpa [Net.peer] using hp
      · exact Side.forall_of s (fun z hz => by simp [Function.update_of_ne (hold z hz)]) fun z _ => by simp
      · refine Side.forall_of s (fun z hz => ?_) fun z hz => Or.inr (Or.inl ⟨by simpa [Net.made] using hz,
          by simp⟩)
        by_cases hzn : z = (σ.ep s).nextAddr
        · subst hzn; exact Or.inl (by simp)
        · refine Or.inr (Or.inl ⟨?_, by simp [Function.update_of_ne hzn]⟩)
          simp only [Net.made, Net.setLog_ep, Net.setEp_ep, c.next] at hz ⊢
          omega
  | writeReady s =>
    simp only [Net.step, Net.writeReady] at hs
    split_ifs at hs with harm
    swap
    · cases hs; exact .same rfl rfl
    obtain ⟨⟨sw, frame⟩, h₁, hc⟩ := bind_ok hs
    cases hc
    refine .same (funext (Side.forall_of s ?_ ?_)) rfl
    · simpa [Net.made] using (h.sw s).write_next h₁
    · simp [Net.made]
  | readReady s =>
    cases hch : σ.chan s.other with
    | nil =>
      simp only [Net.step, Net.readReady, hch] at hs
      cases hs; exact .same rfl rfl
    | cons f rest =>
      simp only [Net.step, Net.readReady, hch] at hs
      obtain ⟨sw, h₁, hs⟩ := bind_ok hs
      by_cases hn : sw.nextAddr = (σ.ep s).nextAddr
      · rw [if_pos hn] at hs
        cases hs
        exact .same (funext (Side.forall_of s (by simpa [Net.made] using hn) (by simp [Net.made]))) rfl
      · rw [if_neg hn] at hs
        cases hs
        exact h.extends_born hch h₁ hn

/-! ## Runs -/

/-- Every object has read the beginning of what was sent to it. -/
def Net.Received (σ : Net) : Prop := ∀ s y, y < σ.made s → (σ.log s y).got <+: σ.sentTo s y

theorem Net.Extends.sentTo (e : σ.Extends σ') (h : NetOK str dns σ) (hy : y < σ.made s) :
    σ.sentTo s y <+: σ'.sentTo s y := by
  cases hp : σ.peer s y with
  | none => rw [Net.sentTo_none hp]; exact List.nil_prefix
  | some x =>
    rw [Net.sentTo_some hp, Net.sentTo_some (e.peer s y x hy hp)]
    exact e.accepted s.other x (h.mutual s y x hy hp).1

theorem Net.Received.step (h : NetOK str dns σ) (hr : σ.Received) (h' : NetOK str dns σ')
    (hs : σ.step a = .ok σ') : σ'.Received := by
  intro s y hy
  have e := h.extends hs
  rcases e.got s y hy with hg | ⟨hold, hg⟩ | ⟨j, m, hj, rfl, hc⟩
  · rw [hg]; exact List.nil_prefix
  · rw [hg]; exact (hr s y hold).trans (e.sentTo h hold)
  · exact h'.got_prefix hj hc

/-- **What is read was written.** In every run in which no flush is late, whatever is closed,
released and used again: what was returned of an object is the beginning of what its one peer
has accepted, and nothing was returned of an object without a peer. -/
theorem received_prefix (acts : List Act) (σ : Net)
    (hC : Run.Along Net.step (fun σ a => σ.flushesLate a = false) Net.init acts)
    (hr : Run.run Net.step Net.init acts = .ok σ) (s : Side) (y : ℕ) (hy : y < σ.made s) :
    (∃ x, x < σ.made s.other ∧ σ.peer s y = some x ∧ σ.peer s.other x = some y ∧
      (σ.log s y).got <+: (σ.log s.other x).accepted) ∨
    (σ.peer s y = none ∧ (σ.log s y).got = []) := by
  obtain ⟨h, hrec⟩ := Run.run_inv (I := fun σ => NetOK false false σ ∧ σ.Received)
    (fun σ a σ' h hc hs => by
      have h' := h.1.step hc (fun h => by cases h) (fun h => by cases h) hs
      exact ⟨h', h.2.step h.1 h' hs⟩) acts _ _
    ⟨NetOK.init false false, fun s y h => by simp [Net.made, Net.init, msgSwitchCreate] at h⟩ hC hr
  have hgot := hrec s y hy
  cases hp : σ.peer s y with
  | none =>
    rw [Net.sentTo_none hp] at hgot
    exact Or.inr ⟨rfl, List.prefix_nil.1 hgot⟩
  | some x =>
    obtain ⟨hx, hpx⟩ := h.mutual s y x hy hp
    rw [Net.sentTo_some hp] at hgot
    exact Or.inl ⟨x, hx, rfl, hpx, hgot⟩

/-- Both ends close a msg; its slot is used again, and `b` reads a part of what comes. -/
def reusedSlot : List Act :=
  bothClosed ++ [.call .a (.open 7), .call .a (.write 1 [3, 4]), .call .a (.flush 1), .writeReady .a,
    .readReady .b, .call .b (.read 1 1)]

theorem received_prefix_reusedSlot :
    ∃ σ, Run.run Net.step Net.init reusedSlot = .ok σ ∧ (σ.log .b 0).closed = true ∧
      (σ.log .b 1).got = [3] ∧
      ((∃ x, x < σ.made .a ∧ σ.peer .b 1 = some x ∧ σ.peer .a x = some 1 ∧
        (σ.log .b 1).got <+: (σ.log .a x).accepted) ∨
      (σ.peer .b 1 = none ∧ (σ.log .b 1).got = [])) := by
  obtain ⟨σ, h⟩ : ∃ σ, Run.run Net.step Net.init reusedSlot = .ok σ := ⟨_, rfl⟩
  have hp : (Run.run Net.step Net.init reusedSlot).toOption.map (fun σ =>
      ((σ.log .b 0).closed, (σ.log .b 1).got, σ.made .b)) = some (true, [3], 2) := by decide
  rw [h] at hp
  simp only [Except.toOption, Option.map_some, Option.some.injEq, Prod.mk.injEq] at hp
  obtain ⟨hc, hg, hm⟩ := hp
  exact ⟨σ, h, hc, hg, received_prefix reusedSlot σ (by decide) h .b 1 (by rw [hm]; decide)⟩

end Zimr
