import Zimr.Proof.Became
import Zimr.Proof.Faults
import Zimr.Proof.NetStep

/-!
# A disconnect ends the data of a msg

Once an object has queued its disconnect it writes no packet any more, so that no packet
comes to an id that is free or belongs to a newer msg (`discon_ends_data`). `msg_flush` of a
msg whose peer has disconnected breaks it (`data_after_discon`).
-/

namespace Zimr

open Link (Item Half Stage)

variable {σ σ' : Net} {s : Side} {j x y : ℕ} {m n : Msg} {str dns : Bool} {a : Act}
  {sw sw' : MsgSwitch} {ev : Event}

/-- The object `x` of an endpoint has sent its disconnect, or is gone. -/
def MsgSwitch.Silent (sw : MsgSwitch) (x : ℕ) : Prop :=
  x < sw.nextAddr ∧ ∀ j m, sw.msgs j = some m → m.addr = x → m.status.sentDisconnect = true

theorem MsgSwitch.Silent.step {strong : Prop} (hx : sw.Silent x) (h : SwOK strong sw)
    (hs : sw.step ev = .ok sw') (hnext : sw.nextAddr ≤ sw'.nextAddr) : sw'.Silent x := by
  refine ⟨hx.1.trans_le hnext, fun j n hj ha => ?_⟩
  cases step_became h hs hj with
  | changed i m hi ham hsm _ _ _ => exact hsm (hx.2 i m hi (ham.symm.trans ha))
  | received p m _ hg ham hsm _ _ _ => exact hsm (hx.2 _ m (h.get_slot hg) (ham.symm.trans ha))
  | answered r m _ _ _ _ _ hsn _ _ => exact hsn
  | fresh han _ _ =>
    have := hx.1
    omega

/-- Addresses are never used again. -/
theorem MsgSwitch.step_next {strong : Prop} (h : SwOK strong sw) (hs : sw.step ev = .ok sw') :
    sw.nextAddr ≤ sw'.nextAddr := by
  cases ev with
  | call op =>
    obtain ⟨⟨sw₁, ret⟩, h₁, h₂⟩ := bind_ok hs
    cases h₂
    cases call_eff (S := True) (H := True) h h₁ with
    | idle _ he _ => rw [show sw' = sw from he]
    | turn j m m' R hop hj t _ => exact t.only.next.ge
    | freed j m hop hj c _ => exact c.next.ge
    | opened j type hop hret c => exact (Nat.le_succ _).trans c.next.ge
  | writeReady =>
    simp only [MsgSwitch.step] at hs
    split_ifs at hs
    swap
    · cases hs; exact le_rfl
    obtain ⟨⟨sw₁, frame⟩, h₁, h₂⟩ := bind_ok hs
    cases h₂
    rcases msgSwitchWrite_cases h.slots h₁ with
      ⟨r, rest, -, -, rfl⟩ | ⟨m, p, rest, tail, sw₂, -, -, hj, -, -, rfl, o⟩
    · exact (({ sw with pendingResps := rest } : MsgSwitch).disarm_eq).2.2.2.2.1.ge
    · exact (sw₂.disarm_eq.2.2.2.2.1.trans o.next).ge
  | recv frame =>
    cases dispatch_eff (S := True) (H := True) h hs with
    | dropped resp hf hg he => rw [he]
    | ignored resp m hf hg hr hs he => rw [he]
    | acked resp m m' R hf hg hr hs hw t _ => exact t.only.next.ge
    | answered resp m m' hf hg hr hs a => exact a.next.ge
    | freed resp m hf hg hr hs c => exact c.next.ge
    | data p m m' R hf hg t _ => exact t.only.next.ge
    | born p sw₁ j m' R hf hg hneg c t _ =>
      rw [t.only.next, c.next]; exact Nat.le_succ _

theorem NetOK.silent_step (h : NetOK str dns σ) (hx : (σ.ep s).Silent x)
    (hs : σ.step a = .ok σ') : (σ'.ep s).Silent x := by
  rcases Net.step_ep hs s with he | ⟨ev, hev, -⟩
  · rw [he]; exact hx
  · exact hx.step (h.sw s) hev (MsgSwitch.step_next (h.sw s) hev)

/-- Whose disconnect is on the wire is silent. -/
theorem NetOK.silent_of_discon {r : MsgResp} (h : NetOK str dns σ) (hr : Frame.resp r ∈ σ.wire s)
    (hd : r.status = .discon) : (σ.ep s).Silent r.owner := by
  have hx := ((h.ids s).frame _ hr).1
  have hmem : Item.discon ∈ (σ.half str s r.owner).out :=
    mem_outOf.2 ⟨_, hr, rfl, by simp [Frame.item, MsgResp.item, hd]⟩
  have hsent := (h.link s r.owner hx).inv.shake.sent_of_out hmem
  refine ⟨hx, fun j m hj ha => ?_⟩
  rw [← ha] at hsent
  exact hsent.not_open (h.stage_live hj)

/-- A packet that is written belongs to a msg that has not sent its disconnect. -/
theorem NetOK.not_silent_of_pack {p : MsgPacket} (h : NetOK str dns σ)
    (hw : msgSwitchWrite (σ.ep s) = .ok (sw, .pack p)) : ¬ (σ.ep s).Silent p.owner := by
  rcases msgSwitchWrite_cases (h.sw s).slots hw with
    ⟨r, rest, -, he, -⟩ | ⟨m, q, rest, tail, sw₁, -, hp, hj, hq, he, -, -⟩
  · cases he
  · cases he
    intro hx
    have hid := ((h.sw s).slots.ok _ _ hj).ids p (Or.inl (by rw [hq]; exact List.mem_cons_self))
    have hsent := hx.2 _ m hj hid.1.symm
    have := (h.quiet s _ m hj hsent).2 (by rw [hp]; exact List.mem_cons_self)
    rw [hq] at this; cases this

/-- A packet that comes to a msg was made by its peer. -/
theorem NetOK.pack_from_peer {p : MsgPacket} {rest : List Frame} (h : NetOK str dns σ)
    (hch : σ.chan s.other = .pack p :: rest) (hg : msgGet (σ.ep s) p.msgid = some m) :
    σ.peer s m.addr = some p.owner := by
  obtain ⟨-, hp⟩ := h.resolve_some hch (by simp [Frame.item]) hg
  have hfw := (h.ids_other s).frame (.pack p) (by simp [Net.wire, hch])
  exact ((h.ids_other s).peer _ _ hfw.1 hp).2.1

theorem NetOK.never_badMsgid (h : NetOK str dns σ) (a : Act) : σ.step a ≠ .error .badMsgid := by
  intro hs
  rcases Net.step_fault h.sw hs with ⟨he, -⟩ | ⟨-, s, p, rest, -, hch, hg, hpos⟩ | ⟨-, he⟩
  · cases he
  · have hw := Net.wire_other hch (σ.ep s)
    have hg' : msgGet (σ.ep s) (Frame.pack p).msgid = none := hg
    rcases h.resolve hw with ⟨m, hm, -⟩ | ⟨-, hneg, -⟩ | ⟨y, hp, hseen, -⟩
    · rw [hg'] at hm; cases hm
    · have : p.msgid < 0 := hneg
      omega
    · exact absurd (h.seen_ok hw hp hseen).1 (by simp [Frame.item])
  · exact he rfl

/-- **A disconnect ends the data**, in every run in which no flush is late: who has queued a
disconnect by some point of the run writes no packet after it; no packet comes to a free id
that is not negative; and a packet comes only to the msg whose other end made it. -/
theorem discon_ends_data (acts₁ acts₂ : List Act) (σ₁ σ₂ : Net)
    (hC : Run.Along Net.step (fun σ a => σ.flushesLate a = false) Net.init (acts₁ ++ acts₂))
    (h₁ : Run.run Net.step Net.init acts₁ = .ok σ₁) (h₂ : Run.run Net.step σ₁ acts₂ = .ok σ₂) :
    (∀ s r, r ∈ (σ₁.ep s).pendingResps → r.status = .discon →
      ∀ sw p, msgSwitchWrite (σ₂.ep s) = .ok (sw, .pack p) → p.owner ≠ r.owner) ∧
    (∀ a, σ₂.step a ≠ .error .badMsgid) ∧
    (∀ s p rest m, σ₂.chan s.other = .pack p :: rest → msgGet (σ₂.ep s) p.msgid = some m →
      σ₂.peer s m.addr = some p.owner) ∧
    ∀ s j m p, (σ₂.ep s).msgs j = some m → p ∈ m.readQueue → σ₂.peer s m.addr = some p.owner := by
  have hstep : ∀ σ a σ', NetOK false false σ → σ.flushesLate a = false → σ.step a = .ok σ' →
      NetOK false false σ' := fun σ a σ' h hF hs =>
    h.step hF (fun h => (by cases h)) (fun h => (by cases h)) hs
  obtain ⟨hC₁, hC₂⟩ := hC.append h₁
  have ok₁ := Run.run_inv hstep acts₁ _ _ (NetOK.init false false) hC₁ h₁
  have ok₂ := Run.run_inv hstep acts₂ _ _ ok₁ hC₂ h₂
  refine ⟨fun s r hr hd sw p hw hp => ?_, ok₂.never_badMsgid,
    fun s p rest m hch hg => ok₂.pack_from_peer hch hg,
    fun s j m p hj hp => (ok₂.src s).reads j m hj p hp⟩
  have hsil : (σ₁.ep s).Silent r.owner := ok₁.silent_of_discon
    (List.mem_append_right _ (List.mem_map_of_mem hr)) hd
  have hsil₂ := Run.run_inv (I := fun σ => NetOK false false σ ∧ (σ.ep s).Silent r.owner)
    (fun σ a σ' h hF hs => ⟨hstep σ a σ' h.1 hF hs, h.1.silent_step h.2 hs⟩) acts₂ _ _ ⟨ok₁, hsil⟩
    hC₂ h₂
  exact ok₂.not_silent_of_pack hw (by rw [hp]; exact hsil₂.2)

/-- `b` answers the disconnect of `a` with everything flushed before. -/
def answeredDiscon : List Act :=
  [.call .a (.open 7), .call .a (.write 1 [1]), .call .a (.flush 1), .writeReady .a, .readReady .b,
    .call .b (.write 1 [2]), .call .b (.flush 1), .writeReady .b, .writeReady .b, .call .a (.close 1),
    .writeReady .a, .readReady .b]

theorem discon_ends_data_answeredDiscon :
    ∃ σ₁ σ₂, Run.run Net.step Net.init answeredDiscon = .ok σ₁ ∧
      Run.run Net.step σ₁ [.writeReady .b, .readReady .a] = .ok σ₂ ∧
      (σ₁.ep .b).pendingResps.map (·.status) = [.discon] ∧
      (∀ s r, r ∈ (σ₁.ep s).pendingResps → r.status = .discon →
        ∀ sw p, msgSwitchWrite (σ₂.ep s) = .ok (sw, .pack p) → p.owner ≠ r.owner) ∧
      (∀ a, σ₂.step a ≠ .error .badMsgid) ∧
      (∀ s p rest m, σ₂.chan s.other = .pack p :: rest → msgGet (σ₂.ep s) p.msgid = some m →
        σ₂.peer s m.addr = some p.owner) ∧
      ∀ s j m p, (σ₂.ep s).msgs j = some m → p ∈ m.readQueue →
        σ₂.peer s m.addr = some p.owner := by
  obtain ⟨σ₁, h₁⟩ : ∃ σ, Run.run Net.step Net.init answeredDiscon = .ok σ := ⟨_, rfl⟩
  obtain ⟨σ₂, h₂⟩ : ∃ σ, Run.run Net.step Net.init (answeredDiscon ++ [.writeReady .b, .readReady .a]) =
    .ok σ := ⟨_, rfl⟩
  obtain ⟨σ, h, h₂⟩ := Run.run_append h₂
  rw [h₁] at h
  cases h
  have hp : (Run.run Net.step Net.init answeredDiscon).toOption.map (fun σ =>
      (σ.ep .b).pendingResps.map (·.status)) = some [.discon] := by decide
  rw [h₁] at hp
  exact ⟨σ₁, σ₂, h₁, h₂, by simpa [Except.toOption] using hp,
    discon_ends_data answeredDiscon _ σ₁ σ₂ (by decide) h₁ h₂⟩

/-- `b` has written and not flushed when the disconnect of `a` comes. -/
def flushedLate : List Act :=
  [.call .a (.open 7), .call .a (.write 1 [1]), .call .a (.flush 1), .writeReady .a, .readReady .b,
    .call .b (.write 1 [2]), .call .a (.close 1), .writeReady .b, .readReady .a, .writeReady .a,
    .readReady .b]

/-- **The law fails**: `b` has queued its disconnect and then flushes; the packet goes out
after the disconnect, and comes to no msg, or to the next one in the slot. -/
theorem data_after_discon :
    (∃ σ₁ σ₂ r sw p, Run.run Net.step Net.init flushedLate = .ok σ₁ ∧
      Run.run Net.step σ₁ [.call .b (.flush 1), .writeReady .b] = .ok σ₂ ∧
      r ∈ (σ₁.ep .b).pendingResps ∧ r.status = .discon ∧
      msgSwitchWrite (σ₂.ep .b) = .ok (sw, .pack p) ∧ p.owner = r.owner) ∧
    Run.run Net.step Net.init (flushedLate ++ [.call .b (.flush 1), .writeReady .b, .writeReady .b,
      .readReady .a, .readReady .a]) = .error .badMsgid ∧
    ∃ σ m p, Run.run Net.step Net.init (flushedLate ++ [.call .b (.flush 1), .writeReady .b,
      .writeReady .b, .readReady .a, .call .a (.open 8), .readReady .a]) = .ok σ ∧
      (σ.ep .a).msgs 1 = some m ∧ p ∈ m.readQueue ∧ σ.peer .a m.addr = none := by
  refine ⟨?_, rfl, ?_⟩
  · obtain ⟨σ₂, h₂⟩ : ∃ σ, Run.run Net.step Net.init
      (flushedLate ++ [.call .b (.flush 1), .writeReady .b]) = .ok σ := ⟨_, rfl⟩
    have hw : (Run.run Net.step Net.init
        (flushedLate ++ [.call .b (.flush 1), .writeReady .b])).toOption.bind (fun σ =>
        (msgSwitchWrite (σ.ep .b)).toOption.map (·.2)) = some (.pack ⟨1, 7, [2], 0⟩) := by decide
    have hq : (Run.run Net.step Net.init flushedLate).toOption.map (fun σ =>
        (σ.ep .b).pendingResps) = some [⟨1, .discon, 0, some 0⟩] := by decide
    rw [h₂] at hw
    obtain ⟨σ₁, h₁, h₂⟩ := Run.run_append h₂
    rw [h₁] at hq
    simp only [Except.toOption, Option.map_some, Option.some.injEq, Option.bind_some] at hq hw
    cases hm : msgSwitchWrite (σ₂.ep .b) with
    | error e => rw [hm] at hw; cases hw
    | ok q =>
      obtain ⟨sw, f⟩ := q
      rw [hm] at hw
      simp only [Option.map_some, Option.some.injEq] at hw
      subst hw
      exact ⟨σ₁, σ₂, _, sw, _, h₁, h₂, by rw [hq]; exact List.mem_cons_self, rfl, hm, rfl⟩
  · have hm : (Run.run Net.step Net.init (flushedLate ++ [.call .b (.flush 1), .writeReady .b,
        .writeReady .b, .readReady .a, .call .a (.open 8), .readReady .a])).toOption.bind (fun σ =>
        ((σ.ep .a).msgs 1).map fun m => (m.readQueue, (σ.log .a m.addr).peer)) =
        some ([⟨1, 7, [2], 0⟩], none) := by decide +kernel
    obtain ⟨σ, h, hm⟩ := Option.bind_eq_some_iff.1 hm
    obtain ⟨m, hj, hm⟩ := Option.map_eq_some_iff.1 hm
    simp only [Prod.mk.injEq] at hm
    exact ⟨σ, m, _, Run.ok_of_toOption h, hj, by rw [hm.1]; exact List.mem_cons_self, hm.2⟩

end Zimr
