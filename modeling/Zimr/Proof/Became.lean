import Zimr.Proof.Pending
import Zimr.Proof.Touch

/-!
# What became of an object

For invariants that speak of each object of an endpoint by itself: every object after a
step was there before, changed as `Became` says, or is new.

* `step_became` — one endpoint
* `Net.step_ep` — a step of the net is a step of one endpoint
-/

namespace Zimr

variable {sw sw' : MsgSwitch} {i j : ℕ} {m n : Msg} {strong : Prop} {ev : Event}

/-- What the object `n` of an endpoint was before the step `ev`. -/
inductive Became (sw : MsgSwitch) (ev : Event) (n : Msg) : Prop
  | changed (j : ℕ) (m : Msg) (hj : sw.msgs j = some m) (ha : n.addr = m.addr)
      (hs : m.status.sentDisconnect = true → n.status.sentDisconnect = true)
      (hd : n.status.disconnected = m.status.disconnected)
      (hc : n.status.closed = true → m.status.closed = true ∨ m.status.disconnected = false)
      (hl : n.readQueue.length ≤ m.readQueue.length)
  | received (p : MsgPacket) (m : Msg) (hev : ev = .recv (.pack p))
      (hg : msgGet sw p.msgid = some m) (ha : n.addr = m.addr)
      (hs : m.status.sentDisconnect = true → n.status.sentDisconnect = true)
      (hd : n.status.disconnected = m.status.disconnected)
      (hc : n.status.closed = true → m.status.closed = true ∨ m.status.disconnected = false)
      (hl : n.readQueue.length ≤ m.readQueue.length + 1)
  | answered (r : MsgResp) (m : Msg) (hev : ev = .recv (.resp r)) (hr : r.status = .discon)
      (hg : msgGet sw r.msgid = some m) (hns : m.status.sentDisconnect = false)
      (ha : n.addr = m.addr) (hs : n.status.sentDisconnect = true)
      (hc : n.status.closed = m.status.closed) (hl : n.readQueue = m.readQueue)
  | fresh (ha : n.addr = sw.nextAddr) (hd : n.status.disconnected = false) (hl : n.readQueue.length ≤ 1)

theorem Became.refl (hj : sw.msgs j = some m) : Became sw ev m :=
  .changed j m hj rfl id rfl Or.inl le_rfl

/-- An object changed without a packet. -/
theorem Turn.became {L B : Prop} {R : List MsgResp} (hj : sw.msgs j = some m)
    (t : Turn L B sw sw' j m n R none) : Became sw ev n :=
  .changed j m hj (Msg.ptr_eq_iff.1 t.ptr).1 t.sent t.disc t.mark t.length

/-- One slot was written. -/
theorem Became.update {o : Option Msg} (hm : sw'.msgs = Function.update sw.msgs j o)
    (hi : sw'.msgs i = some n) (ho : ∀ m, o = some m → Became sw ev m) : Became sw ev n := by
  rw [hm] at hi
  rcases update_some hi with ⟨-, he⟩ | ⟨-, hi⟩
  · exact ho n he
  · exact Became.refl hi

/-- **Every object of an endpoint after a step.** -/
theorem step_became (h : SwOK strong sw) (hs : sw.step ev = .ok sw') (hi : sw'.msgs i = some n) :
    Became sw ev n := by
  cases ev with
  | call op =>
    obtain ⟨⟨sw₁, ret⟩, h₁, h₂⟩ := bind_ok hs
    cases h₂
    cases call_eff (S := True) (H := True) h h₁ with
    | idle _ he _ => rw [show sw' = sw from he] at hi; exact Became.refl hi
    | turn j m m' R hop hj t _ =>
      exact Became.update t.only.msgs hi fun m hm => by cases hm; exact t.became hj
    | freed j m hop hj c _ => exact Became.update c.msgs hi fun m hm => (by cases hm)
    | opened j type hop hret c =>
      exact Became.update c.msgs hi fun m hm => by cases hm; exact .fresh rfl rfl (Nat.zero_le _)
  | writeReady =>
    simp only [MsgSwitch.step] at hs
    split_ifs at hs
    swap
    · cases hs; exact Became.refl hi
    obtain ⟨⟨sw₁, frame⟩, h₁, h₂⟩ := bind_ok hs
    cases h₂
    rcases msgSwitchWrite_cases h.slots h₁ with
      ⟨r, rest, -, -, rfl⟩ | ⟨m, p, rest, tail, sw₂, -, -, hj, -, -, rfl, o⟩
    · rw [(MsgSwitch.disarm_eq _).1] at hi; exact Became.refl hi
    · have hm : sw₂.disarm.msgs = Function.update sw.msgs m.msgid (some (m.popWrit rest)) := by
        rw [(MsgSwitch.disarm_eq _).1]; exact o.msgs
      exact Became.update hm hi fun m' hm' => by
        cases hm'; exact .changed m.msgid m hj rfl id rfl Or.inl le_rfl
  | recv frame =>
    cases dispatch_eff (S := True) (H := True) h hs with
    | dropped resp hf hg he => rw [he] at hi; exact Became.refl hi
    | ignored resp m hf hg hr hs he => rw [he] at hi; exact Became.refl hi
    | acked resp m m' R hf hg hr hs hw t _ =>
      exact Became.update t.only.msgs hi fun m hm => by cases hm; exact t.became (h.get_slot hg)
    | answered resp m m' hf hg hr hns a =>
      subst hf
      exact Became.update a.msgs hi fun n hn => by
        cases hn
        exact .answered resp m rfl hr hg hns (Msg.ptr_eq_iff.1 a.ptr).1 (a.ok.disc a.disc).1 a.closed
          a.reads
    | freed resp m hf hg hr hs c => exact Became.update c.msgs hi fun m hm => (by cases hm)
    | data p m m' R hf hg t _ =>
      subst hf
      exact Became.update t.only.msgs hi fun n hn => by
        cases hn
        exact .received p m rfl hg (Msg.ptr_eq_iff.1 t.ptr).1 t.sent t.disc t.mark t.length
    | born p sw₁ j m' R hf hg hneg c t _ =>
      have hm : sw'.msgs = Function.update sw.msgs j (some m') := by
        rw [t.only.msgs, c.msgs, Function.update_idem]
      exact Became.update hm hi fun n hn => by
        cases hn; exact .fresh (Msg.ptr_eq_iff.1 t.ptr).1 t.disc t.length

/-- A step of the net is a step of at most one endpoint. -/
theorem Net.step_ep {σ σ' : Net} {a : Act} (hs : σ.step a = .ok σ') (t : Side) :
    σ'.ep t = σ.ep t ∨ ∃ ev, (σ.ep t).step ev = .ok (σ'.ep t) ∧
      ∀ f, ev = .recv f → a = .readReady t ∧ ∃ rest, σ.chan t.other = f :: rest := by
  cases a with
  | call s op =>
    revert t
    obtain ⟨⟨sw, ret⟩, h₁, hc⟩ := bind_ok hs
    have hep : σ'.ep = (σ.setEp s sw).ep := by
      simp only at hc
      split at hc
      · cases hc; rfl
      · cases hc; rfl
      · split at hc <;> · cases hc; rfl
    rw [hep]
    refine Side.forall_of s (Or.inr ⟨.call op, ?_, (by simp)⟩) (Or.inl (by simp))
    rw [MsgSwitch.step, h₁, Net.setEp_ep]; rfl
  | writeReady s =>
    simp only [Net.step, Net.writeReady] at hs
    split_ifs at hs with harm
    swap
    · cases hs; exact Or.inl rfl
    obtain ⟨⟨sw, frame⟩, h₁, hc⟩ := bind_ok hs
    cases hc
    revert t
    refine Side.forall_of s (Or.inr ⟨.writeReady, ?_, (by simp)⟩) (Or.inl (by simp))
    rw [MsgSwitch.step, if_pos harm, h₁]
    simp [bind, Except.bind, pure, Except.pure]
  | readReady s =>
    simp only [Net.step, Net.readReady] at hs
    split at hs
    · cases hs; exact Or.inl rfl
    · rename_i f rest hch
      obtain ⟨sw, h₁, hc⟩ := bind_ok hs
      have hep : σ'.ep = (σ.setEp s sw).ep := by
        split_ifs at hc <;> · cases hc; rfl
      revert t
      rw [hep]
      refine Side.forall_of s (Or.inr ⟨.recv f, ?_, fun g hg => ?_⟩) (Or.inl (by simp))
      · rw [MsgSwitch.step, h₁, Net.setEp_ep]
      · cases hg; exact ⟨rfl, rest, hch⟩

end Zimr
