import Zimr.Proof.Events

/-!
# Where an endpoint can stop

Of the asserts of the source two are about what the peer does: `WAITING_FOR_RESP` in
`msg_recv_resp` and the sign of the id in `msg_switch_read`. A call stops at neither, nor
does a write event.

* `SwOK.call_fault`, `SwOK.write_fault`, `SwOK.dispatch_fault`
-/

namespace Zimr

variable {sw : MsgSwitch} {j : ℕ} {m : Msg} {strong : Prop} {op : Op} {e : Fault} {frame : Frame}

theorem bind_error {α β : Type} {x : Except Fault α} {f : α → Except Fault β}
    (h : (x >>= f) = .error e) : x = .error e ∨ ∃ a, x = .ok a ∧ f a = .error e := by
  cases x with
  | error e' => cases h; exact Or.inl rfl
  | ok a => exact Or.inr ⟨a, rfl, h⟩

/-- A call that has its msg goes through. -/
theorem SwOK.call_ok (h : SwOK strong sw) (hop : op.msgid = some j) (hj : sw.msgs j = some m) :
    ∃ r, sw.call op = .ok r := by
  have hm := h.slots.ok _ _ hj
  cases op with
  | «open» type => cases hop
  | accept i =>
    cases hop
    rcases msgAccept_turn (L := False) (B := False) hj hm with
      ⟨e, h₁⟩ | ⟨-, -, sw₁, e, h₁, -⟩ | ⟨sw₁, m', h₁, -⟩ <;>
      exact ⟨_, by rw [MsgSwitch.call, h₁]; rfl⟩
  | write i buf =>
    cases hop
    rcases msgWrite_moves (S := False) (H := False) hj hm buf with
      ⟨e, h₁⟩ | ⟨sw₁, m', Q, h₁, -⟩ <;> exact ⟨_, by rw [MsgSwitch.call, h₁]; rfl⟩
  | flush i =>
    cases hop
    obtain ⟨sw₁, m', ret, h₁, -⟩ := msgFlush_moves (S := False) (H := False) hj hm
    exact ⟨_, by rw [MsgSwitch.call, h₁]; rfl⟩
  | read i size =>
    cases hop
    obtain ⟨sw₁, ret, h₁, -⟩ := msgRead_moves (S := False) (H := False) hj hm size
    exact ⟨_, by rw [MsgSwitch.call, h₁]; rfl⟩
  | close i =>
    cases hop
    rcases msgClose_turn (S := False) (H := False) (L := False) (B := False) hj hm
      h.conn with ⟨-, h₁⟩ | ⟨-, -, sw₁, h₁, -⟩ | ⟨-, -, sw₁, m', R, h₁, -⟩ <;>
      exact ⟨_, by rw [MsgSwitch.call, h₁]; rfl⟩
  | setRead i =>
    cases hop
    obtain ⟨sw', h', -⟩ := msgSetRead_only hj
    exact ⟨_, by rw [MsgSwitch.call, h']; rfl⟩
  | clrRead i =>
    cases hop
    obtain ⟨sw', h', -⟩ := msgClrRead_only hj
    exact ⟨_, by rw [MsgSwitch.call, h']; rfl⟩
  | setWrite i =>
    cases hop
    obtain ⟨sw', h', -⟩ := msgSetWrite_only hj
    exact ⟨_, by rw [MsgSwitch.call, h']; rfl⟩
  | clrWrite i =>
    cases hop
    obtain ⟨sw', h', -⟩ := msgClrWrite_only hj
    exact ⟨_, by rw [MsgSwitch.call, h']; rfl⟩

/-- **Where a call stops**: at a slot that is empty, or with every slot taken. -/
theorem SwOK.call_fault (h : SwOK strong sw) (hc : sw.call op = .error e) :
    e = .outOfBounds ∨ e = .noMsg := by
  cases hop : op.msgid with
  | none =>
    cases op with
    | «open» type =>
      rcases msgOpen_cases sw type with h₁ | ⟨sw₁, j, h₁, -⟩
      · rw [MsgSwitch.call, h₁] at hc; cases hc; exact Or.inl rfl
      · rw [MsgSwitch.call, h₁] at hc; cases hc
    | _ => cases hop
  | some j =>
    cases hj : sw.msgs j with
    | some m =>
      obtain ⟨r, hr⟩ := h.call_ok hop hj
      rw [hr] at hc; cases hc
    | none =>
      cases op with
      | «open» type => cases hop
      | setRead i | clrRead i | setWrite i | clrWrite i =>
        cases hop
        simp only [MsgSwitch.call, msgSetRead, msgClrRead, msgSetWrite, msgClrWrite,
          MsgSwitch.assertMsg, hj, bind, Except.bind] at hc
        cases hc; exact Or.inr rfl
      | _ =>
        cases hop
        simp only [MsgSwitch.call, msgAccept, msgWrite, msgFlush, msgRead, msgClose, hj, bind,
          Except.bind, pure, Except.pure] at hc
        cases hc

/-- **Where a write event stops.** -/
theorem SwOK.write_fault (h : SwOK strong sw) (hc : msgSwitchWrite sw = .error e) :
    e = .nullDeref ∨ e = .useAfterFree := by
  cases hr : sw.pendingResps with
  | cons r rest => rw [msgSwitchWrite_resp hr] at hc; cases hc
  | nil =>
    -- no answer is waiting: the entry of `pending_msgs` is followed without a test
    simp only [msgSwitchWrite, hr] at hc
    rcases bind_error hc with hc | ⟨a, -, ha⟩
    swap
    · cases ha
    rcases bind_error hc with hc | ⟨a, -, ha⟩
    swap
    · cases ha
    unfold msgSwitchPopWritPacket at hc
    rcases hp : sw.pendingMsgs with _ | ⟨ptr, tail⟩
    · rw [hp] at hc; cases hc; exact Or.inl rfl
    rcases hm : sw.msgs ptr.msgid with _ | m
    · simp only [hp, hm] at hc; cases hc; exact Or.inr rfl
    simp only [hp, hm] at hc
    split_ifs at hc
    · cases hq : m.writQueue with
      | nil =>
        simp only [msgPopWritPacket, MsgSwitch.assertMsg, hm, hq, bind, Except.bind] at hc
        cases hc; exact Or.inl rfl
      | cons p rest =>
        have hm' : ({ sw with pendingMsgs := tail } : MsgSwitch).msgs _ = some _ := hm
        obtain ⟨sw', h', -⟩ := msgPopWritPacket_spec hm' (h.slots.ok _ _ hm) hq
        rw [h'] at hc; cases hc
    · cases hc; exact Or.inr rfl

/-- **Where a frame stops the endpoint.** -/
theorem SwOK.dispatch_fault (h : SwOK strong sw) (hc : msgSwitchDispatch sw frame = .error e) :
    (e = .notWaiting ∧ ∃ resp m, frame = .resp resp ∧ resp.status = .ok ∧
      msgGet sw resp.msgid = some m ∧ m.status.sentDisconnect = false ∧
      m.status.waitingForResp = false) ∨
    (e = .badMsgid ∧ ∃ p, frame = .pack p ∧ msgGet sw p.msgid = none ∧ 0 ≤ p.msgid) ∨
    (e = .outOfBounds ∧ ∃ p, frame = .pack p ∧ p.msgid < 0 ∧
      (fdSetSize ≤ p.msgid.natAbs ∨ msgCreate sw p.type = .error .outOfBounds)) := by
  cases frame with
  | resp resp =>
    cases hg : msgGet sw resp.msgid with
    | none => simp only [msgSwitchDispatch, hg] at hc; cases hc
    | some m =>
      have hj := h.get_slot hg
      have hm := h.slots.ok _ _ hj
      simp only [msgSwitchDispatch, hg] at hc
      -- a `DISCON` is answered or frees the msg; only an `OK` meets the assertion
      cases hr : resp.status with
      | discon =>
        cases hs : m.status.sentDisconnect with
        | false =>
          obtain ⟨sw₁, m', h₁, -⟩ := msgRecvResp_discon_answers hj hm hr hs
          rw [h₁] at hc; cases hc
        | true =>
          obtain ⟨sw₁, h₁, -⟩ := msgFree_clears hj
          simp only [msgRecvResp, MsgSwitch.assertMsg, hj, hr, bind, Except.bind] at hc
          rw [if_neg (by simp [hs]), h₁] at hc
          cases hc
      | ok =>
        cases hs : m.status.sentDisconnect with
        | true =>
          simp only [msgRecvResp, MsgSwitch.assertMsg, hj, hr, bind, Except.bind] at hc
          rw [if_pos hs] at hc
          cases hc
        | false =>
          cases hw : m.status.waitingForResp with
          | false =>
            simp only [msgRecvResp, MsgSwitch.assertMsg, hj, hr, bind, Except.bind] at hc
            rw [if_neg (by simp [hs]), if_pos (by simp [hw])] at hc
            cases hc
            exact Or.inl ⟨rfl, resp, m, rfl, hr, hg, hs, hw⟩
          | true =>
            obtain ⟨sw₁, m', R, h₁, -⟩ := msgRecvResp_ok_turn (S := False) (H := False)
              (L := False) (B := True) hj hm hr hs hw fun _ _ _ _ _ => trivial
            rw [h₁] at hc; cases hc
  | pack p =>
    cases hg : msgGet sw p.msgid with
    | some m =>
      obtain ⟨sw₁, h₁, -⟩ := msgPushReadPacket_turn (S := False) (H := False)
        (L := False) (B := False) (h.get_slot hg) (h.slots.ok _ _ (h.get_slot hg)) p
      simp only [msgSwitchDispatch, hg] at hc
      rw [h₁] at hc; cases hc
    | none =>
      -- a new msg: its id has to be the peer's, and there has to be a slot
      rcases dispatch_new_cases hg with ⟨hpos, he⟩ | ⟨hneg, he, hwhy⟩ | ⟨-, sw₁, j, hrun, c⟩
      · rw [he] at hc; cases hc
        exact Or.inr (Or.inl ⟨rfl, p, rfl, hg, hpos⟩)
      · rw [he] at hc; cases hc
        exact Or.inr (Or.inr ⟨rfl, p, rfl, hneg, hwhy⟩)
      · rw [hrun] at hc
        have hj : sw₁.msgs j = some (.fresh sw.nextAddr j p.type false p.msgid.natAbs) := by
          rw [c.msgs]; simp
        obtain ⟨sw₂, h₂, -⟩ := msgPushReadPacket_turn (S := False) (H := False)
          (L := False) (B := False) hj (MsgOK.fresh _ _ _ _ _) p
        rw [h₂] at hc; cases hc

/-! ## Of the two -/

variable {σ : Net} {a : Act}

/-- **Where a step of the system stops.** -/
theorem Net.step_fault (h : ∀ s, SwOK strong (σ.ep s)) (hs : σ.step a = .error e) :
    (e = .notWaiting ∧ ∃ s resp rest m, a = .readReady s ∧ σ.chan s.other = .resp resp :: rest ∧
      resp.status = .ok ∧ msgGet (σ.ep s) resp.msgid = some m ∧
      m.status.sentDisconnect = false ∧ m.status.waitingForResp = false) ∨
    (e = .badMsgid ∧ ∃ s p rest, a = .readReady s ∧ σ.chan s.other = .pack p :: rest ∧
      msgGet (σ.ep s) p.msgid = none ∧ 0 ≤ p.msgid) ∨
    (e ≠ .notWaiting ∧ e ≠ .badMsgid) := by
  cases a with
  | call s op =>
    refine Or.inr (Or.inr ?_)
    rcases bind_error hs with hc | ⟨⟨sw, ret⟩, -, hc⟩
    · rcases (h s).call_fault hc with rfl | rfl <;> simp
    · simp only at hc
      split at hc
      · cases hc
      · cases hc
      · split at hc <;> cases hc
  | writeReady s =>
    refine Or.inr (Or.inr ?_)
    simp only [Net.step, Net.writeReady] at hs
    split_ifs at hs
    rcases bind_error hs with hc | ⟨a, -, ha⟩
    · rcases (h s).write_fault hc with rfl | rfl <;> simp
    · cases ha
  | readReady s =>
    cases hch : σ.chan s.other with
    | nil => simp only [Net.step, Net.readReady, hch] at hs; cases hs
    | cons f rest =>
      simp only [Net.step, Net.readReady, hch] at hs
      rcases bind_error hs with hc | ⟨sw, -, hc⟩
      · rcases (h s).dispatch_fault hc with ⟨rfl, resp, m, rfl, hr, hg, hsd, hw⟩ |
          ⟨rfl, p, rfl, hg, hpos⟩ | ⟨rfl, -⟩
        · exact Or.inl ⟨rfl, s, resp, rest, m, rfl, hch, hr, hg, hsd, hw⟩
        · exact Or.inr (Or.inl ⟨rfl, s, p, rest, rfl, hch, hg, hpos⟩)
        · exact Or.inr (Or.inr (by simp))
      · split_ifs at hc <;> cases hc

end Zimr
