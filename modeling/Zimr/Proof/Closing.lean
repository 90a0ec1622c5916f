import Zimr.Proof.Discon
import Zimr.Proof.Stream

/-!
# The end of a msg

When both ends are closed and nothing is under way, both objects are released
(`closed_reclaimed`), unless a disconnect has come to an end that was closed and still had
packets to write (`closed_kept`). A read that returns nothing means that the peer has closed
and everything has been read (`eof_means_closed`), unless an empty packet was queued by a msg
that is not closed (`eof_of_open`).
-/

namespace Zimr

open Link (Item Half Stage)

variable {σ σ' : Net} {s : Side} {j x y : ℕ} {m n : Msg} {str dns : Bool} {a : Act}

/-! ## Release -/

/-- Nothing is queued or in flight. -/
def Net.Quiescent (σ : Net) : Prop :=
  ∀ s, σ.chan s = [] ∧ (σ.ep s).pendingResps = [] ∧ (σ.ep s).pendingMsgs = []

theorem Net.quiescent_iff : σ.Quiescent ↔
    (σ.chan .a = [] ∧ (σ.ep .a).pendingResps = [] ∧ (σ.ep .a).pendingMsgs = []) ∧
      (σ.chan .b = [] ∧ (σ.ep .b).pendingResps = [] ∧ (σ.ep .b).pendingMsgs = []) :=
  ⟨fun h => ⟨h .a, h .b⟩, fun h s => by cases s; exacts [h.1, h.2]⟩

instance : Decidable σ.Quiescent := decidable_of_iff' _ Net.quiescent_iff

/-- No slot holds the object `x`, and every entry of `imsgid_map` points to another one. -/
def MsgSwitch.Released (sw : MsgSwitch) (x : ℕ) : Prop :=
  (∀ j m, sw.msgs j = some m → m.addr ≠ x) ∧
    ∀ k, sw.imsgidMap k ≠ 0 → ∃ n, sw.msgs (sw.imsgidMap k) = some n ∧ n.addr ≠ x

/-- No msg is both closed and disconnected. -/
def Net.Uncrossed (σ : Net) : Prop :=
  ∀ s j m, (σ.ep s).msgs j = some m → m.status.closed = true → m.status.disconnected = false

theorem NetOK.uncrossed_step (h : NetOK str dns σ) (hn : σ.Uncrossed)
    (hX : σ.crossesClose a = false) (hs : σ.step a = .ok σ') : σ'.Uncrossed := by
  intro t j n hj hc
  rcases Net.step_ep hs t with he | ⟨ev, hev, hrecv⟩
  · rw [he] at hj; exact hn t j n hj hc
  · cases step_became (h.sw t) hev hj with
    | changed i m hi _ _ hd hcm _ =>
      rw [hd]; exact (hcm hc).elim (hn t i m hi) id
    | received p m _ hg _ _ hd hcm _ =>
      rw [hd]; exact (hcm hc).elim (hn t _ m ((h.sw t).get_slot hg)) id
    | answered r m hev' hr hg hns _ _ hcm _ =>
      -- a closed msg that the disconnect reaches before it has sent its own
      obtain ⟨rfl, rest, hch⟩ := hrecv _ hev'
      rw [hc] at hcm
      simp [Net.crossesClose, Net.next, hch, MsgSwitch.crossesClose, hg, hr, hns, ← hcm] at hX
    | fresh _ hd _ => exact hd

theorem Net.Quiescent.out (hq : σ.Quiescent) (str : Bool) (s : Side) (x : ℕ) : (σ.half str s x).out = [] := by
  change outOf (σ.wire s) x = []
  rw [Net.wire, (hq s).1, (hq s).2.1]; rfl

/-- A closed end whose other end is closed too, with nothing under way, is gone. -/
theorem NetOK.gone_of_closed (h : NetOK str dns σ) (hn : σ.Uncrossed) (hq : σ.Quiescent)
    (hx : x < σ.made s) (hp : σ.peer s x = some y) (hc : (σ.log s x).closed = true)
    (hc' : (σ.log s.other y).closed = true) : ∀ j m, (σ.ep s).msgs j = some m → m.addr ≠ x := by
  rintro j m hj rfl
  have hm := (h.sw s).slots.ok _ _ hj
  have hinv := (h.sound hx hp).inv
  have hst := h.stage_live hj
  have hcl : m.status.closed = true := (hinv.endx.closed_clo m.view hst).2 hc
  have hd := hn s j m hj hcl
  obtain ⟨hy, hpy⟩ := h.mutual s m.addr y hx hp
  have hout := hq.out str s m.addr
  have hout' := hq.out str s.other y
  cases hs : m.status.sentDisconnect with
  | true =>
    -- the other end has answered: its answer would be on the way
    have hnone : ¬ (σ.half str s.other y).Sent := fun hse => by
      have := (hinv.shake'.pending m.view hst hd).2 hse
      rw [hout'] at this; cases this
    have hsent : (σ.half str s m.addr).Sent := Or.inr ⟨m.view, hst, hs⟩
    rcases MsgSwitch.stage_cases (h.sw s.other).slots y with ⟨i, n, hi, rfl, hstn⟩ | ⟨-, hg⟩
    · cases hdn : n.status.disconnected with
      | true => exact hnone (Or.inr ⟨n.view, hstn, (((h.sw s.other).slots.ok _ _ hi).disc hdn).1⟩)
      | false =>
        have := (hinv.shake.pending n.view hstn hdn).2 hsent
        rw [hout] at this; cases this
    · exact hnone (Or.inl hg)
  | false =>
    -- it waits for an acknowledgement that a closed end would have sent
    have hw : m.status.waitingForResp = true := by
      rcases hm.closing hcl hs with hwq | hw
      · rcases hm.queued hwq with hwr | hw
        · have := (h.sw s).pend.writing j m hj hwr
          rw [(hq s).2.2] at this; cases this
        · exact hw
      · exact hw
    have ht := hinv.waits m.view hst hs
    have hone : m.view.waiting.toNat = 1 := by
      change m.status.waitingForResp.toNat = 1
      rw [hw]; rfl
    unfold Link.tokens at ht
    rw [hone, hout, hout'] at ht
    simp only [List.countP_nil] at ht
    rcases MsgSwitch.stage_cases (h.sw s.other).slots y with ⟨i, n, hi, rfl, hstn⟩ | ⟨-, hg⟩
    · have hn' := (h.sw s.other).slots.ok _ _ hi
      rw [h.owes hi] at ht
      have hneed : n.status.needToSendResp = true := by
        cases hneed : n.status.needToSendResp with
        | true => rfl
        | false => rw [hneed] at ht; simp at ht
      have hcn : n.status.closed = true := (hinv.endy.closed_clo n.view hstn).2 hc'
      have hdn := hn s.other i n hi hcn
      have hsp := hn'.space hdn
      rw [hn'.need hneed hdn, hn'.closed_read hcn] at hsp
      simp [msgNBuffPacketsAllowed] at hsp
    · unfold Link.Half.owes at ht
      rw [show (σ.half str s.other y).stage = _ from hg] at ht
      exact absurd ht (by decide)

theorem NetOK.released (h : NetOK str dns σ)
    (hx : ∀ j m, (σ.ep s).msgs j = some m → m.addr ≠ x) : (σ.ep s).Released x :=
  ⟨hx, fun k hk => by
    obtain ⟨n, hn, -⟩ := (h.sw s).maps.target k hk
    exact ⟨n, hn, hx _ n hn⟩⟩

/-- **Closed msgs are reclaimed**, in every run in which no flush is late and no disconnect
comes to a msg that is closed and has not sent its own. -/
theorem closed_reclaimed (acts : List Act) (σ : Net)
    (hC : Run.Along Net.step (fun σ a => σ.flushesLate a = false ∧ σ.crossesClose a = false)
      Net.init acts)
    (hr : Run.run Net.step Net.init acts = .ok σ) (hq : σ.Quiescent) (s : Side) (x y : ℕ)
    (hx : x < σ.made s) (hp : σ.peer s x = some y) (hc : (σ.log s x).closed = true)
    (hc' : (σ.log s.other y).closed = true) :
    (σ.ep s).Released x ∧ (σ.ep s.other).Released y := by
  obtain ⟨h, hn⟩ := Run.run_inv (I := fun σ => NetOK false false σ ∧ σ.Uncrossed)
    (fun σ a σ' h hc hs => ⟨h.1.step hc.1 (fun h => (by cases h)) (fun h => (by cases h)) hs,
      h.1.uncrossed_step h.2 hc.2 hs⟩) acts _ _
    ⟨NetOK.init false false, fun s j m h => by simp [Net.init, msgSwitchCreate] at h⟩ hC hr
  obtain ⟨hy, hpy⟩ := h.mutual s x y hx hp
  refine ⟨h.released (h.gone_of_closed hn hq hx hp hc hc'), h.released ?_⟩
  exact h.gone_of_closed hn hq hy hpy hc' (by rw [Side.other_other]; exact hc)

/-- Both ends close a msg that each has written to. -/
def bothClosed : List Act :=
  [.call .a (.open 7), .call .a (.write 1 [1]), .call .a (.flush 1), .writeReady .a, .readReady .b,
    .call .b (.write 1 [2]), .call .b (.close 1), .writeReady .b, .readReady .a, .writeReady .b,
    .readReady .a, .writeReady .a, .readReady .b, .writeReady .b, .readReady .a, .writeReady .a,
    .readReady .b, .call .a (.close 1)]

theorem closed_reclaimed_bothClosed :
    ∃ σ, Run.run Net.step Net.init bothClosed = .ok σ ∧ σ.Quiescent ∧
      (σ.log .a 0).closed = true ∧ (σ.log .b 0).closed = true ∧
      (σ.ep .a).Released 0 ∧ (σ.ep .b).Released 0 := by
  obtain ⟨σ, h⟩ : ∃ σ, Run.run Net.step Net.init bothClosed = .ok σ := ⟨_, rfl⟩
  have hp : (Run.run Net.step Net.init bothClosed).toOption.map (fun σ =>
      (decide σ.Quiescent, σ.made .a, σ.peer .a 0, (σ.log .a 0).closed, (σ.log .b 0).closed)) =
      some (true, 1, some 0, true, true) := by decide
  rw [h] at hp
  simp only [Except.toOption, Option.map_some, Option.some.injEq, Prod.mk.injEq,
    decide_eq_true_eq] at hp
  obtain ⟨hq, hmade, hpeer, hla, hlb⟩ := hp
  exact ⟨σ, h, hq, hla, hlb, closed_reclaimed bothClosed σ (by decide) h hq .a 0 0
    (by rw [hmade]; exact Nat.one_pos) hpeer hla hlb⟩

/-- `b` closes with a packet to write; the disconnect of `a` comes before the packet is
written. -/
def closesCrossed : List Act :=
  [.call .a (.open 7), .call .a (.write 1 [1]), .call .a (.flush 1), .writeReady .a, .readReady .b,
    .call .b (.write 1 [2]), .writeReady .b, .readReady .a, .call .b (.close 1), .call .a (.close 1),
    .writeReady .a, .readReady .b, .writeReady .b, .readReady .a]

/-- **The law fails**: `b` answers the disconnect and keeps the msg, closed for ever. -/
theorem closed_kept :
    ∃ σ, Run.run Net.step Net.init closesCrossed = .ok σ ∧ σ.Quiescent ∧
      0 < σ.made .a ∧ σ.peer .a 0 = some 0 ∧ (σ.log .a 0).closed = true ∧
      (σ.log .b 0).closed = true ∧ ¬ (σ.ep .b).Released 0 := by
  obtain ⟨σ, h⟩ : ∃ σ, Run.run Net.step Net.init closesCrossed = .ok σ := ⟨_, rfl⟩
  have hp : (Run.run Net.step Net.init closesCrossed).toOption.map (fun σ =>
      (decide σ.Quiescent, σ.made .a, σ.peer .a 0, (σ.log .a 0).closed, (σ.log .b 0).closed,
        ((σ.ep .b).msgs 1).map (·.addr))) =
      some (true, 1, some 0, true, true, some 0) := by decide
  rw [h] at hp
  simp only [Except.toOption, Option.map_some, Option.some.injEq, Prod.mk.injEq,
    decide_eq_true_eq] at hp
  obtain ⟨hq, hmade, hpeer, hla, hlb, hm⟩ := hp
  obtain ⟨m, hj, hm⟩ := Option.map_eq_some_iff.1 hm
  exact ⟨σ, h, hq, by rw [hmade]; exact Nat.one_pos, hpeer, hla, hlb, fun hr => hr.1 1 m hj hm⟩

/-! ## End of file -/

/-- The peer of a msg that has read something, or seen a disconnect. -/
theorem NetOK.peer_of_read (h : NetOK str dns σ) (hj : (σ.ep s).msgs j = some m)
    (hr : m.status.disconnected = true ∨ m.view.hollow = true) : σ.peer s m.addr ≠ none := by
  intro hp
  have hx := (h.sw s).slots.addr _ _ hj
  rcases (h.sound_unborn hx hp).inv.shake.alone rfl with ⟨hg, -⟩ | ⟨e, he, hd, -, -, hh, -⟩
  · rw [h.stage_live hj] at hg; cases hg
  · rw [h.stage_live hj] at he
    cases he
    rcases hr with hr | hr
    · rw [show m.status.disconnected = _ from hd] at hr; cases hr
    · rw [hh] at hr; cases hr

/-- A read that returns nothing. -/
theorem NetOK.eof {size : ℕ} {sw : MsgSwitch} (h : NetOK str true σ)
    (hj : (σ.ep s).msgs j = some m) (hsize : size ≠ 0)
    (hr : msgRead (σ.ep s) j size = .ok (sw, .ok [])) :
    ∃ y, σ.peer s m.addr = some y ∧ (σ.log s.other y).closed = true ∧
      (σ.log s m.addr).got = (σ.log s.other y).accepted := by
  have hm := (h.sw s).slots.ok _ _ hj
  have hx := (h.sw s).slots.addr _ _ hj
  have hst := h.stage_live hj
  obtain ⟨sw₁, ret, h₁, ⟨e, rfl, rfl⟩ | ⟨m', R, bs, rfl, -, hc, hnil⟩⟩ :=
    msgRead_moves (S := True) (H := True) hj hm size
  · rw [h₁] at hr; cases hr
  rw [h₁] at hr
  cases hr
  have hq := hnil hsize rfl
  -- nothing is left to read
  have hunread : m.view.unread = [] := by
    rw [Msg.view_unread hc, Msg.unread]
    rcases hq with ⟨-, hq⟩ | ⟨-, hq⟩
    · rw [hq]; exact List.drop_nil
    · rw [List.flatten_eq_nil_iff.2 fun l hl => ?_]
      · exact List.drop_nil
      · obtain ⟨p, hp, rfl⟩ := List.mem_map.1 hl
        exact hq p hp
  have hopen : m.status.disconnected = true ∨ m.view.hollow = true := by
    rcases hq with ⟨hd, -⟩ | ⟨hne, hq⟩
    · exact Or.inl hd
    · obtain ⟨p, rest, hpr⟩ := List.exists_cons_of_ne_nil hne
      refine Or.inr ?_
      have := hq p (by rw [hpr]; exact List.mem_cons_self)
      simp [Msg.view, hpr, this]
  obtain ⟨y, hp⟩ := Option.ne_none_iff_exists'.1 (h.peer_of_read hj hopen)
  have hs := h.sound hx hp
  cases hd : m.status.disconnected with
  | true =>
    obtain ⟨hacc, hclo⟩ := hs.inv.flow'.ended m.view hst hc hd
    rw [hunread, List.append_nil] at hacc
    exact ⟨y, hp, hclo, hacc.symm⟩
  | false =>
    have hh := hopen.resolve_left (by simp [hd])
    -- the peer lives, and has sent everything
    obtain ⟨hy, -⟩ := h.mutual s m.addr y hx hp
    have hborn : (σ.half str s.other y).stage ≠ .unborn := by
      rcases MsgSwitch.stage_cases (h.sw s.other).slots y with ⟨i, n, -, -, hi⟩ | ⟨-, hi⟩
      · rw [show (σ.half str s.other y).stage = _ from hi]; simp
      · rw [show (σ.half str s.other y).stage = _ from hi]; simp
    obtain ⟨e, he, hde, hacc⟩ := hs.inv.flow'.stream m.view hst hc hd hborn
    obtain ⟨hce, hue, hdata⟩ := (hs.dense (by simp)).2.unread e m.view he hde hst hh hc hd
    have hbytes : (((σ.half str s.other y).out.map Item.bytes).flatten : List UInt8) = [] := by
      rw [List.flatten_eq_nil_iff]
      intro l hl
      obtain ⟨i, hi, rfl⟩ := List.mem_map.1 hl
      have := hdata i hi
      cases i with
      | data bs => cases this
      | ok => rfl
      | discon => rfl
    rw [hunread, hbytes, hue] at hacc
    refine ⟨y, hp, (hs.inv.endy.closed_clo e he).1 hce, ?_⟩
    rw [List.flatten_nil, List.append_nil, List.append_nil, List.append_nil] at hacc
    exact hacc.symm

/-- **End of file means end of file**, in every run in which no flush is late and no msg that
is not closed queues an empty packet. -/
theorem eof_means_closed (acts : List Act) (σ : Net)
    (hC : Run.Along Net.step (fun σ a => σ.flushesLate a = false ∧ σ.queuesBlank a = false)
      Net.init acts)
    (hr : Run.run Net.step Net.init acts = .ok σ) (s : Side) (j : ℕ) (m : Msg) (size : ℕ)
    (sw : MsgSwitch) (hj : (σ.ep s).msgs j = some m) (hsize : 1 ≤ size)
    (hread : msgRead (σ.ep s) j size = .ok (sw, .ok [])) :
    ∃ y, σ.peer s m.addr = some y ∧ (σ.log s.other y).closed = true ∧
      (σ.log s m.addr).got = (σ.log s.other y).accepted := by
  have h : NetOK false true σ := NetOK.run (hC.mono fun _ _ hc =>
    ⟨hc.1, fun hd => (by cases hd), fun _ => hc.2⟩) hr
  exact h.eof hj (by omega) hread

/-- `a` writes, closes, and `b` reads everything. -/
def readToTheEnd : List Act :=
  [.call .a (.open 7), .call .a (.write 1 [1, 2]), .call .a (.close 1), .writeReady .a,
    .readReady .b, .call .b (.read 1 8), .writeReady .b, .readReady .a, .writeReady .a,
    .readReady .b]

theorem eof_means_closed_readToTheEnd :
    ∃ σ m sw, Run.run Net.step Net.init readToTheEnd = .ok σ ∧ (σ.ep .b).msgs 1 = some m ∧
      msgRead (σ.ep .b) 1 8 = .ok (sw, .ok []) ∧
      ∃ y, σ.peer .b m.addr = some y ∧ (σ.log .a y).closed = true ∧
        (σ.log .b m.addr).got = (σ.log .a y).accepted := by
  obtain ⟨σ, h⟩ : ∃ σ, Run.run Net.step Net.init readToTheEnd = .ok σ := ⟨_, rfl⟩
  have hp : (Run.run Net.step Net.init readToTheEnd).toOption.map (fun σ =>
      (((σ.ep .b).msgs 1).isSome, (msgRead (σ.ep .b) 1 8).toOption.bind fun r => r.2.toOption)) =
      some (true, some []) := by decide
  rw [h] at hp
  simp only [Except.toOption, Option.map_some, Option.some.injEq, Prod.mk.injEq] at hp
  obtain ⟨m, hm⟩ := Option.isSome_iff_exists.1 hp.1
  cases hr : msgRead (σ.ep .b) 1 8 with
  | error e => rw [hr] at hp; cases hp.2
  | ok q =>
    obtain ⟨sw, r⟩ := q
    rw [hr] at hp
    cases r with
    | error e => cases hp.2
    | ok bs =>
      cases hp.2
      exact ⟨σ, m, sw, h, hm, hr, eof_means_closed readToTheEnd σ (by decide) h .b 1 m 8 sw hm
        (by decide) hr⟩

/-- `a` flushes a write of no bytes. -/
def emptyWrite : List Act :=
  [.call .a (.open 7), .call .a (.write 1 []), .call .a (.flush 1), .writeReady .a, .readReady .b]

/-- **The law fails**: the read returns 0 and the peer has not closed. -/
theorem eof_of_open :
    ∃ σ m sw, Run.run Net.step Net.init emptyWrite = .ok σ ∧ (σ.ep .b).msgs 1 = some m ∧
      msgRead (σ.ep .b) 1 8 = .ok (sw, .ok []) ∧ σ.peer .b m.addr = some 0 ∧
      (σ.log .a 0).closed = false := by
  obtain ⟨σ, h⟩ : ∃ σ, Run.run Net.step Net.init emptyWrite = .ok σ := ⟨_, rfl⟩
  have hp : (Run.run Net.step Net.init emptyWrite).toOption.map (fun σ =>
      (((σ.ep .b).msgs 1).map fun m => σ.peer .b m.addr, (σ.log .a 0).closed,
        (msgRead (σ.ep .b) 1 8).toOption.bind fun r => r.2.toOption)) =
      some (some (some 0), false, some []) := by decide
  rw [h] at hp
  simp only [Except.toOption, Option.map_some, Option.some.injEq, Prod.mk.injEq] at hp
  obtain ⟨hm, hc, hread⟩ := hp
  obtain ⟨m, hj, hm⟩ := Option.map_eq_some_iff.1 hm
  cases hr : msgRead (σ.ep .b) 1 8 with
  | error e => rw [hr] at hread; cases hread
  | ok q =>
    obtain ⟨sw, r⟩ := q
    rw [hr] at hread
    cases r with
    | error e => cases hread
    | ok bs => cases hread; exact ⟨σ, m, sw, h, hj, hr, hm, hc⟩

end Zimr
