import Zimr.Proof.Touch

/-!
# Every step keeps the invariant of the two endpoints

* `NetOK.call`, `NetOK.writeReady`, `NetOK.readReady` — the three kinds of steps
* `NetOK.step`, `NetOK.run`
-/

namespace Zimr

open Link (Item Step Steps Half Stage)

variable {σ σ' : Net} {s : Side} {j x y : ℕ} {m m' : Msg} {str dns : Bool} {f : Frame}
  {rest : List Frame} {o : Option Msg}

/-! ## Calls -/

theorem Turn.follows {L B : Prop} {sw sw' : MsgSwitch} {R : List MsgResp}
    {rp : Option MsgPacket} {peer : Option ℕ} (t : Turn L B sw sw' j m m' R rp)
    (hl : ¬ L) (hb : dns = true → ¬ B) (hj : sw.msgs j = some m) (hq : Quiet sw)
    (hd : dns = true → DenseQueue m)
    (hneed : m.status.needToSendResp = true → m.lastFrom = peer ∧ peer ≠ none)
    (hreads : ∀ p ∈ m.readQueue, peer = some p.owner)
    (hrp : ∀ p, rp = some p → peer = some p.owner) :
    Follows dns sw'.pendingMsgs peer m m' where
  addr := (Msg.ptr_eq_iff.1 t.ptr).1
  wire := fun h => ⟨t.disc.symm.trans h, Msg.wireId_congr t.ptr t.imsgid⟩
  imsgid := fun _ => t.imsgid
  quiet := fun hs' => by
    by_cases hs : m.status.sentDisconnect = true
    · obtain ⟨hw, hwq⟩ := t.quiet hs hl
      obtain ⟨hnw, hnq⟩ := hq j m hj hs
      have hw' := hw.trans hnw
      refine ⟨hw', fun hp => ?_⟩
      rw [t.only.pend, hw', Bool.and_false, if_neg (by simp), List.append_nil, t.ptr] at hp
      rcases hwq with hwq | hwq
      · rw [hwq]; exact hnq hp
      · exact absurd hp hwq
    · have hwq := t.shut (by simpa using hs) hs'
      refine ⟨?_, fun _ => hwq⟩
      cases hw : m'.status.writing with
      | false => rfl
      | true => exact absurd hwq (t.ok.writing hw).2
  dense := fun h => t.dense (hb h) (hd h)
  need := (t.source (fun o => o = peer ∧ peer ≠ none) hneed
    fun p hp => ⟨(hrp p hp).symm, by rw [hrp p hp]; simp⟩).1
  reads := fun p hp => (t.reads p hp).elim (hreads p) (hrp p)

theorem Turn.acks {L B : Prop} {sw sw' : MsgSwitch} {R : List MsgResp}
    {rp : Option MsgPacket} {peer : Option ℕ} (t : Turn L B sw sw' j m m' R rp)
    (hneed : m.status.needToSendResp = true → m.lastFrom = peer ∧ peer ≠ none)
    (hrp : ∀ p, rp = some p → peer = some p.owner) (r : MsgResp)
    (hr : Frame.resp r ∈ R.map Frame.resp) (hok : r.status = .ok) :
    r.ackOf = peer ∧ peer ≠ none := by
  refine (t.source (fun o => o = peer ∧ peer ≠ none) hneed
    fun p hp => ⟨(hrp p hp).symm, by rw [hrp p hp]; simp⟩).2 r ?_ hok
  simpa using hr

/-- The frames of a msg that changes carry its id. -/
theorem NetOK.turn_frames {L B : Prop} {sw' : MsgSwitch} {R : List MsgResp}
    {rp : Option MsgPacket} (h : NetOK str dns σ) (hj : (σ.ep s).msgs j = some m)
    (t : Turn L B (σ.ep s) sw' j m m' R rp) :
    ∀ f ∈ R.map Frame.resp, f.owner = m.addr ∧ f.msgid = (σ.log s m.addr).wid := by
  intro f hf
  obtain ⟨r, hr, rfl⟩ := List.mem_map.1 hf
  obtain ⟨h1, h2, h3⟩ := t.resps r hr
  exact ⟨h1, by rw [← (h.ids s).live j m hj h3]; exact h2⟩

theorem Turn.pend_mem {L B : Prop} {sw sw' : MsgSwitch} {R : List MsgResp}
    {rp : Option MsgPacket} (t : Turn L B sw sw' j m m' R rp) :
    ∀ p ∈ sw'.pendingMsgs, p ∈ sw.pendingMsgs ∨ p = m.ptr := by
  intro p hp
  rw [t.only.pend] at hp
  rcases List.mem_append.1 hp with hp | hp
  · exact Or.inl hp
  · split_ifs at hp
    · exact Or.inr (List.mem_singleton.1 hp)
    · simp at hp

/-- An object that the peer has made carries the id the peer gave it. -/
theorem NetOK.imsgid_pos (h : NetOK str dns σ) (hj : (σ.ep s).msgs j = some m)
    (hd : m.status.disconnected = false) (hw : 0 < (σ.log s m.addr).wid) : m.imsgid ≠ 0 := by
  intro h0
  have := (h.ids s).live j m hj hd
  rw [Msg.wireId, if_neg (by simpa using h0)] at this
  omega

theorem EndLog.record_same (l : EndLog) (op : Op) (ret : OpRet) :
    (l.record op ret).peer = l.peer ∧ (l.record op ret).wid = l.wid := by
  unfold EndLog.record
  split <;> exact ⟨rfl, rfl⟩

theorem Net.setLog_self (σ : Net) (s : Side) (x : ℕ) : σ.setLog s x (σ.log s x) = σ := by
  simp [Net.setLog]

theorem Net.setEp_self (σ : Net) (s : Side) : σ.setEp s (σ.ep s) = σ := by
  simp [Net.setEp]

theorem map_item_resp (R : List MsgResp) :
    (R.map Frame.resp).map Frame.item = R.map MsgResp.item := by
  rw [List.map_map]; rfl

/-- What a call leaves, by what it was called on. -/
theorem Net.call_eq {op : Op} {sw : MsgSwitch} {ret : OpRet}
    (h₁ : (σ.ep s).call op = .ok (sw, ret)) (hop : op.msgid = some j) (hc : σ.call s op = .ok σ') :
    (∀ m, (σ.ep s).msgs j = some m →
      σ' = (σ.setEp s sw).setLog s m.addr ((σ.log s m.addr).record op ret)) ∧
    ((σ.ep s).msgs j = none → σ' = σ.setEp s sw) := by
  simp only [Net.call, h₁, bind, Except.bind, hop] at hc
  refine ⟨fun m hm => ?_, fun hm => ?_⟩
  · simp only [hm, pure, Except.pure] at hc; cases hc; rfl
  · simp only [hm, pure, Except.pure] at hc; cases hc; rfl

/-- One msg changes, and `l` is its history then. -/
theorem NetOK.turn {L B : Prop} {sw : MsgSwitch} {R : List MsgResp} {l : EndLog}
    (h : NetOK str dns σ) (hj : (σ.ep s).msgs j = some m)
    (t : Turn L B (σ.ep s) sw j m m' R none) (hl : ¬ L) (hb : dns = true → ¬ B)
    (hlog : l.peer = (σ.log s m.addr).peer ∧ l.wid = (σ.log s m.addr).wid)
    (link : ∀ (y : Half UInt8), Steps (str = false) (dns = false)
      ((σ.log s m.addr).half (.live m.view) (outOf (σ.wire s) m.addr)
        (str && decide (0 < (σ.log s m.addr).wid))) y
      (l.half (.live m'.view) (outOf (σ.wire s) m.addr ++ R.map MsgResp.item)
        (str && decide (0 < (σ.log s m.addr).wid))) y) :
    NetOK str dns ((σ.setEp s sw).setLog s m.addr l) := by
  have hneed := (h.src s).need j m hj
  refine h.touch (j := j) (m := m) (o := some m') (F := R.map Frame.resp) (g := none)
    ⟨hj, ?_, ?_, by simp, ?_, by simp [Net.wire], fun x hx => by simp [hx], by simp [hlog],
      by simp [hlog], by simp, h.turn_frames hj t, fun f hf => (by cases hf)⟩ ?_ ?_ ?_ ?_ ?_
  · simpa using t.only.msgs
  · simpa using t.only.next
  · simp [Net.wire, t.only.resps]
  · simpa using (h.sw s).turn hj t
  · simpa using t.pend_mem
  · intro n hn
    cases hn
    simpa [Net.peer] using t.follows hl hb hj (h.quiet s) (fun hd => h.dense hd s j m hj) hneed
      ((h.src s).reads j m hj) fun p hp => (by cases hp)
  · exact t.acks hneed fun p hp => (by cases hp)
  · intro y rest hy
    have hy' : ({ y with out := rest } : Half UInt8) = y := by rw [← show y.out = rest from hy]
    rw [hy', map_item_resp]
    simpa [stageOf] using link y

/-- **A call.** -/
theorem NetOK.call {op : Op} (h : NetOK str dns σ) (hF : (σ.ep s).flushesLate op = false)
    (hA : str = true → (σ.ep s).closesOwing op = false)
    (hB : dns = true → (σ.ep s).flushesBlank op = false) (hc : σ.call s op = .ok σ') :
    NetOK str dns σ' := by
  obtain ⟨⟨sw, ret⟩, h₁, -⟩ := bind_ok hc
  cases call_eff (S := str = false) (H := dns = false) (h.sw s) h₁ with
  | idle hop he hrec =>
    obtain ⟨j, hop⟩ := Option.ne_none_iff_exists'.1 hop
    obtain ⟨hsome, hnone⟩ := Net.call_eq h₁ hop hc
    subst he
    rw [Net.setEp_self] at hsome hnone
    have : σ' = σ := by
      cases hj : (σ.ep s).msgs j with
      | none => exact hnone hj
      | some m => rw [hsome m hj, hrec, Net.setLog_self]
    rw [this]; exact h
  | turn j m m' R hop hj t link =>
    rw [(Net.call_eq h₁ hop hc).1 m hj]
    refine h.turn hj t (by simp [hF]) (fun hd => by simp [hB hd]) (EndLog.record_same _ _ _) fun y => ?_
    refine link _ _ _ _ fun hst hd => ?_
    simp only [Bool.and_eq_true, decide_eq_true_eq] at hst
    exact ⟨h.imsgid_pos hj hd hst.2, hA hst.1⟩
  | freed j m hop hj c link =>
    rw [(Net.call_eq h₁ hop hc).1 m hj]
    have hrec := (σ.log s m.addr).record_same op ret
    refine h.touch (j := j) (m := m) (o := none) (F := []) (g := none)
      ⟨hj, by simpa using c.msgs, by simpa using c.next, by simp, by simp [Net.wire, c.resps],
        by simp [Net.wire], fun x hx => by simp [hx], by simp [hrec], by simp [hrec], by simp, (by simp),
        fun f hf => (by cases hf)⟩ ?_ ?_ (fun n hn => (by cases hn)) (by simp) ?_
    · simpa using (h.sw s).clears hj c
    · intro p hp
      simp only [Net.setLog_ep, Net.setEp_ep, c.pend] at hp
      exact Or.inl ((m.unqueue_sublist _).subset hp)
    · intro y rest hy
      have hy' : ({ y with out := rest } : Half UInt8) = y := by rw [← show y.out = rest from hy]
      rw [hy']
      simpa [stageOf] using link (σ.log s m.addr) (outOf (σ.wire s) m.addr)
        (str && decide (0 < (σ.log s m.addr).wid)) y
  | opened j type hop hret c =>
    subst hop hret
    have : σ' = (σ.setEp s sw).setLog s (σ.ep s).nextAddr { wid := -(j : ℤ) } := by
      simp only [Net.call, h₁, bind, Except.bind, Op.msgid, pure, Except.pure] at hc
      cases hc; rfl
    rw [this]
    exact h.opened c ((h.sw s).call h₁)

/-! ## Write events -/

theorem DenseQueue.popWrit {p : MsgPacket} {rest : List MsgPacket} (h : DenseQueue m)
    (hq : m.writQueue = p :: rest) : DenseQueue (m.popWrit rest) where
  closed := fun hd q hqm => h.closed hd q (by rw [hq]; exact List.mem_cons_of_mem _ hqm)
  last := fun hd q hqm => h.last hd q (by
    rw [hq]
    cases rest with
    | nil => cases hqm
    | cons r rest => exact List.mem_cons_of_mem _ hqm)

/-- An empty packet is sent by a closed msg, as its last one. -/
theorem DenseQueue.head {p : MsgPacket} {rest : List MsgPacket} (h : DenseQueue m) (hm : MsgOK m)
    (hd : m.status.disconnected = false) (hq : m.writQueue = p :: rest) (hp : p.data = []) :
    m.status.closed = true ∧ rest ++ m.incompleteWritPacket.toList = [] := by
  have hc := h.closed hd p (by rw [hq]; exact List.mem_cons_self) hp
  refine ⟨hc, ?_⟩
  rw [hm.closed_inc hc]
  cases rest with
  | nil => rfl
  | cons r rest => exact absurd hp (h.last hd p (by rw [hq]; exact List.mem_cons_self))

/-- **A write event.** -/
theorem NetOK.writeReady (h : NetOK str dns σ) (hc : σ.writeReady s = .ok σ') :
    NetOK str dns σ' := by
  unfold Net.writeReady at hc
  split_ifs at hc with harm
  swap
  · cases hc; exact h
  obtain ⟨⟨sw, frame⟩, h₁, h₂⟩ := bind_ok hc
  cases h₂
  have hsw := (h.sw s).write h₁
  rcases msgSwitchWrite_cases (h.sw s).slots h₁ with
    ⟨r, rest, hr, rfl, rfl⟩ | ⟨m, p, rest, tail, sw₁, hr, hp, hj, hq, rfl, rfl, o⟩
  · obtain ⟨hmsgs, hresps, hpend, -, hnext, -, -⟩ :=
      ({ σ.ep s with pendingResps := rest } : MsgSwitch).disarm_eq
    refine h.congr (Side.forall_of s ?_ ?_) (Side.forall_of s ?_ ?_) (Side.forall_of s ?_ ?_)
      (Side.forall_of s ?_ ?_) (Side.forall_of s ?_ ?_) rfl
    · simpa using hsw
    · simpa using h.sw s.other
    · simpa using hmsgs
    · simp
    · simpa using hpend
    · simp
    · simpa using hnext
    · simp
    · simp [Net.wire, hr, hresps]
    · simp [Net.wire]
  · have hm := (h.sw s).slots.ok _ _ hj
    obtain ⟨hmsgs, hresps, hpend, -, hnext, -, -⟩ := sw₁.disarm_eq
    have hmem : m.ptr ∈ (σ.ep s).pendingMsgs := by rw [hp]; exact List.mem_cons_self
    have hsent : m.status.sentDisconnect = false := by
      cases hs : m.status.sentDisconnect with
      | false => rfl
      | true =>
        have := (h.quiet s _ m hj hs).2 hmem
        rw [hq] at this; cases this
    have hd := hm.not_disc hsent
    have hw : m.status.waitingForResp = false := by
      have hcount := (h.sw s).pend.count _ _ hj (Or.inl hd)
      have hpos := List.count_pos_iff.2 hmem
      cases hwr : m.status.writing with
      | true => exact (hm.writing hwr).1
      | false => rw [hwr] at hcount; simp only [Bool.toNat_false] at hcount; omega
    have hid := hm.ids p (Or.inl (by rw [hq]; exact List.mem_cons_self))
    have hframe : ∀ f ∈ [Frame.pack p], f.owner = m.addr ∧ f.msgid = (σ.log s m.addr).wid := by
      intro f hf
      rw [List.mem_singleton.1 hf, ← (h.ids s).live _ m hj hd]
      exact ⟨hid.1, hid.2 hd⟩
    have ht : sw₁.pendingMsgs = tail := by simpa using o.pend
    refine h.touch (j := m.msgid) (m := m) (o := some (m.popWrit rest)) (F := [.pack p]) (g := none)
      ⟨hj, ?_, ?_, by simp, ?_, by simp [Net.wire], fun x hx => by simp, by simp, by simp, by simp,
        hframe, fun f hf => (by cases hf)⟩ ?_ ?_ ?_ ?_ ?_
    · simpa [hmsgs] using o.msgs
    · simpa [hnext] using o.next
    · have : sw₁.pendingResps = [] := by simpa [hr] using o.resps
      simp [Net.wire, hresps, this, hr]
    · simpa using hsw
    · intro q hqm
      simp only [Net.setChan_ep, Net.setEp_ep, hpend, ht] at hqm
      exact Or.inl (by rw [hp]; exact List.mem_cons_of_mem _ hqm)
    · intro n hn
      cases hn
      have hs' : (m.popWrit rest).status.sentDisconnect = false := hsent
      exact ⟨rfl, fun _ => ⟨hd, rfl⟩, fun _ => rfl, fun hs => absurd hs (by simp [hs']),
        fun hdn => (h.dense hdn s _ m hj).popWrit hq, (h.src s).need _ m hj, (h.src s).reads _ m hj⟩
    · intro r hr'
      simp at hr'
    · intro y rest' hy
      have hy' : ({ y with out := rest' } : Half UInt8) = y := by rw [← show y.out = rest' from hy]
      rw [hy']
      refine popWrit_link hq hsent hw ?_ _ _ _ _ _ y
      cases hdn : dns with
      | false => exact Or.inl rfl
      | true => exact Or.inr fun hp' => (h.dense hdn s _ m hj).head hm hd hq hp'

/-! ## Frames -/

/-- Reading a frame that makes no object. -/
theorem Net.readReady_eq {sw : MsgSwitch} (hch : σ.chan s.other = f :: rest)
    (h₁ : msgSwitchDispatch (σ.ep s) f = .ok sw) (hn : sw.nextAddr = (σ.ep s).nextAddr)
    (hc : σ.readReady s = .ok σ') : σ' = (σ.setEp s sw).setChan s.other rest := by
  simp only [Net.readReady, hch, h₁, bind, Except.bind, hn, pure, Except.pure, if_true] at hc
  cases hc; rfl

theorem Net.wire_other (hch : σ.chan s.other = f :: rest) (sw : MsgSwitch) :
    σ.wire s.other = f :: ((σ.setEp s sw).setChan s.other rest).wire s.other := by
  simp [Net.wire, hch]

/-- The object that the frame of its peer has come to. -/
theorem Touch.recv {sw : MsgSwitch} {R : List MsgResp} (hch : σ.chan s.other = f :: rest)
    (hj : (σ.ep s).msgs j = some m) (hp : σ.peer s.other f.owner = some m.addr)
    (hmsgs : sw.msgs = Function.update (σ.ep s).msgs j o) (hnext : sw.nextAddr = (σ.ep s).nextAddr)
    (hresps : sw.pendingResps = (σ.ep s).pendingResps ++ R)
    (hR : ∀ f ∈ R.map Frame.resp, f.owner = m.addr ∧ f.msgid = (σ.log s m.addr).wid) :
    Touch σ ((σ.setEp s sw).setChan s.other rest) s j m o (R.map Frame.resp) (some f) where
  slot := hj
  msgs := by simpa using hmsgs
  next := by simpa using hnext
  other := by simp
  wire := by simp [Net.wire, hresps]
  wire' := Net.wire_other hch sw
  log := fun _ _ => by simp
  peer := by simp
  wid := by simp
  log' := by simp
  frames := hR
  from_peer := fun _ hf => by cases hf; exact hp

/-- Whoever has received the disconnect has sent one. -/
theorem NetOK.sent_of_seen (h : NetOK str dns σ) (hx : x < σ.made s) (hs : (σ.half str s x).Seen) :
    (σ.half str s x).Sent :=
  hs.imp id fun he => he.imp fun e he => ⟨he.1, (h.link s x hx).inv.endx.disc_sent e he.1 he.2⟩

/-- A frame that is ignored. -/
theorem NetOK.ignored (h : NetOK str dns σ) (hch : σ.chan s.other = f :: rest)
    (hok : ∀ m, msgGet (σ.ep s) f.msgid = some m →
      f.item = .ok ∧ m.status.sentDisconnect = true)
    (hresp : ∀ p, f ≠ .pack p) : NetOK str dns (σ.setChan s.other rest) := by
  have hw := Net.wire_other hch (σ.ep s)
  have hfw := (h.ids_other s).frame f (by rw [hw]; exact List.mem_cons_self)
  rcases h.resolve hw with ⟨m, hg, hp⟩ | ⟨-, -, hp⟩ | ⟨y, hp, hseen, -⟩
  · obtain ⟨hf, hs⟩ := hok m hg
    refine h.skipOk hch hf hp (Or.inr ⟨m.view, h.stage_live ((h.sw s).get_slot hg), hs⟩)
  · obtain ⟨p, hf⟩ := h.unborn_data hw hp
    exact absurd hf (hresp p)
  · exact h.skipOk hch (h.seen_ok hw hp hseen).1 hp
      (h.sent_of_seen ((h.ids_other s).peer _ _ hfw.1 hp).1 hseen)

/-- A frame that is no acknowledgement comes to the peer of its sender. -/
theorem NetOK.resolve_item (h : NetOK str dns σ) (hch : σ.chan s.other = f :: rest)
    (hf : f.item ≠ .ok) :
    (∃ m, msgGet (σ.ep s) f.msgid = some m ∧ m.status.disconnected = false ∧
      σ.peer s.other f.owner = some m.addr) ∨
    (msgGet (σ.ep s) f.msgid = none ∧ σ.peer s.other f.owner = none) := by
  have hw := Net.wire_other hch (σ.ep s)
  rcases h.resolve hw with ⟨m, hg, hp⟩ | ⟨hg, -, hp⟩ | ⟨y, hp, hseen, -⟩
  · refine Or.inl ⟨m, hg, ?_, hp⟩
    cases hd : m.status.disconnected with
    | false => rfl
    | true =>
      exact absurd (h.seen_ok hw hp (Or.inr ⟨m.view, h.stage_live ((h.sw s).get_slot hg), hd⟩)).1 hf
  · exact Or.inr ⟨hg, hp⟩
  · exact absurd (h.seen_ok hw hp hseen).1 hf

theorem NetOK.resolve_some (h : NetOK str dns σ) (hch : σ.chan s.other = f :: rest)
    (hf : f.item ≠ .ok) (hg : msgGet (σ.ep s) f.msgid = some m) :
    m.status.disconnected = false ∧ σ.peer s.other f.owner = some m.addr := by
  rcases h.resolve_item hch hf with ⟨m₁, hg₁, hd, hp⟩ | ⟨hno, -⟩
  · rw [hg] at hg₁; cases hg₁; exact ⟨hd, hp⟩
  · rw [hg] at hno; cases hno

/-- The frame of its peer changes one msg. -/
theorem NetOK.recv_turn {B : Prop} {sw : MsgSwitch} {R : List MsgResp} {rp : Option MsgPacket}
    (h : NetOK str dns σ) (hch : σ.chan s.other = f :: rest) (hj : (σ.ep s).msgs j = some m)
    (hp : σ.peer s.other f.owner = some m.addr)
    (t : Turn False B (σ.ep s) sw j m m' R rp) (hb : dns = true → ¬ B)
    (hrp : ∀ p, rp = some p → p.owner = f.owner)
    (link : ∀ (y : Half UInt8) rest, y.out = f.item :: rest → Steps (str = false) (dns = false)
      ((σ.log s m.addr).half (.live m.view) (outOf (σ.wire s) m.addr)
        (str && decide (0 < (σ.log s m.addr).wid))) y
      ((σ.log s m.addr).half (.live m'.view) (outOf (σ.wire s) m.addr ++ R.map MsgResp.item)
        (str && decide (0 < (σ.log s m.addr).wid))) { y with out := rest }) :
    NetOK str dns ((σ.setEp s sw).setChan s.other rest) := by
  have hneed := (h.src s).need _ m hj
  have hfw := (h.ids_other s).frame f (by
    rw [Net.wire_other hch (σ.ep s)]; exact List.mem_cons_self)
  have hmp : (σ.log s m.addr).peer = some f.owner := ((h.ids_other s).peer _ _ hfw.1 hp).2.1
  have hrp' : ∀ p, rp = some p → (σ.log s m.addr).peer = some p.owner := fun p hp' => by
    rw [hmp, hrp p hp']
  refine h.touch (Touch.recv hch hj hp t.only.msgs t.only.next t.only.resps (h.turn_frames hj t))
    ?_ ?_ ?_ ?_ ?_
  · simpa using (h.sw s).turn hj t
  · simpa using t.pend_mem
  · intro n hn
    cases hn
    simpa [Net.peer] using t.follows id hb hj (h.quiet s) (fun hd => h.dense hd s _ m hj) hneed
      ((h.src s).reads _ m hj) hrp'
  · exact t.acks hneed hrp'
  · intro y rest' hy
    rw [map_item_resp]
    exact link y rest' hy

/-- **An acknowledgement is taken.** -/
theorem NetOK.acked {B : Prop} {sw : MsgSwitch} {R : List MsgResp} (h : NetOK str dns σ)
    (hch : σ.chan s.other = f :: rest) (hg : msgGet (σ.ep s) f.msgid = some m) (hf : f.item = .ok)
    (hs : m.status.sentDisconnect = false) (hw : m.status.waitingForResp = true)
    (t : Turn False B (σ.ep s) sw m.msgid m m' R none) (hb : dns = true → ¬ B)
    (link : ∀ (l : EndLog) out strict y, Steps (str = false) (dns = false)
      (l.half (.live { m.view with waiting := false }) out strict) y
      (l.half (.live m'.view) (out ++ R.map MsgResp.item) strict) y) :
    NetOK str dns ((σ.setEp s sw).setChan s.other rest) := by
  have hj := (h.sw s).get_slot hg
  have hwire := Net.wire_other hch (σ.ep s)
  have hfw := (h.ids_other s).frame f (by rw [hwire]; exact List.mem_cons_self)
  rcases h.resolve hwire with ⟨m₁, hg₁, hp⟩ | ⟨hno, -, -⟩ | ⟨y, hp, hseen, hC⟩
  · rw [hg] at hg₁; cases hg₁
    refine h.recv_turn hch hj hp t hb (fun p hp => (by cases hp)) fun y rest' hy => ?_
    rw [hf] at hy
    exact (Steps.single (Step.recvOk (e := m.view) rfl hs hw hy)).trans (link _ _ _ _)
  · rw [hg] at hno; cases hno
  · -- the id belongs to a newer msg: a stray acknowledgement
    have hstr : str = false := by
      cases hstr : str with
      | false => rfl
      | true =>
        have := (h.seen_ok hwire hp hseen).2 hstr
        rcases hC with hno | ⟨hpos, -⟩
        · rw [hg] at hno; cases hno
        · omega
    have h₁ := h.skipOk hch hf hp (h.sent_of_seen ((h.ids_other s).peer _ _ hfw.1 hp).1 hseen)
    have h₂ := h₁.turn (l := σ.log s m.addr) hj t id hb ⟨rfl, rfl⟩ fun y =>
      (Steps.single (Step.strayOk (e := m.view) hstr rfl)).trans (link _ _ _ _)
    have heq : ((σ.setChan s.other rest).setEp s sw).setLog s m.addr (σ.log s m.addr) =
        (σ.setEp s sw).setChan s.other rest :=
      Net.setLog_self ((σ.setEp s sw).setChan s.other rest) s m.addr
    rw [← heq]; exact h₂

/-- **The disconnect is answered.** -/
theorem NetOK.answered {sw : MsgSwitch} (h : NetOK str dns σ) (hch : σ.chan s.other = f :: rest)
    (hj : (σ.ep s).msgs j = some m) (hp : σ.peer s.other f.owner = some m.addr)
    (hf : f.item = .discon) (hs : m.status.sentDisconnect = false) (a : Answers (σ.ep s) sw j m m')
    (hsw : SwOK False sw) : NetOK str dns ((σ.setEp s sw).setChan s.other rest) := by
  have hd := ((h.sw s).slots.ok _ _ hj).not_disc hs
  refine h.touch (Touch.recv (o := some m') hch hj hp a.msgs a.next a.resps ?_) ?_ ?_ ?_ ?_ ?_
  · intro f hf
    rw [List.map_singleton] at hf
    rw [List.mem_singleton.1 hf]
    exact ⟨rfl, (h.ids s).live _ m hj hd⟩
  · simpa using hsw
  · intro p hp
    simp only [Net.setChan_ep, Net.setEp_ep, a.pend] at hp
    split_ifs at hp
    · exact Or.inl hp
    · exact Or.inl ((m.unqueue_sublist _).subset hp)
  · intro n hn
    cases hn
    have hdn : m'.status.disconnected = false → False := fun h0 => by rw [a.disc] at h0; cases h0
    exact ⟨(Msg.ptr_eq_iff.1 a.ptr).1, fun h0 => (hdn h0).elim,
      fun hi => absurd (a.ok.disc a.disc).2 hi, fun _ => ⟨a.writing, fun _ => a.writs⟩,
      fun _ => ⟨fun h0 => (hdn h0).elim, fun h0 => (hdn h0).elim⟩,
      fun hn => by rw [a.from_last]; exact (h.src s).need _ m hj (a.need hn),
      fun p hp => (h.src s).reads _ m hj p (by rw [← a.reads]; exact hp)⟩
  · intro r hr hok
    rw [List.map_singleton] at hr
    rw [Frame.resp.inj (List.mem_singleton.1 hr)] at hok
    cases hok
  · intro y rest' hy
    obtain ⟨need, waiting, h', unsent, hv⟩ := a.view
    simp only [stageOf, hv]
    rw [Option.map_some, hf] at hy
    exact Steps.single (Step.recvDiscon (e := m.view) rfl hs hy need waiting h' unsent)

/-- **The answer to a disconnect has come.** -/
theorem NetOK.freed {sw : MsgSwitch} (h : NetOK str dns σ) (hch : σ.chan s.other = f :: rest)
    (hj : (σ.ep s).msgs j = some m) (hp : σ.peer s.other f.owner = some m.addr)
    (hf : f.item = .discon) (hs : m.status.sentDisconnect = true)
    (c : Clears (σ.ep s) sw j m none (m.unmap (σ.ep s).imsgidMap)) (hsw : SwOK False sw) :
    NetOK str dns ((σ.setEp s sw).setChan s.other rest) := by
  refine h.touch (Touch.recv (o := none) (R := []) hch hj hp c.msgs c.next (by simpa using c.resps)
    (by simp)) ?_ ?_ (fun n hn => (by cases hn)) (by simp) ?_
  · simpa using hsw
  · intro p hp
    simp only [Net.setChan_ep, Net.setEp_ep, c.pend] at hp
    exact Or.inl ((m.unqueue_sublist _).subset hp)
  · intro y rest' hy
    rw [Option.map_some, hf] at hy
    rw [List.map_nil, List.map_nil, List.append_nil]
    exact Steps.single (Step.freed (e := m.view) rfl hs hy)

/-- **The first packet of a msg makes the object at its other end.** -/
theorem NetOK.born {p : MsgPacket} {sw₁ sw : MsgSwitch} {R : List MsgResp} (h : NetOK str dns σ)
    (hch : σ.chan s.other = .pack p :: rest) (hneg : p.msgid < 0)
    (hp : σ.peer s.other p.owner = none)
    (c : Creates (σ.ep s) sw₁ j (.fresh (σ.ep s).nextAddr j p.type false p.msgid.natAbs)
      (Function.update (σ.ep s).imsgidMap p.msgid.natAbs j))
    (t : Turn False False sw₁ sw j (.fresh (σ.ep s).nextAddr j p.type false p.msgid.natAbs) m' R
      (some p))
    (hsw : SwOK False sw)
    (link : ∀ (l : EndLog) out strict y, Steps (str = false) (dns = false)
      (l.half (.live (.fresh p.data)) out strict) y
      (l.half (.live m'.view) (out ++ R.map MsgResp.item) strict) y) :
    NetOK str dns ((((σ.setEp s sw).setChan s.other rest).setLog s (σ.ep s).nextAddr
      { peer := some p.owner, wid := -p.msgid }).setLog s.other p.owner
        { σ.log s.other p.owner with peer := some (σ.ep s).nextAddr }) := by
  set a := (σ.ep s).nextAddr with ha
  set σ' := (((σ.setEp s sw).setChan s.other rest).setLog s a
    { peer := some p.owner, wid := -p.msgid }).setLog s.other p.owner
      { σ.log s.other p.owner with peer := some a } with hσ'
  have haddr : m'.addr = a := (Msg.ptr_eq_iff.1 t.ptr).1
  have hid : m'.wireId = -p.msgid := by
    rw [Msg.wireId_congr t.ptr t.imsgid, Msg.wireId, if_pos (by simp [Msg.fresh]; omega)]
    simp only [Msg.fresh]; omega
  have hep : σ'.ep s = sw := by simp [hσ']
  have hother : σ'.ep s.other = σ.ep s.other := by simp [hσ']
  have hnew : σ'.log s a = { peer := some p.owner, wid := -p.msgid } := by simp [hσ']
  have hlog : ∀ x, x < a → σ'.log s x = σ.log s x := fun x hx => by simp [hσ', hx.ne]
  have howner : σ'.log s.other p.owner = { σ.log s.other p.owner with peer := some a } := by
    simp [hσ']
  have hlog' : ∀ x, x ≠ p.owner → σ'.log s.other x = σ.log s.other x := fun x hx => by
    simp [hσ', hx]
  have hwid' : ∀ x, (σ'.log s.other x).wid = (σ.log s.other x).wid := by
    intro x
    by_cases hx : x = p.owner
    · subst hx; rw [howner]
    · rw [hlog' x hx]
  have hwire : σ'.wire s = σ.wire s ++ R.map Frame.resp := by
    simp [hσ', Net.wire, t.only.resps, c.resps]
  have hwire' : σ.wire s.other = .pack p :: σ'.wire s.other := by simp [hσ', Net.wire, hch]
  have hkeep : ∀ x, σ.peer s.other x ≠ none → σ'.log s.other x = σ.log s.other x := fun x hx =>
    hlog' x fun he => hx (by rw [he]; exact hp)
  have hslots := (h.sw s).slots
  have hway := h.ids_other s
  have hfw := hway.frame (.pack p) (by rw [hwire']; exact List.mem_cons_self)
  have hframes : ∀ f ∈ R.map Frame.resp, f.owner = m'.addr ∧ f.msgid = -p.msgid := by
    intro f hf
    obtain ⟨r, hr, rfl⟩ := List.mem_map.1 hf
    obtain ⟨h1, h2, -⟩ := t.resps r hr
    exact ⟨h1.trans haddr.symm, by rw [← hid, Msg.wireId_congr t.ptr t.imsgid]; exact h2⟩
  have b : Birth σ σ' s j m' (R.map Frame.resp) (some (.pack p)) := by
    refine ⟨c.free, haddr, ?_, ?_, ?_, hother, hwire, hwire', hlog, hkeep,
      fun f hf => (hframes f hf).1⟩
    · rw [hep, t.only.msgs, c.msgs, Function.update_idem]
    · rw [hep, t.only.next, c.next]
    · intro q hq
      rw [hep] at hq
      refine (t.pend_mem q hq).imp (fun hq => by rw [← c.pend]; exact hq) fun hq => ?_
      rw [hq, t.ptr]
  have hsw' : SwOK False (σ'.ep s) := by rw [hep]; exact hsw
  have hpeer : (σ'.log s m'.addr).peer = some p.owner := by rw [haddr, hnew]
  have hsrc := t.source (fun o => o = some p.owner ∧ some p.owner ≠ none)
    (fun hn => by cases hn) (fun q hq => by cases hq; simp)
  refine h.birth b hsw' (Side.forall_of s ?_ ?_) ?_ ?_ ?_ ?_ ?_ ?_
  · -- the ids this side sends
    unfold Net.Way Net.made
    rw [hwire, b.msgs, b.next, hother]
    refine Way.append (j := j) (m := m') (Way.insert (h.ids s) hslots (h.sw s.other).slots c.free haddr
      hlog (by rw [hnew, hid]) (by rw [hnew]; simp; omega) (fun hw => by rw [hnew] at hw; simp at hw; omega)
      ?_ (fun _ => by rw [hnew]; simp) (fun y hy => hkeep y hy) ?_ fun a x ha hp => h.peer_made ha hp)
      (by simp) (by rw [haddr]; omega) (fun f hf => ?_)
    · intro y hy
      rw [hnew] at hy ⊢
      cases hy
      rw [howner]
      refine ⟨hfw.1, rfl, ?_⟩
      have := hfw.2
      simp only [Frame.msgid, Frame.owner] at this
      simp [this]
    · intro i n hi hni
      have hne : σ.peer s.other n.addr ≠ none := by
        have hi' := (h.sw s.other).slots.addr _ _ hi
        refine hway.born n.addr hi' ?_
        rw [h.wid_pos hi hni]; omega
      rw [hkeep _ hne]
    · rw [haddr, hnew, ← haddr]; exact hframes f hf
  · -- the ids that come to it
    unfold Net.Way Net.made
    rw [Side.other_other, b.msgs, b.next, hother]
    have hsub : (σ'.wire s.other).Sublist (σ.wire s.other) := by
      rw [hwire']; exact List.sublist_cons_self _ _
    refine Way.insert_other (hway.drop hsub) hslots haddr hwid' ?_ ?_ hlog ?_
    · intro x y _ hy
      by_cases hx : x = p.owner
      · subst hx
        rw [howner] at hy
        cases hy
        refine Or.inr ⟨rfl, by rw [hnew], ?_⟩
        rw [hnew]
        exact congrArg Neg.neg hfw.2
      · rw [hlog' x hx] at hy; exact Or.inl hy
    · intro x hx
      rw [hkeep x hx]; exact hx
    · intro x _ hx
      rw [hnew] at hx
      cases hx
      have hi : (m'.imsgid : ℤ) = -p.msgid := by rw [t.imsgid]; simp only [Msg.fresh]; omega
      rw [hi, neg_neg]
      refine ⟨fun g hg hgid => ?_, fun n' hn' => ?_⟩
      · have hsorted := hway.sorted
        rw [hwire'] at hsorted
        exact (List.pairwise_cons.1 hsorted).1 g hg hgid.symm hneg
      · refine hway.slot (.pack p) (by rw [hwire']; exact List.mem_cons_self) _ n' ?_ hn'
        simp only [Frame.msgid]; omega
  · -- the new link
    refine Link.AllSound.born (s := s) (a := p.owner) Side.other_other h.mutual h.link hfw.1 hp
      ?_ ?_ ⟨?_, ?_⟩ ?_
    · intro t'
      revert t'
      refine Side.forall_of s (fun x hx _ => ?_) fun x hx hne => ?_
      · exact ⟨b.half_old hslots hsw'.slots hx, by unfold Net.peer; rw [hlog x hx]⟩
      · have hx' : x ≠ p.owner := fun he => hne ⟨rfl, he⟩
        unfold Net.half Net.peer
        rw [hlog' x hx', hother, hwire']
        refine ⟨?_, rfl⟩
        have : (Frame.pack p).owner ≠ x := fun he => hx' he.symm
        congr 1
        simp [outOf, this]
    · intro t'
      revert t'
      refine Side.forall_of s (fun x hx => ?_) fun x hx => ?_
      · unfold Net.made at hx ⊢
        rw [b.next] at hx
        exact (Nat.lt_succ_iff_lt_or_eq.1 hx).imp id fun he => ⟨rfl, he⟩
      · unfold Net.made at hx ⊢
        rw [hother] at hx
        exact Or.inl hx
    · exact congrArg EndLog.peer hnew
    · exact congrArg EndLog.peer howner
    · have hlive : (σ'.ep s).stage a = .live m'.view := by
        rw [← haddr]
        exact MsgSwitch.stage_live (j := j) hsw'.slots (by rw [b.msgs]; simp)
      have hout : outOf (σ'.wire s) a = R.map MsgResp.item := by
        rw [hwire, outOf_append, outOf_eq_nil (x := a) fun f hf => ((h.ids s).frame f hf).1.ne,
          outOf_self fun f hf => (hframes f hf).1.trans haddr, List.nil_append, map_item_resp]
      have hx : σ'.half str s (σ.made s) = (σ'.log s a).half (.live m'.view)
          ([] ++ R.map MsgResp.item) str := by
        have hmade : σ.made s = a := rfl
        unfold Net.half
        rw [hmade, hlive, hout, hnew]
        have : (str && decide (0 < -p.msgid)) = str := by simp [hneg]
        rw [this]; rfl
      have hy : σ'.half str s.other p.owner =
          { σ.half str s.other p.owner with out := outOf (σ'.wire s.other) p.owner } := by
        unfold Net.half
        rw [howner, hother]; rfl
      have hyo : (σ.half str s.other p.owner).out = .data p.data :: outOf (σ'.wire s.other) p.owner := by
        change outOf (σ.wire s.other) p.owner = _
        rw [hwire']; simp [outOf, Frame.owner, Frame.item]
      rw [hx, hy]
      refine (Steps.single (Step.born rfl hyo)).trans ?_
      have := link (σ'.log s a) [] str
        { σ.half str s.other p.owner with out := outOf (σ'.wire s.other) p.owner }
      rw [hnew] at this ⊢
      exact this
  · exact t.shut rfl
  · exact t.dense id ⟨by simp [Msg.fresh], by simp [Msg.fresh]⟩
  · intro hn; rw [hpeer]; exact hsrc.1 hn
  · intro q hq
    rw [hpeer]
    rcases t.reads q hq with hq | hq
    · cases hq
    · cases hq; rfl
  · intro r hr hok
    rw [hpeer]
    exact hsrc.2 r (by simpa using hr) hok

/-- **A frame.** -/
theorem NetOK.readReady (h : NetOK str dns σ)
    (hA : str = true → σ.next s MsgSwitch.acksLate = false)
    (hB : dns = true → σ.next s MsgSwitch.acksBlank = false) (hc : σ.readReady s = .ok σ') :
    NetOK str dns σ' := by
  cases hch : σ.chan s.other with
  | nil =>
    simp only [Net.readReady, hch] at hc
    cases hc; exact h
  | cons f rest =>
  have hnext : ∀ P, σ.next s P = P (σ.ep s) f := fun P => by simp only [Net.next, hch]
  obtain ⟨sw, h₁⟩ : ∃ sw, msgSwitchDispatch (σ.ep s) f = .ok sw := by
    simp only [Net.readReady, hch] at hc
    obtain ⟨sw, h₁, -⟩ := bind_ok hc
    exact ⟨sw, h₁⟩
  have hsw := (h.sw s).dispatch h₁ False.elim
  cases dispatch_eff (S := str = false) (H := dns = false) (h.sw s) h₁ with
  | dropped resp hf hg he =>
    subst hf he
    have hg : msgGet (σ.ep s) (Frame.resp resp).msgid = none := hg
    rw [Net.readReady_eq hch h₁ rfl hc, Net.setEp_self]
    exact h.ignored hch (fun m hm => by rw [hg] at hm; cases hm) (by simp)
  | ignored resp m hf hg hr hs he =>
    subst hf he
    have hg : msgGet (σ.ep s) (Frame.resp resp).msgid = some m := hg
    rw [Net.readReady_eq hch h₁ rfl hc, Net.setEp_self]
    refine h.ignored hch (fun m' hm => ?_) (by simp)
    rw [hg] at hm
    cases hm
    exact ⟨by simp [Frame.item, MsgResp.item, hr], hs⟩
  | acked resp m m' R hf hg hr hs hw t link =>
    subst hf
    rw [Net.readReady_eq hch h₁ t.only.next hc]
    refine h.acked hch hg (by simp [Frame.item, MsgResp.item, hr]) hs hw t (fun hd => ?_) link
    have := hB hd
    rw [hnext] at this
    simp [this]
  | answered resp m m' hf hg hr hs a =>
    subst hf
    have hitem : (Frame.resp resp).item = .discon := by simp [Frame.item, MsgResp.item, hr]
    rw [Net.readReady_eq hch h₁ a.next hc]
    exact h.answered hch ((h.sw s).get_slot hg) (h.resolve_some hch (by rw [hitem]; simp) hg).2
      hitem hs a hsw
  | freed resp m hf hg hr hs c =>
    subst hf
    have hitem : (Frame.resp resp).item = .discon := by simp [Frame.item, MsgResp.item, hr]
    rw [Net.readReady_eq hch h₁ c.next hc]
    exact h.freed hch ((h.sw s).get_slot hg) (h.resolve_some hch (by rw [hitem]; simp) hg).2
      hitem hs c hsw
  | data p m m' R hf hg t link =>
    subst hf
    have hj := (h.sw s).get_slot hg
    obtain ⟨hd, hp⟩ := h.resolve_some hch (by simp [Frame.item]) hg
    rw [Net.readReady_eq hch h₁ t.only.next hc]
    refine h.recv_turn hch hj hp t (fun _ => id) (fun q hq => by cases hq; rfl) fun y rest' hy =>
      link _ _ _ y rest' hd hy fun hst => ?_
    simp only [Bool.and_eq_true, decide_eq_true_eq] at hst
    have := hA hst.1
    rw [hnext] at this
    simpa [MsgSwitch.acksLate, hg, hd, h.imsgid_pos hj hd hst.2] using this
  | born p sw₁ j m' R hf hg hneg c t link =>
    subst hf
    rcases h.resolve_item hch (by simp [Frame.item]) with ⟨m₁, hg₁, -⟩ | ⟨-, hp⟩
    · have hg : msgGet (σ.ep s) (Frame.pack p).msgid = none := hg
      rw [hg₁] at hg; cases hg
    · have hn : sw.nextAddr ≠ (σ.ep s).nextAddr := by rw [t.only.next, c.next]; omega
      simp only [Net.readReady, hch, h₁, bind, Except.bind, if_neg hn, pure, Except.pure] at hc
      cases hc
      exact h.born hch hneg hp c t hsw link

/-- **Every step keeps the invariant.** -/
theorem NetOK.step {a : Act} (h : NetOK str dns σ) (hF : σ.flushesLate a = false)
    (hA : str = true → σ.acksLate a = false) (hB : dns = true → σ.queuesBlank a = false)
    (hs : σ.step a = .ok σ') : NetOK str dns σ' := by
  cases a with
  | call s op => exact h.call hF hA hB hs
  | writeReady s => exact h.writeReady hs
  | readReady s => exact h.readReady hA hB hs

/-- **It holds wherever a run ends** that avoids the corner cases. -/
theorem NetOK.run {acts : List Act}
    (hC : Run.Along Net.step (fun σ a => σ.flushesLate a = false ∧
      (str = true → σ.acksLate a = false) ∧ (dns = true → σ.queuesBlank a = false)) Net.init acts)
    (hr : Run.run Net.step Net.init acts = .ok σ) : NetOK str dns σ :=
  Run.run_inv (fun _ _ _ h hc hs => h.step hc.1 hc.2.1 hc.2.2 hs) acts _ _ (NetOK.init str dns) hC hr

end Zimr
