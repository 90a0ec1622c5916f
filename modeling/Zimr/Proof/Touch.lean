import Zimr.Proof.NetInv

/-!
# What a step does to the net

`Touch` is what most steps do: one object of one side changes or goes, frames of its own
are put on the wire, and perhaps the frame that came from its peer is taken off. `Birth` is
the making of an object. Both keep the invariant.

* `NetOK.touch`, `NetOK.skipOk` — an object acts; an acknowledgement is ignored
* `NetOK.birth`, `NetOK.opened` — an object is made
-/

namespace Zimr

open Link (Item Step Steps Half Stage)

variable {σ σ' : Net} {s : Side} {j x y : ℕ} {m m' : Msg} {str dns : Bool} {f : Frame}
  {rest F : List Frame} {o : Option Msg} {g : Option Frame}

/-! ## The fields of a net -/

@[simp] theorem Net.setEp_ep (σ : Net) (s : Side) (sw : MsgSwitch) : (σ.setEp s sw).ep s = sw := by
  simp [Net.setEp]

@[simp] theorem Net.setEp_ep_other (σ : Net) (s : Side) (sw : MsgSwitch) :
    (σ.setEp s sw).ep s.other = σ.ep s.other := by
  simp [Net.setEp, Function.update_of_ne s.other_ne]

@[simp] theorem Net.setEp_chan (σ : Net) (s : Side) (sw : MsgSwitch) :
    (σ.setEp s sw).chan = σ.chan := rfl

@[simp] theorem Net.setEp_log (σ : Net) (s : Side) (sw : MsgSwitch) :
    (σ.setEp s sw).log = σ.log := rfl

@[simp] theorem Net.setChan_chan (σ : Net) (s : Side) (w : List Frame) :
    (σ.setChan s w).chan s = w := by
  simp [Net.setChan]

@[simp] theorem Net.setChan_chan_other (σ : Net) (s : Side) (w : List Frame) :
    (σ.setChan s w).chan s.other = σ.chan s.other := by
  simp [Net.setChan, Function.update_of_ne s.other_ne]

@[simp] theorem Net.setChan_other_chan (σ : Net) (s : Side) (w : List Frame) :
    (σ.setChan s.other w).chan s = σ.chan s := by
  simp [Net.setChan, Function.update_of_ne s.other_ne.symm]

@[simp] theorem Net.setChan_ep (σ : Net) (s : Side) (w : List Frame) :
    (σ.setChan s w).ep = σ.ep := rfl

@[simp] theorem Net.setChan_log (σ : Net) (s : Side) (w : List Frame) :
    (σ.setChan s w).log = σ.log := rfl

@[simp] theorem Net.setLog_ep (σ : Net) (s : Side) (x : ℕ) (l : EndLog) :
    (σ.setLog s x l).ep = σ.ep := rfl

@[simp] theorem Net.setLog_chan (σ : Net) (s : Side) (x : ℕ) (l : EndLog) :
    (σ.setLog s x l).chan = σ.chan := rfl

@[simp] theorem Net.setLog_log (σ : Net) (s : Side) (x : ℕ) (l : EndLog) :
    (σ.setLog s x l).log s = Function.update (σ.log s) x l := by
  simp [Net.setLog]

@[simp] theorem Net.setLog_log_other (σ : Net) (s : Side) (x : ℕ) (l : EndLog) :
    (σ.setLog s x l).log s.other = σ.log s.other := by
  simp [Net.setLog, Function.update_of_ne s.other_ne]

@[simp] theorem Net.setLog_other_log (σ : Net) (s : Side) (x : ℕ) (l : EndLog) :
    (σ.setLog s.other x l).log s = σ.log s := by
  simp [Net.setLog, Function.update_of_ne s.other_ne.symm]

/-- What holds of both sides. -/
theorem Side.forall_of {P : Side → Prop} (s : Side) (h : P s) (h' : P s.other) : ∀ t, P t := by
  intro t
  rcases s.eq_or t with rfl | rfl
  · exact h
  · exact h'

/-! ## One object acts -/

/-- The stage a slot's object is at. -/
def stageOf : Option Msg → Stage UInt8
  | some n => .live n.view
  | none => .gone

/-- From `σ` to `σ'` the object `m` of side `s` became `o`, put the frames `F` on the wire and
took the frame `g` off the peer's. -/
structure Touch (σ σ' : Net) (s : Side) (j : ℕ) (m : Msg) (o : Option Msg) (F : List Frame)
    (g : Option Frame) : Prop where
  slot : (σ.ep s).msgs j = some m
  msgs : (σ'.ep s).msgs = Function.update (σ.ep s).msgs j o
  next : (σ'.ep s).nextAddr = (σ.ep s).nextAddr
  other : σ'.ep s.other = σ.ep s.other
  wire : σ'.wire s = σ.wire s ++ F
  wire' : σ.wire s.other = g.toList ++ σ'.wire s.other
  log : ∀ x, x ≠ m.addr → σ'.log s x = σ.log s x
  peer : (σ'.log s m.addr).peer = (σ.log s m.addr).peer
  wid : (σ'.log s m.addr).wid = (σ.log s m.addr).wid
  log' : σ'.log s.other = σ.log s.other
  frames : ∀ f ∈ F, f.owner = m.addr ∧ f.msgid = (σ.log s m.addr).wid
  from_peer : ∀ f, g = some f → σ.peer s.other f.owner = some m.addr

/-- What the object that replaces `m` must keep. -/
structure Follows (dns : Bool) (pend : List MsgPtr) (peer : Option ℕ) (m n : Msg) : Prop where
  addr : n.addr = m.addr
  wire : n.status.disconnected = false → m.status.disconnected = false ∧ n.wireId = m.wireId
  imsgid : n.imsgid ≠ 0 → n.imsgid = m.imsgid
  quiet : n.status.sentDisconnect = true →
    n.status.writing = false ∧ (n.ptr ∈ pend → n.writQueue = [])
  dense : dns = true → DenseQueue n
  need : n.status.needToSendResp = true → n.lastFrom = peer ∧ peer ≠ none
  reads : ∀ p ∈ n.readQueue, peer = some p.owner

theorem Touch.log_same (t : Touch σ σ' s j m o F g) (x : ℕ) :
    (σ'.log s x).peer = (σ.log s x).peer ∧ (σ'.log s x).wid = (σ.log s x).wid := by
  by_cases hx : x = m.addr
  · subst hx; exact ⟨t.peer, t.wid⟩
  · rw [t.log x hx]; exact ⟨rfl, rfl⟩

theorem Touch.ids (t : Touch σ σ' s j m o F g) (h : NetOK str dns σ)
    (ho : ∀ n, o = some n → n.addr = m.addr ∧
      (n.status.disconnected = false → m.status.disconnected = false ∧ n.wireId = m.wireId) ∧
      (n.imsgid ≠ 0 → n.imsgid = m.imsgid)) : ∀ t, σ'.Way t := by
  have ha := (h.sw s).slots.addr _ _ t.slot
  refine Side.forall_of s ?_ ?_
  · unfold Net.Way Net.made
    rw [t.wire, t.msgs, t.other, t.log', t.next]
    have hw := ((h.ids s).append t.slot ha t.frames).update t.slot
      fun n hn => ⟨(ho n hn).1, (ho n hn).2.1⟩
    exact hw.relog t.log_same fun _ => ⟨rfl, rfl⟩
  · unfold Net.Way Net.made
    rw [Side.other_other, t.msgs, t.other, t.log', t.next]
    have hsub : (σ'.wire s.other).Sublist (σ.wire s.other) := by
      rw [t.wire']
      exact List.sublist_append_right _ _
    have hw := ((h.ids_other s).drop hsub).update_other t.slot
      fun n hn => ⟨(ho n hn).1, (ho n hn).2.2⟩
    exact hw.relog (fun _ => ⟨rfl, rfl⟩) t.log_same

theorem Touch.half_same (t : Touch σ σ' s j m o F g) (h : NetOK str dns σ)
    (hs : Slots (σ'.ep s).msgs (σ'.ep s).nextAddr) (ho : ∀ n, o = some n → n.addr = m.addr)
    (hx : x ≠ m.addr) : σ'.half str s x = σ.half str s x := by
  unfold Net.half
  rw [t.log x hx, t.wire, outOf_append, MsgSwitch.stage_update t.slot (h.sw s).slots ho t.msgs hs hx,
    outOf_eq_nil (w := F) fun f hf => by rw [(t.frames f hf).1]; exact hx.symm, List.append_nil]

theorem Touch.half_self (t : Touch σ σ' s j m o F g) (h : NetOK str dns σ)
    (hs : Slots (σ'.ep s).msgs (σ'.ep s).nextAddr) (ho : ∀ n, o = some n → n.addr = m.addr) :
    σ'.half str s m.addr = (σ'.log s m.addr).half (stageOf o)
      (outOf (σ.wire s) m.addr ++ F.map Frame.item) (str && decide (0 < (σ.log s m.addr).wid)) := by
  unfold Net.half
  rw [t.wire, outOf_append, outOf_self fun f hf => (t.frames f hf).1, t.wid]
  congr 1
  cases o with
  | none =>
    refine MsgSwitch.stage_gone fun i n hi => ?_
    rw [t.msgs] at hi
    rcases update_some hi with ⟨-, hn⟩ | ⟨hij, hi⟩
    · cases hn
    · exact fun ha => hij ((h.sw s).slots.inj _ _ _ _ hi t.slot ha)
  | some n =>
    rw [← ho n rfl]
    exact MsgSwitch.stage_live (j := j) hs (by rw [t.msgs]; simp)

theorem Touch.half_other (t : Touch σ σ' s j m o F g) (x : ℕ)
    (hx : ∀ f, g = some f → f.owner ≠ x) : σ'.half str s.other x = σ.half str s.other x := by
  unfold Net.half
  rw [t.other, t.log', t.wire', outOf_append, outOf_eq_nil (w := g.toList), List.nil_append]
  exact fun f hf => hx f (Option.mem_toList.1 hf)

/-- **An object acts.** -/
theorem NetOK.touch (h : NetOK str dns σ) (t : Touch σ σ' s j m o F g)
    (hsw : SwOK False (σ'.ep s))
    (hpend : ∀ p ∈ (σ'.ep s).pendingMsgs, p ∈ (σ.ep s).pendingMsgs ∨ p = m.ptr)
    (ho : ∀ n, o = some n → Follows dns (σ'.ep s).pendingMsgs (σ.peer s m.addr) m n)
    (hF : ∀ r, Frame.resp r ∈ F → r.status = .ok →
      r.ackOf = σ.peer s m.addr ∧ σ.peer s m.addr ≠ none)
    (link : ∀ (y : Half UInt8) rest, y.out = (g.map Frame.item).toList ++ rest →
      Steps (str = false) (dns = false)
        ((σ.log s m.addr).half (.live m.view) (outOf (σ.wire s) m.addr)
          (str && decide (0 < (σ.log s m.addr).wid))) y
        ((σ'.log s m.addr).half (stageOf o) (outOf (σ.wire s) m.addr ++ F.map Frame.item)
          (str && decide (0 < (σ.log s m.addr).wid))) { y with out := rest }) :
    NetOK str dns σ' := by
  have hslots := (h.sw s).slots
  have ha := hslots.addr _ _ t.slot
  have haddr : ∀ n, o = some n → n.addr = m.addr := fun n hn => (ho n hn).addr
  -- what holds of the other objects of the side is kept
  have hcase : ∀ {i n}, (σ'.ep s).msgs i = some n →
      (i = j ∧ o = some n) ∨ (n.addr ≠ m.addr ∧ (σ.ep s).msgs i = some n) := by
    intro i n hi
    rw [t.msgs] at hi
    rcases update_some hi with hi | ⟨hij, hi⟩
    · exact Or.inl hi
    · exact Or.inr ⟨fun ha => hij (hslots.inj _ _ _ _ hi t.slot ha), hi⟩
  refine ⟨?_, ?_, fun hd => ?_, ?_, ?_, ?_⟩
  · exact Side.forall_of s hsw (by rw [t.other]; exact h.sw _)
  · refine Side.forall_of s ?_ (by rw [t.other]; exact h.quiet _)
    intro i n hi hsent
    rcases hcase hi with ⟨-, hn⟩ | ⟨hne, hi⟩
    · exact (ho n hn).quiet hsent
    · obtain ⟨h1, h2⟩ := h.quiet s i n hi hsent
      refine ⟨h1, fun hp => h2 ((hpend _ hp).resolve_right fun he => hne ?_)⟩
      exact (Msg.ptr_eq_iff.1 he).1
  · refine Side.forall_of s ?_ (by rw [t.other]; exact h.dense hd _)
    intro i n hi
    rcases hcase hi with ⟨-, hn⟩ | ⟨-, hi⟩
    · exact (ho n hn).dense hd
    · exact h.dense hd s i n hi
  · exact t.ids h fun n hn => ⟨(ho n hn).addr, (ho n hn).wire, (ho n hn).imsgid⟩
  · refine Side.forall_of s ⟨?_, ?_, ?_⟩ ?_
    · intro i n hi hneed
      rw [(t.log_same _).1]
      rcases hcase hi with ⟨-, hn⟩ | ⟨-, hi⟩
      · rw [haddr n hn]; exact (ho n hn).need hneed
      · exact (h.src s).need i n hi hneed
    · intro i n hi p hp
      rw [(t.log_same _).1]
      rcases hcase hi with ⟨-, hn⟩ | ⟨-, hi⟩
      · rw [haddr n hn]; exact (ho n hn).reads p hp
      · exact (h.src s).reads i n hi p hp
    · intro r hr hok
      rw [(t.log_same _).1]
      rw [t.wire] at hr
      rcases List.mem_append.1 hr with hr | hr
      · exact (h.src s).acks r hr hok
      · have := (t.frames _ hr).1
        simp only [Frame.owner] at this
        rw [this]; exact hF r hr hok
    · have hsrc := h.src s.other
      rw [t.other, t.log']
      refine ⟨hsrc.need, hsrc.reads, fun r hr => hsrc.acks r ?_⟩
      rw [t.wire']; exact List.mem_append_right _ hr
  · -- the links
    have hpeer : σ'.peer = σ.peer := by
      funext t' x
      revert t'
      exact Side.forall_of s (t.log_same x).1 (by unfold Net.peer; rw [t.log'])
    have hmade : σ'.made = σ.made := by
      funext t'
      revert t'
      exact Side.forall_of s t.next (by unfold Net.made; rw [t.other])
    unfold Net.Linked
    rw [hpeer, hmade]
    refine Link.AllSound.steps Side.other_other Side.eq_or h.mutual h.link (s := s) (a := m.addr)
      ha (fun x hx => t.half_same h hsw.slots haddr hx) (fun x hx => ?_) ?_
    · refine t.half_other x fun f hf hfx => hx ?_
      have hp := t.from_peer f hf
      have hfw := (h.ids_other s).frame f (by rw [t.wire', hf]; simp)
      have := ((h.ids_other s).peer _ _ hfw.1 hp).2.1
      rw [← hfx]; exact this
    · rw [t.half_self h hsw.slots haddr]
      have hhalf : σ.half str s m.addr = (σ.log s m.addr).half (.live m.view)
          (outOf (σ.wire s) m.addr) (str && decide (0 < (σ.log s m.addr).wid)) := by
        unfold Net.half; rw [MsgSwitch.stage_live hslots t.slot]
      rw [hhalf]
      cases hg : g with
      | none =>
        have hsame : Link.across Side.other (.unborn str) (σ'.half str) σ.peer s m.addr =
            Link.across Side.other (.unborn str) (σ.half str) σ.peer s m.addr :=
          Link.across_congr rfl fun c _ => t.half_other c fun f hf => by rw [hg] at hf; cases hf
        rw [hsame]
        have := link (Link.across Side.other (.unborn str) (σ.half str) σ.peer s m.addr)
          _ (by rw [hg]; rfl)
        exact this
      | some f =>
        have hp := t.from_peer f hg
        have hfw := (h.ids_other s).frame f (by rw [t.wire', hg]; simp)
        have hmp : σ.peer s m.addr = some f.owner := ((h.ids_other s).peer _ _ hfw.1 hp).2.1
        unfold Link.across
        rw [hmp]
        simp only
        have hout : (σ.half str s.other f.owner).out = f.item :: outOf (σ'.wire s.other) f.owner := by
          change outOf (σ.wire s.other) f.owner = _
          rw [t.wire', hg]; simp [outOf]
        have hnew : σ'.half str s.other f.owner =
            { σ.half str s.other f.owner with out := outOf (σ'.wire s.other) f.owner } := by
          unfold Net.half; rw [t.other, t.log']; rfl
        rw [hnew]
        exact link _ _ (by rw [hg]; exact hout)

/-- An acknowledgement that no one waits for is taken off the wire. -/
theorem NetOK.skipOk (h : NetOK str dns σ) (hw : σ.chan s.other = f :: rest)
    (hf : f.item = .ok) (hp : σ.peer s.other f.owner = some y) (hs : (σ.half str s y).Sent) :
    NetOK str dns (σ.setChan s.other rest) := by
  have hwire : (σ.setChan s.other rest).wire s = σ.wire s := by simp [Net.wire]
  have hwire' : σ.wire s.other = f :: (σ.setChan s.other rest).wire s.other := by
    simp [Net.wire, hw]
  have hfw := (h.ids_other s).frame f (by rw [hwire']; exact List.mem_cons_self)
  obtain ⟨hyn, hyp, -⟩ := (h.ids_other s).peer _ _ hfw.1 hp
  have hsub : ((σ.setChan s.other rest).wire s.other).Sublist (σ.wire s.other) := by
    rw [hwire']; exact List.sublist_cons_self _ _
  refine ⟨h.sw, h.quiet, h.dense, Side.forall_of s ?_ ?_, Side.forall_of s ?_ ?_, ?_⟩
  · unfold Net.Way; rw [hwire]; exact h.ids s
  · exact (h.ids s.other).drop hsub
  · rw [hwire]; exact h.src s
  · have hsrc := h.src s.other
    exact ⟨hsrc.need, hsrc.reads, fun r hr => hsrc.acks r (hsub.subset hr)⟩
  · refine Link.AllSound.steps Side.other_other Side.eq_or h.mutual h.link (s := s) (a := y) hyn
      (fun x _ => by unfold Net.half; rw [hwire]; rfl) (fun x hx => ?_) ?_
    · have hne : f.owner ≠ x := fun he => hx (by rw [← he]; exact hyp)
      have hout : outOf (σ.wire s.other) x = outOf ((σ.setChan s.other rest).wire s.other) x := by
        rw [hwire']; simp [outOf, hne]
      unfold Net.half
      rw [hout]; rfl
    · have hsame : (σ.setChan s.other rest).half str s y = σ.half str s y := by
        unfold Net.half; rw [hwire]; rfl
      have hout : (σ.half str s.other f.owner).out =
          .ok :: outOf ((σ.setChan s.other rest).wire s.other) f.owner := by
        change outOf (σ.wire s.other) f.owner = _
        rw [hwire', ← hf]; simp [outOf]
      unfold Link.across
      rw [hsame, show (σ.setChan s.other rest).peer s y = some f.owner from hyp]
      exact Steps.single (Step.ignoreOk hs hout)

/-- Nothing that the invariant speaks of changes. -/
theorem NetOK.congr (h : NetOK str dns σ) (hsw : ∀ s, SwOK False (σ'.ep s))
    (hmsgs : ∀ s, (σ'.ep s).msgs = (σ.ep s).msgs)
    (hpend : ∀ s, (σ'.ep s).pendingMsgs = (σ.ep s).pendingMsgs)
    (hnext : ∀ s, (σ'.ep s).nextAddr = (σ.ep s).nextAddr)
    (hwire : ∀ s, σ'.wire s = σ.wire s) (hlog : σ'.log = σ.log) : NetOK str dns σ' := by
  refine ⟨hsw, fun s => ?_, fun hd s => ?_, fun s => ?_, fun s => ?_, ?_⟩
  · unfold Quiet; rw [hmsgs, hpend]; exact h.quiet s
  · rw [hmsgs]; exact h.dense hd s
  · unfold Net.Way Net.made
    rw [hwire, hmsgs, hmsgs, hlog, hnext, hnext]; exact h.ids s
  · rw [hwire, hmsgs, hlog]; exact h.src s
  · have hhalf : σ'.half str = σ.half str := by
      funext s x
      unfold Net.half
      rw [hlog, hwire, MsgSwitch.stage_congr (hmsgs s)]
    have hpeer : σ'.peer = σ.peer := by unfold Net.peer; rw [hlog]
    have hmade : σ'.made = σ.made := funext hnext
    unfold Net.Linked
    rw [hhalf, hpeer, hmade]
    exact h.link

/-! ## A new object -/

/-- From `σ` to `σ'` side `s` made the object `n` in slot `j`, which put the frames `F` on the
wire; the frame `g` was taken off the peer's. -/
structure Birth (σ σ' : Net) (s : Side) (j : ℕ) (n : Msg) (F : List Frame) (g : Option Frame) :
    Prop where
  free : (σ.ep s).msgs j = none
  addr : n.addr = (σ.ep s).nextAddr
  msgs : (σ'.ep s).msgs = Function.update (σ.ep s).msgs j (some n)
  next : (σ'.ep s).nextAddr = (σ.ep s).nextAddr + 1
  pend : ∀ p ∈ (σ'.ep s).pendingMsgs, p ∈ (σ.ep s).pendingMsgs ∨ p = n.ptr
  other : σ'.ep s.other = σ.ep s.other
  wire : σ'.wire s = σ.wire s ++ F
  wire' : σ.wire s.other = g.toList ++ σ'.wire s.other
  log : ∀ x, x < (σ.ep s).nextAddr → σ'.log s x = σ.log s x
  log' : ∀ x, σ.peer s.other x ≠ none → σ'.log s.other x = σ.log s.other x
  frames : ∀ f ∈ F, f.owner = n.addr

/-- The objects of the side, after a birth. -/
theorem Birth.cases {n n' : Msg} {i : ℕ} (b : Birth σ σ' s j n F g)
    (hs : Slots (σ.ep s).msgs (σ.ep s).nextAddr) (hi : (σ'.ep s).msgs i = some n') :
    n' = n ∨ (n'.addr ≠ n.addr ∧ (σ.ep s).msgs i = some n') := by
  rw [b.msgs] at hi
  rcases update_some hi with ⟨-, he⟩ | ⟨-, hi⟩
  · exact Or.inl (Option.some.inj he).symm
  · refine Or.inr ⟨?_, hi⟩
    have := hs.addr _ _ hi
    have := b.addr
    omega

theorem Birth.stage_old {n : Msg} (b : Birth σ σ' s j n F g)
    (hs : Slots (σ.ep s).msgs (σ.ep s).nextAddr) (hs' : Slots (σ'.ep s).msgs (σ'.ep s).nextAddr)
    (hx : x < (σ.ep s).nextAddr) : (σ'.ep s).stage x = (σ.ep s).stage x := by
  rcases MsgSwitch.stage_cases hs x with ⟨i, n', hi, rfl, hst⟩ | ⟨hno, hst⟩
  · rw [hst]
    refine MsgSwitch.stage_live (j := i) hs' ?_
    rw [b.msgs, Function.update_of_ne]
    · exact hi
    · rintro rfl; rw [b.free] at hi; cases hi
  · rw [hst]
    refine MsgSwitch.stage_gone fun i n' hi => ?_
    rcases b.cases hs hi with rfl | ⟨-, hi⟩
    · rw [b.addr]; omega
    · exact hno i n' hi

/-- What is there of the older objects of the side stays. -/
theorem Birth.half_old {n : Msg} (b : Birth σ σ' s j n F g)
    (hs : Slots (σ.ep s).msgs (σ.ep s).nextAddr) (hs' : Slots (σ'.ep s).msgs (σ'.ep s).nextAddr)
    (hx : x < (σ.ep s).nextAddr) : σ'.half str s x = σ.half str s x := by
  unfold Net.half
  rw [b.log x hx, b.stage_old hs hs' hx, b.wire, outOf_append, outOf_eq_nil (w := F),
    List.append_nil]
  intro f hf
  rw [b.frames f hf, b.addr]; omega

/-- **An object is made**, apart from ids and links. -/
theorem NetOK.birth {n : Msg} (h : NetOK str dns σ) (b : Birth σ σ' s j n F g)
    (hsw : SwOK False (σ'.ep s)) (hids : ∀ t, σ'.Way t) (hlink : σ'.Linked str dns)
    (hshut : n.status.sentDisconnect = true → n.writQueue = []) (hdense : DenseQueue n)
    (hneed : n.status.needToSendResp = true →
      n.lastFrom = (σ'.log s n.addr).peer ∧ (σ'.log s n.addr).peer ≠ none)
    (hreads : ∀ p ∈ n.readQueue, (σ'.log s n.addr).peer = some p.owner)
    (hF : ∀ r, Frame.resp r ∈ F → r.status = .ok →
      r.ackOf = (σ'.log s n.addr).peer ∧ (σ'.log s n.addr).peer ≠ none) :
    NetOK str dns σ' := by
  have hslots := (h.sw s).slots
  refine ⟨?_, ?_, fun hd => ?_, hids, ?_, hlink⟩
  · exact Side.forall_of s hsw (by rw [b.other]; exact h.sw _)
  · refine Side.forall_of s ?_ (by rw [b.other]; exact h.quiet _)
    intro i n' hi hs'
    rcases b.cases hslots hi with rfl | ⟨hne, hi⟩
    · refine ⟨?_, fun _ => hshut hs'⟩
      cases hw : n'.status.writing with
      | false => rfl
      | true =>
        have hok := hsw.slots.ok j n' (by rw [b.msgs]; simp)
        exact absurd (hshut hs') (hok.writing hw).2
    · obtain ⟨h1, h2⟩ := h.quiet s i n' hi hs'
      exact ⟨h1, fun hp => h2 ((b.pend _ hp).resolve_right fun he => hne (Msg.ptr_eq_iff.1 he).1)⟩
  · refine Side.forall_of s ?_ (by rw [b.other]; exact h.dense hd _)
    intro i n' hi
    rcases b.cases hslots hi with rfl | ⟨-, hi⟩
    · exact hdense
    · exact h.dense hd s i n' hi
  · refine Side.forall_of s ⟨?_, ?_, ?_⟩ ?_
    · intro i n' hi hn
      rcases b.cases hslots hi with rfl | ⟨-, hi⟩
      · exact hneed hn
      · rw [b.log _ (hslots.addr _ _ hi)]; exact (h.src s).need i n' hi hn
    · intro i n' hi p hp
      rcases b.cases hslots hi with rfl | ⟨-, hi⟩
      · exact hreads p hp
      · rw [b.log _ (hslots.addr _ _ hi)]; exact (h.src s).reads i n' hi p hp
    · intro r hr hok
      rw [b.wire] at hr
      rcases List.mem_append.1 hr with hr | hr
      · rw [b.log r.owner ((h.ids s).frame _ hr).1]; exact (h.src s).acks r hr hok
      · have := b.frames _ hr
        simp only [Frame.owner] at this
        rw [this]; exact hF r hr hok
    · -- whoever has a peer keeps it
      have hsrc := h.src s.other
      rw [b.other]
      refine ⟨fun i n' hi hn => ?_, fun i n' hi p hp => ?_, fun r hr hok => ?_⟩
      · have := hsrc.need i n' hi hn
        rw [b.log' _ this.2]; exact this
      · have := hsrc.reads i n' hi p hp
        rw [b.log' _ (by unfold Net.peer; rw [this]; simp)]; exact this
      · have := hsrc.acks r (by rw [b.wire']; exact List.mem_append_right _ hr) hok
        rw [b.log' _ this.2]; exact this

/-- The peer of an object is an object of the other side. -/
theorem NetOK.peer_made (h : NetOK str dns σ) (hx : x < σ.made s.other)
    (hp : σ.peer s.other x = some y) : y < σ.made s :=
  ((h.ids_other s).peer x y hx hp).1

/-- A new object whose other half is to be born. -/
theorem NetOK.opened {sw : MsgSwitch} {type : ℤ} (h : NetOK str dns σ)
    (c : Creates (σ.ep s) sw j (.fresh (σ.ep s).nextAddr j type true 0) (σ.ep s).imsgidMap)
    (hsw : SwOK False sw) :
    NetOK str dns ((σ.setEp s sw).setLog s (σ.ep s).nextAddr { wid := -(j : ℤ) }) := by
  set σ' := (σ.setEp s sw).setLog s (σ.ep s).nextAddr { wid := -(j : ℤ) } with hσ'
  have hj := c.slot.1
  have hep : σ'.ep s = sw := by simp [hσ']
  have hwire : ∀ t, σ'.wire t = σ.wire t :=
    Side.forall_of s (by simp [hσ', Net.wire, c.resps]) (by simp [hσ', Net.wire])
  have hlog : ∀ x, x < (σ.ep s).nextAddr → σ'.log s x = σ.log s x := fun x hx => by
    simp [hσ', hx.ne]
  have hnew : σ'.log s (σ.ep s).nextAddr = { wid := -(j : ℤ) } := by simp [hσ']
  have hlog' : σ'.log s.other = σ.log s.other := by simp [hσ']
  have hother : σ'.ep s.other = σ.ep s.other := by simp [hσ']
  have b : Birth σ σ' s j (.fresh (σ.ep s).nextAddr j type true 0) [] none :=
    ⟨c.free, rfl, by rw [hep]; exact c.msgs, by rw [hep]; exact c.next,
      fun p hp => Or.inl (by rw [hep, c.pend] at hp; exact hp), hother, by rw [hwire]; simp,
      by rw [hwire]; rfl, hlog, fun x _ => by rw [hlog'], (by simp)⟩
  have hwid : (Msg.fresh (σ.ep s).nextAddr j type true 0).wireId = -(j : ℤ) := rfl
  have hsw' : SwOK False (σ'.ep s) := by rw [hep]; exact hsw
  refine h.birth b hsw' (Side.forall_of s ?_ ?_) ?_ (by simp [Msg.fresh])
    ⟨by simp [Msg.fresh], by simp [Msg.fresh]⟩ (by simp [Msg.fresh]) (by simp [Msg.fresh])
    (by simp [Msg.fresh])
  · unfold Net.Way Net.made
    rw [hwire, b.msgs, b.next, hother]
    refine Way.insert (h.ids s) (h.sw s).slots (h.sw s.other).slots c.free rfl hlog
      (by rw [hnew, hwid]) (by rw [hnew]; simp; omega) (fun _ => by rw [hnew]) ?_ ?_
      (fun y _ => by rw [hlog']) (fun i n _ _ => by rw [hlog']) fun a x ha hp => h.peer_made ha hp
    · intro y hy; rw [hnew] at hy; cases hy
    · intro hpos; rw [hnew] at hpos; simp at hpos; omega
  · unfold Net.Way Net.made
    rw [hwire, Side.other_other, b.msgs, b.next, hother, hlog']
    exact Way.insert_other (h.ids_other s) (h.sw s).slots rfl (fun _ => rfl)
      (fun x y _ hp => Or.inl hp) (fun _ => id) hlog fun x hi => absurd rfl hi
  · refine Link.AllSound.opened (v := false) h.mutual h.link ?_ ?_ (s := s) ?_ ?_
    · intro t
      revert t
      refine Side.forall_of s (fun x hx => ?_) fun x hx => ?_
      · exact ⟨b.half_old (h.sw s).slots hsw'.slots hx, by unfold Net.peer; rw [hlog x hx]⟩
      · unfold Net.half Net.peer
        rw [hlog', hother, hwire]; exact ⟨rfl, rfl⟩
    · intro t
      revert t
      refine Side.forall_of s (fun x hx => ?_) fun x hx => ?_
      · unfold Net.made at hx ⊢
        rw [b.next] at hx
        exact (Nat.lt_succ_iff_lt_or_eq.1 hx).imp id fun he => ⟨rfl, he⟩
      · unfold Net.made at hx ⊢
        rw [hother] at hx
        exact Or.inl hx
    · unfold Net.half
      have hlive : (σ'.ep s).stage (σ.made s) = _ :=
        MsgSwitch.stage_live (j := j) (m := .fresh (σ.ep s).nextAddr j type true 0) hsw'.slots
          (by rw [b.msgs]; simp)
      have hout : outOf (σ'.wire s) (σ.made s) = [] :=
        outOf_eq_nil fun f hf => ((h.ids s).frame f (by rw [← hwire]; exact hf)).1.ne
      rw [hlive, hout]
      have : σ'.log s (σ.made s) = _ := hnew
      rw [this]
      have hstr : (str && decide (0 < -(j : ℤ))) = false := by simp
      simp only [hstr]
      rfl
    · unfold Net.peer; exact congrArg EndLog.peer hnew

end Zimr
