import Zimr.Proof.Faults
import Zimr.Spec.Switches

/-!
# The tables of an endpoint

`msgs`, `imsgid_map` and the ids inside the objects agree in every run of one endpoint,
whatever is called and received and also after its socket has failed; and so do the flags
of an object and its queues.

* `id_maps_bijective` — the tables
* `flags_match_queues` — the flags
-/

namespace Zimr

open Run

variable {sw sw' : MsgSwitch} {e : SockEvent} {m n : Msg} {j : ℕ}

/-- The id of the peer's that a step creates a msg for. -/
def MsgSwitch.makes (sw : MsgSwitch) : SockEvent → Option ℕ
  | .event (.recv (.pack p)) => if (msgGet sw p.msgid).isNone then some p.msgid.natAbs else none
  | _ => none

/-- The object last created for each id of the peer's, along a run. -/
def lastMade : MsgSwitch → List SockEvent → (ℕ → Option ℕ) → ℕ → Option ℕ
  | _, [], made => made
  | sw, e :: es, made =>
    let made := match sw.makes e with
      | some i => Function.update made i (some sw.nextAddr)
      | none => made
    match sw.sockStep e with
    | .ok sw' => lastMade sw' es made
    | .error _ => made

/-- Where the object `n` of an endpoint comes from. -/
inductive Came (sw : MsgSwitch) (e : SockEvent) (n : Msg) : Prop
  | old (j : ℕ) (m : Msg) (hj : sw.msgs j = some m) (ha : n.addr = m.addr)
      (hi : n.imsgid = m.imsgid ∨ n.imsgid = 0)
  | new (ha : n.addr = sw.nextAddr) (hi : n.imsgid = 0 ∨ sw.makes e = some n.imsgid)

/-- One slot was written. -/
theorem Came.update {o : Option Msg} {i : ℕ} (hm : sw'.msgs = Function.update sw.msgs j o)
    (hi : sw'.msgs i = some n) (ho : ∀ m, o = some m → Came sw e m) : Came sw e n := by
  rw [hm] at hi
  rcases update_some hi with ⟨-, he⟩ | ⟨-, hi⟩
  · exact ho n he
  · exact .old i n hi rfl (Or.inl rfl)

/-- `msg_close` when the socket has failed: the msg is freed. -/
theorem msgClose_cut (hconn : sw.connected = false) {r : Except Errno ℕ}
    (hc : msgClose sw j = .ok (sw', r)) :
    sw' = sw ∨ ∃ m, sw.msgs j = some m ∧ Clears sw sw' j m none (m.unmap sw.imsgidMap) := by
  cases hj : sw.msgs j with
  | none =>
    simp only [msgClose, hj, pure, Except.pure] at hc
    cases hc; exact Or.inl rfl
  | some m =>
    obtain ⟨sw₁, h₁, o₁⟩ := msgClrRead_only hj
    obtain ⟨sw₂, h₂, o₂⟩ := msgClrWrite_only o₁.get
    have o : Only sw sw₂ j m [] [] := by simpa using o₁.trans o₂
    have hconn₂ : sw₂.connected = false := o.conn.trans hconn
    obtain ⟨sw₃, hf, c⟩ := msgFree_clears o.get
    cases hcl : m.status.closed with
    | true =>
      simp only [msgClose, hj, hcl, if_true, pure, Except.pure] at hc
      cases hc; exact Or.inl rfl
    | false =>
      simp [msgClose, hj, hcl, h₁, h₂, hf, hconn₂, bind, Except.bind, pure, Except.pure] at hc
      obtain ⟨rfl, -⟩ := hc
      rw [o.map] at c
      exact Or.inr ⟨m, rfl, Clears.of_only o c rfl rfl⟩

/-- **A call.** -/
theorem Tables.call {op : Op} {ret : OpRet} (h : Tables sw) (hc : sw.call op = .ok (sw', ret)) :
    Tables sw' ∧ ∀ i n, sw'.msgs i = some n → Came sw (.event (.call op)) n := by
  -- only `msg_close` looks at whether the socket has failed
  by_cases hcut : sw.connected = false ∧ ∃ i, op = .close i
  · obtain ⟨hconn, i, rfl⟩ := hcut
    obtain ⟨⟨sw₁, r⟩, h₁, h₂⟩ := bind_ok hc
    cases h₂
    rcases msgClose_cut hconn h₁ with rfl | ⟨m, hj, c⟩
    · exact ⟨h, fun i n hi => .old i n hi rfl (Or.inl rfl)⟩
    · exact ⟨h.clears hj c, fun i n hi => Came.update c.msgs hi fun m hm => by cases hm⟩
  · have hconn : sw.connected = true ∨ ∀ i, op ≠ .close i := by
      rw [not_and_or, not_exists] at hcut
      exact hcut.imp (by simp) id
    cases h.slots.call_eff (S := True) (H := True) hconn hc with
    | idle _ he _ => subst he; exact ⟨h, fun i n hi => .old i n hi rfl (Or.inl rfl)⟩
    | turn j m m' R hop hj t _ =>
      refine ⟨h.turn hj t, fun i n hi => Came.update t.only.msgs hi fun m hm => ?_⟩
      cases hm
      exact .old j _ hj (Msg.ptr_eq_iff.1 t.ptr).1 (Or.inl t.imsgid)
    | freed j m hop hj c _ =>
      exact ⟨h.clears hj c, fun i n hi => Came.update c.msgs hi fun m hm => by cases hm⟩
    | opened j type hop hret c =>
      refine ⟨h.creates (k := 0) (by simpa using c) fun h => absurd rfl h, fun i n hi => ?_⟩
      exact Came.update c.msgs hi fun m hm => by cases hm; exact .new rfl (Or.inl rfl)

/-- **A frame.** -/
theorem Tables.dispatch {frame : Frame} (h : Tables sw)
    (hc : msgSwitchDispatch sw frame = .ok sw') :
    Tables sw' ∧ ∀ i n, sw'.msgs i = some n → Came sw (.event (.recv frame)) n := by
  have hsame : ∀ i n, sw.msgs i = some n → Came sw (.event (.recv frame)) n := fun i n hi =>
    .old i n hi rfl (Or.inl rfl)
  cases h.slots.dispatch_eff (S := True) (H := True) hc with
  | dropped resp hf hg he => subst he; exact ⟨h, hsame⟩
  | ignored resp m hf hg hr hs he => subst he; exact ⟨h, hsame⟩
  | acked resp m m' R hf hg hr hs hw t _ =>
    have hj := h.slots.get_slot hg
    refine ⟨h.turn hj t, fun i n hi => Came.update t.only.msgs hi fun n hn => ?_⟩
    cases hn
    exact .old _ _ hj (Msg.ptr_eq_iff.1 t.ptr).1 (Or.inl t.imsgid)
  | answered resp m m' hf hg hr hs a =>
    have hj := h.slots.get_slot hg
    refine ⟨h.answers hj a, fun i n hi => Came.update a.msgs hi fun n hn => ?_⟩
    cases hn
    exact .old _ _ hj (Msg.ptr_eq_iff.1 a.ptr).1 (Or.inr (a.ok.disc a.disc).2)
  | freed resp m hf hg hr hs c =>
    exact ⟨h.clears (h.slots.get_slot hg) c,
      fun i n hi => Came.update c.msgs hi fun n hn => by cases hn⟩
  | data p m m' R hf hg t _ =>
    have hj := h.slots.get_slot hg
    refine ⟨h.turn hj t, fun i n hi => Came.update t.only.msgs hi fun n hn => ?_⟩
    cases hn
    exact .old _ _ hj (Msg.ptr_eq_iff.1 t.ptr).1 (Or.inl t.imsgid)
  | born p sw₁ j m' R hf hg hneg c t _ =>
    have hk : p.msgid.natAbs ≠ 0 := by omega
    have h₁ : Tables sw₁ := h.creates (k := p.msgid.natAbs) (by rwa [if_neg hk])
      fun _ => h.unmapped hneg hg
    have hm : sw'.msgs = Function.update sw.msgs j (some m') := by
      rw [t.only.msgs, c.msgs, Function.update_idem]
    refine ⟨h₁.turn (by rw [c.msgs]; simp) t, fun i n hi => Came.update hm hi fun n hn => ?_⟩
    cases hn
    refine .new (Msg.ptr_eq_iff.1 t.ptr).1 (Or.inr ?_)
    rw [hf, t.imsgid]
    simp [MsgSwitch.makes, hg, Msg.fresh]

/-- **A step keeps the tables**, and every object after it was there or is new. -/
theorem Tables.sockStep (h : Tables sw) (hs : sw.sockStep e = .ok sw') :
    Tables sw' ∧ ∀ i n, sw'.msgs i = some n → Came sw e n := by
  have hsame : ∀ i n, sw.msgs i = some n → Came sw e n := fun i n hi =>
    .old i n hi rfl (Or.inl rfl)
  cases e with
  | failed => cases hs; exact ⟨⟨h.slots, h.maps⟩, hsame⟩
  | event ev =>
    cases ev with
    | call op =>
      obtain ⟨⟨sw₁, ret⟩, h₁, h₂⟩ := bind_ok hs
      cases h₂; exact h.call h₁
    | recv frame => exact h.dispatch hs
    | writeReady =>
      simp only [MsgSwitch.sockStep, MsgSwitch.step] at hs
      split_ifs at hs
      swap
      · cases hs; exact ⟨h, hsame⟩
      obtain ⟨⟨sw₁, frame⟩, h₁, h₂⟩ := bind_ok hs
      cases h₂
      rcases msgSwitchWrite_cases h.slots h₁ with
        ⟨r, rest, -, -, rfl⟩ | ⟨m, p, rest, tail, sw₂, -, -, hj, hq, -, rfl, o⟩
      · refine ⟨h.responds rest, fun i n hi => ?_⟩
        rw [(MsgSwitch.disarm_eq _).1] at hi
        exact hsame i n hi
      · have hm : sw₂.disarm.msgs = Function.update sw.msgs m.msgid (some (m.popWrit rest)) := by
          rw [(MsgSwitch.disarm_eq _).1]; exact o.msgs
        refine ⟨h.pops hj hq o, fun i n hi => Came.update hm hi fun n hn => ?_⟩
        cases hn
        exact .old _ m hj rfl (Or.inl rfl)

theorem Tables.create : Tables msgSwitchCreate :=
  (SwOK.create : SwOK True msgSwitchCreate).toTables

/-! ## The ids -/

/-- The three places an id is kept in agree, and `made` knows the current objects. -/
structure IdBijection (sw : MsgSwitch) (made : ℕ → Option ℕ) : Prop where
  slot : ∀ j m, sw.msgs j = some m → m.msgid = j
  target : ∀ i j, 0 < i → 0 < j → sw.imsgidMap i = j → ∃ m, sw.msgs j = some m ∧ m.imsgid = i
  source : ∀ j m, sw.msgs j = some m → 0 < m.imsgid → sw.imsgidMap m.imsgid = m.msgid
  /-- At most one live msg has the id. -/
  unique : ∀ i j m n, sw.msgs i = some m → sw.msgs j = some n → 0 < m.imsgid →
    m.imsgid = n.imsgid → i = j
  /-- A negative id stands for the live msg with that `imsgid`, -/
  resolve : ∀ i : ℕ, 0 < i → ∀ m,
    msgGet sw (-(i : ℤ)) = some m ↔ ∃ j, sw.msgs j = some m ∧ m.imsgid = i
  /-- which is the object created for the msg the peer last opened under it. -/
  current : ∀ i : ℕ, 0 < i → ∀ m, msgGet sw (-(i : ℤ)) = some m → made i = some m.addr

/-- What `lastMade` knows. -/
def Made (sw : MsgSwitch) (made : ℕ → Option ℕ) : Prop :=
  ∀ j m, sw.msgs j = some m → m.imsgid ≠ 0 → made m.imsgid = some m.addr

/-- An id for which a msg is created belongs to no object. -/
theorem Tables.makes_new (h : Tables sw) {i : ℕ} (hm : sw.makes e = some i)
    (hs : sw.sockStep e = .ok sw') (hj : sw.msgs j = some m) (hne : m.imsgid ≠ 0) :
    m.imsgid ≠ i := by
  unfold MsgSwitch.makes at hm
  split at hm
  swap
  · cases hm
  rename_i p
  split_ifs at hm with hg
  have hg : msgGet sw p.msgid = none := by simpa using hg
  cases hm
  intro heq
  -- the id is negative, or the endpoint has stopped
  rcases dispatch_new_cases hg with ⟨-, he⟩ | ⟨-, he, -⟩ | ⟨hneg, -⟩
  · rw [MsgSwitch.sockStep, MsgSwitch.step, he] at hs; cases hs
  · rw [MsgSwitch.sockStep, MsgSwitch.step, he] at hs; cases hs
  · have hmap := h.maps.imsgid _ _ hj hne
    rw [heq, h.unmapped hneg hg] at hmap
    have := (h.slots.slot _ _ hj).1
    omega

/-- **A step keeps what `lastMade` knows.** -/
theorem Made.sockStep {made : ℕ → Option ℕ} (h : Tables sw) (hM : Made sw made)
    (hs : sw.sockStep e = .ok sw') :
    Made sw' (match sw.makes e with
      | some i => Function.update made i (some sw.nextAddr)
      | none => made) := by
  intro i n hi hne
  cases (h.sockStep hs).2 i n hi with
  | old j m hj ha hid =>
    have hid : n.imsgid = m.imsgid := hid.resolve_right hne
    rw [hid] at hne ⊢
    rw [ha]
    cases hm : sw.makes e with
    | none => exact hM j m hj hne
    | some k =>
      simp only
      rw [Function.update_of_ne (h.makes_new hm hs hj hne)]
      exact hM j m hj hne
  | new ha hid =>
    rw [hid.resolve_left hne, ha]
    simp

theorem Made.run : ∀ (es : List SockEvent) (sw sw' : MsgSwitch) (made : ℕ → Option ℕ),
    Tables sw → Made sw made → run MsgSwitch.sockStep sw es = .ok sw' →
      Tables sw' ∧ Made sw' (lastMade sw es made) := by
  intro es
  induction es with
  | nil => intro sw sw' made h hM hr; cases hr; exact ⟨h, hM⟩
  | cons e es ih =>
    intro sw sw' made h hM hr
    obtain ⟨sw₁, hs, hr⟩ := run_cons_ok hr
    have := ih sw₁ sw' _ (h.sockStep hs).1 (hM.sockStep h hs) hr
    unfold lastMade
    rw [hs]
    exact this

/-- Ids that stand for a live msg. -/
theorem Tables.resolve (h : Tables sw) {i : ℕ} (hi : 0 < i) :
    msgGet sw (-(i : ℤ)) = some m ↔ ∃ j, sw.msgs j = some m ∧ m.imsgid = i := by
  have hget : msgGet sw (-(i : ℤ)) =
      if sw.imsgidMap i ≠ 0 then sw.msgs (sw.imsgidMap i) else none := by
    unfold msgGet
    rw [if_neg (by omega), if_neg (by omega), Int.natAbs_neg, Int.natAbs_natCast]
  rw [hget]
  constructor
  · intro hg
    split_ifs at hg with hne
    obtain ⟨n, hn, hni⟩ := h.maps.target i hne
    rw [hg] at hn
    cases hn
    exact ⟨_, hg, hni⟩
  · rintro ⟨j, hj, rfl⟩
    have hmap := h.maps.imsgid _ _ hj (by omega)
    have hpos := (h.slots.slot _ _ hj).1
    rw [hmap, if_pos (by omega)]
    exact hj

/-- **The id maps form a partial bijection**, in every run of an endpoint. -/
theorem id_maps_bijective (es : List SockEvent) (sw : MsgSwitch)
    (hrun : run MsgSwitch.sockStep msgSwitchCreate es = .ok sw) :
    IdBijection sw (lastMade msgSwitchCreate es fun _ => none) := by
  obtain ⟨h, hM⟩ := Made.run es _ _ (fun _ => none) Tables.create (by rintro _ _ ⟨⟩) hrun
  have hsource : ∀ j m, sw.msgs j = some m → 0 < m.imsgid → sw.imsgidMap m.imsgid = m.msgid := by
    intro j m hj hpos
    rw [h.slots.msgid _ _ hj]
    exact h.maps.imsgid _ _ hj (by omega)
  refine ⟨h.slots.msgid, ?_, hsource, ?_, fun i hi m => h.resolve hi, ?_⟩
  · rintro i j - hpos rfl
    exact h.maps.target i (by omega)
  · intro i j m n hi hj hpos heq
    have h₁ := hsource i m hi hpos
    have h₂ := hsource j n hj (by omega)
    rw [h.slots.msgid _ _ hi] at h₁
    rw [h.slots.msgid _ _ hj, ← heq] at h₂
    exact h₁.symm.trans h₂
  · intro i hi m hg
    obtain ⟨j, hj, rfl⟩ := (h.resolve hi).1 hg
    exact hM j m hj (by omega)

/-- The peer opens its msg 5, disconnects it, and opens another one under the same id. -/
def reopened : List SockEvent :=
  [.event (.recv (.pack ⟨-5, 7, [1], 0⟩)), .event (.recv (.resp ⟨-5, .discon, 0, none⟩)),
    .event (.recv (.pack ⟨-5, 7, [2], 1⟩))]

theorem id_maps_bijective_reopened :
    ∃ sw, run MsgSwitch.sockStep msgSwitchCreate reopened = .ok sw ∧ sw.imsgidMap 5 = 2 ∧
      IdBijection sw (lastMade msgSwitchCreate reopened fun _ => none) := by
  obtain ⟨sw, h⟩ : ∃ sw, run MsgSwitch.sockStep msgSwitchCreate reopened = .ok sw := ⟨_, rfl⟩
  have hp : (run MsgSwitch.sockStep msgSwitchCreate reopened).toOption.map (·.imsgidMap 5) =
      some 2 := by decide
  rw [h] at hp
  exact ⟨sw, h, by simpa [Except.toOption] using hp, id_maps_bijective reopened sw h⟩

/-! ## The flags -/

/-- The flags of a msg that is not closed, and its queues. -/
structure FlagsMatch (m : Msg) : Prop where
  read : m.status.packetAvailToRead = true ↔ m.readQueue ≠ []
  writ : m.status.packetAvailToWrit = true ↔ m.writQueue ≠ []
  pos_nil : m.readQueue = [] → m.curReadPacketPos = 0
  pos_head : ∀ p rest, m.readQueue = p :: rest → 1 ≤ p.size → m.curReadPacketPos < p.size
  space_read : m.status.disconnected = false →
    (m.status.spaceAvailForRead = true ↔ m.readQueue.length < msgNBuffPacketsAllowed)
  space_writ : m.status.disconnected = false →
    (m.status.spaceAvailForWrit = true ↔ m.writQueue.length < msgNBuffPacketsAllowed)

theorem MsgOK.flagsMatch (hm : MsgOK m) (hc : m.status.closed = false) : FlagsMatch m where
  read := by rw [hm.par hc]; simp
  writ := by rw [hm.paw]; simp
  pos_nil := fun hq => by
    rcases hm.pos hc with h | ⟨p, rest, hp, -⟩
    · exact h
    · rw [hq] at hp; cases hp
  pos_head := fun p rest hq hp => by
    rcases hm.pos hc with h | ⟨q, rest', hq', hlt⟩
    · omega
    · rw [hq] at hq'; cases hq'; exact hlt
  space_read := fun hd => by rw [hm.space hd]; simp
  space_writ := fun hd => by rw [hm.wspace hd]; simp

/-- `msg_read` never takes the head of an empty queue: it returns. -/
theorem Slots.read_ok (h : Slots sw.msgs sw.nextAddr) (j size : ℕ) :
    ∃ sw' r, msgRead sw j size = .ok (sw', r) := by
  cases hj : sw.msgs j with
  | none => exact ⟨sw, .error .ebadmsg, by simp only [msgRead, hj, pure, Except.pure]⟩
  | some m =>
    obtain ⟨sw', ret, h₁, -⟩ := msgRead_moves (S := True) (H := True) hj (h.ok _ _ hj) size
    exact ⟨sw', ret, h₁⟩

/-- **The flags of a msg agree with its queues**, in every run of an endpoint. -/
theorem flags_match_queues (es : List SockEvent) (sw : MsgSwitch)
    (hrun : run MsgSwitch.sockStep msgSwitchCreate es = .ok sw) :
    (∀ j m, sw.msgs j = some m → m.status.closed = false → FlagsMatch m) ∧
      ∀ j size, ∃ sw' r, msgRead sw j size = .ok (sw', r) := by
  have h : Tables sw := (Made.run es _ _ (fun _ => none) Tables.create (by rintro _ _ ⟨⟩) hrun).1
  exact ⟨fun j m hj hc => (h.slots.ok _ _ hj).flagsMatch hc, h.slots.read_ok⟩

theorem flags_match_queues_reopened :
    ∃ sw, run MsgSwitch.sockStep msgSwitchCreate reopened = .ok sw ∧
      (sw.msgs 1).map (·.status.packetAvailToRead) = some true ∧
      (∀ j m, sw.msgs j = some m → m.status.closed = false → FlagsMatch m) ∧
      ∀ j size, ∃ sw' r, msgRead sw j size = .ok (sw', r) := by
  obtain ⟨sw, h⟩ : ∃ sw, run MsgSwitch.sockStep msgSwitchCreate reopened = .ok sw := ⟨_, rfl⟩
  have hp : (run MsgSwitch.sockStep msgSwitchCreate reopened).toOption.map
      (fun sw => (sw.msgs 1).map (·.status.packetAvailToRead)) = some (some true) := by decide
  rw [h] at hp
  exact ⟨sw, h, by simpa [Except.toOption] using hp, flags_match_queues reopened sw h⟩

end Zimr
