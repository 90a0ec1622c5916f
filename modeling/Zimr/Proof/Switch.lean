import Zimr.Lib.Run
import Zimr.Proof.Handshake
import Zimr.Spec.Corners

/-!
# The invariant of an endpoint

`SwOK` holds of an endpoint whatever its caller does and whatever frames come in. Its
`strong` form, in which `pending_msgs` is exactly the set of msgs being written, needs
that no step is a `dropsWriting`.

* `SwOK.turn`, `SwOK.clears`, `SwOK.answers`, `SwOK.pops`, `SwOK.creates` — one for each
  way a step changes the endpoint
-/

namespace Zimr

open Link (Item Step Steps Half)

variable {sw sw' : MsgSwitch} {j : ℕ} {m m' : Msg} {strong : Prop} {msgs : ℕ → Option Msg}
  {next : ℕ} {map : ℕ → ℕ} {pend : List MsgPtr} {o : Option Msg}

/-! ## The three tables -/

/-- `msgs`: every object is in its slot and in order. -/
structure Slots (msgs : ℕ → Option Msg) (next : ℕ) : Prop where
  msgid : ∀ j m, msgs j = some m → m.msgid = j
  slot : ∀ j m, msgs j = some m → 0 < j ∧ j < fdSetSize
  addr : ∀ j m, msgs j = some m → m.addr < next
  ok : ∀ j m, msgs j = some m → MsgOK m
  inj : ∀ i j m n, msgs i = some m → msgs j = some n → m.addr = n.addr → i = j

/-- `imsgid_map`: the ids of the msgs that the peer has opened. -/
structure Maps (msgs : ℕ → Option Msg) (map : ℕ → ℕ) : Prop where
  target : ∀ k, map k ≠ 0 → ∃ m, msgs (map k) = some m ∧ m.imsgid = k
  imsgid : ∀ j m, msgs j = some m → m.imsgid ≠ 0 → map m.imsgid = j
  zero : map 0 = 0

/-- `pending_msgs`: every msg that is being written is there, and once, unless it is
disconnected. In the `strong` form nothing else is. -/
structure Pend (strong : Prop) (msgs : ℕ → Option Msg) (pend : List MsgPtr) (next : ℕ) :
    Prop where
  old : ∀ p ∈ pend, p.addr < next
  writing : ∀ j m, msgs j = some m → m.status.writing = true → m.ptr ∈ pend
  count : ∀ j m, msgs j = some m → m.status.disconnected = false ∨ strong →
    pend.count m.ptr = m.status.writing.toNat
  live : strong → ∀ p ∈ pend, ∃ m, msgs p.msgid = some m ∧ m.ptr = p

/-- The two tables, which hold also when the socket has failed. -/
structure Tables (sw : MsgSwitch) : Prop where
  slots : Slots sw.msgs sw.nextAddr
  maps : Maps sw.msgs sw.imsgidMap

/-- The invariant of an endpoint. -/
structure SwOK (strong : Prop) (sw : MsgSwitch) : Prop extends Tables sw where
  conn : sw.connected = true
  pend : Pend strong sw.msgs sw.pendingMsgs sw.nextAddr
  armed : sw.writeArmed = msgSwitchHasAvailWrits sw

theorem SwOK.create : SwOK strong msgSwitchCreate where
  conn := rfl
  slots := by constructor <;> simp [msgSwitchCreate]
  maps := by constructor <;> simp [msgSwitchCreate]
  pend := by constructor <;> simp [msgSwitchCreate]
  armed := rfl

/-- The object in slot `i` after slot `j` was written. -/
theorem update_some {i : ℕ} {n : Msg} (h : Function.update msgs j o i = some n) :
    (i = j ∧ o = some n) ∨ (i ≠ j ∧ msgs i = some n) := by
  by_cases hi : i = j
  · subst hi; rw [Function.update_self] at h; exact Or.inl ⟨rfl, h⟩
  · rw [Function.update_of_ne hi] at h; exact Or.inr ⟨hi, h⟩

theorem Msg.ptr_eq_iff : m'.ptr = m.ptr ↔ m'.addr = m.addr ∧ m'.msgid = m.msgid := by
  simp [Msg.ptr]

/-- Two live msgs with one address are in one slot. -/
theorem Slots.ptr_ne (h : Slots msgs next) (hj : msgs j = some m) {i : ℕ} {n : Msg}
    (hi : msgs i = some n) (hij : i ≠ j) : n.ptr ≠ m.ptr := fun hp =>
  hij (h.inj i j n m hi hj (Msg.ptr_eq_iff.1 hp).1)

theorem Slots.update (h : Slots msgs next) (hj : msgs j = some m)
    (ho : ∀ n, o = some n → n.ptr = m.ptr ∧ MsgOK n) : Slots (Function.update msgs j o) next := by
  have hptr : ∀ n, o = some n → n.addr = m.addr ∧ n.msgid = m.msgid := fun n hn =>
    Msg.ptr_eq_iff.1 (ho n hn).1
  refine ⟨?_, ?_, ?_, ?_, ?_⟩
  · intro i n hi
    rcases update_some hi with ⟨rfl, hn⟩ | ⟨-, hi⟩
    · rw [(hptr n hn).2]; exact h.msgid _ _ hj
    · exact h.msgid _ _ hi
  · intro i n hi
    rcases update_some hi with ⟨rfl, -⟩ | ⟨-, hi⟩
    · exact h.slot _ _ hj
    · exact h.slot _ _ hi
  · intro i n hi
    rcases update_some hi with ⟨rfl, hn⟩ | ⟨-, hi⟩
    · rw [(hptr n hn).1]; exact h.addr _ _ hj
    · exact h.addr _ _ hi
  · intro i n hi
    rcases update_some hi with ⟨rfl, hn⟩ | ⟨-, hi⟩
    · exact (ho n hn).2
    · exact h.ok _ _ hi
  · intro i k n n' hi hk he
    rcases update_some hi with ⟨hij, hn⟩ | ⟨-, hi⟩ <;>
      rcases update_some hk with ⟨hkj, hn'⟩ | ⟨-, hk⟩
    · rw [hij, hkj]
    · rw [hij]; exact h.inj _ _ m n' hj hk ((hptr n hn).1.symm.trans he)
    · rw [hkj]; exact h.inj _ _ n m hi hj (he.trans (hptr n' hn').1)
    · exact h.inj _ _ n n' hi hk he

theorem Slots.insert (h : Slots msgs next) (hid : m.msgid = j) (haddr : m.addr = next)
    (hpos : 0 < j ∧ j < fdSetSize) (hm : MsgOK m) :
    Slots (Function.update msgs j (some m)) (next + 1) := by
  refine ⟨?_, ?_, ?_, ?_, ?_⟩
  · intro i n hi
    rcases update_some hi with ⟨rfl, hn⟩ | ⟨-, hi⟩
    · cases hn; exact hid
    · exact h.msgid _ _ hi
  · intro i n hi
    rcases update_some hi with ⟨rfl, -⟩ | ⟨-, hi⟩
    · exact hpos
    · exact h.slot _ _ hi
  · intro i n hi
    rcases update_some hi with ⟨rfl, hn⟩ | ⟨-, hi⟩
    · cases hn; omega
    · have := h.addr _ _ hi; omega
  · intro i n hi
    rcases update_some hi with ⟨rfl, hn⟩ | ⟨-, hi⟩
    · cases hn; exact hm
    · exact h.ok _ _ hi
  · intro i k n n' hi hk he
    rcases update_some hi with ⟨hij, hn⟩ | ⟨-, hi⟩ <;>
      rcases update_some hk with ⟨hkj, hn'⟩ | ⟨-, hk⟩
    · rw [hij, hkj]
    · cases hn; have := h.addr _ _ hk; omega
    · cases hn'; have := h.addr _ _ hi; omega
    · exact h.inj _ _ n n' hi hk he

/-! ### `imsgid_map` -/

theorem Maps.update (h : Maps msgs map) (hj : msgs j = some m) (hi : m'.imsgid = m.imsgid) :
    Maps (Function.update msgs j (some m')) map := by
  refine ⟨?_, ?_, h.zero⟩
  · intro k hk
    obtain ⟨n, hn, hnk⟩ := h.target k hk
    by_cases hkj : map k = j
    · rw [hkj] at hn ⊢
      rw [hj] at hn; cases hn
      exact ⟨m', Function.update_self _ _ _, hi.trans hnk⟩
    · exact ⟨n, by rw [Function.update_of_ne hkj]; exact hn, hnk⟩
  · intro i n hn hne
    rcases update_some hn with ⟨rfl, he⟩ | ⟨-, hn⟩
    · cases he; rw [hi] at hne ⊢; exact h.imsgid _ _ hj hne
    · exact h.imsgid _ _ hn hne

/-- The entry of a msg goes, with the msg or with its `imsgid`. -/
theorem Maps.remove (h : Maps msgs map) (hj : msgs j = some m)
    (ho : ∀ n, o = some n → n.imsgid = 0) :
    Maps (Function.update msgs j o) (Function.update map m.imsgid 0) := by
  refine ⟨?_, ?_, ?_⟩
  · intro k hk
    by_cases hkm : k = m.imsgid
    · subst hkm; simp at hk
    · rw [Function.update_of_ne hkm] at hk ⊢
      obtain ⟨n, hn, hnk⟩ := h.target k hk
      refine ⟨n, ?_, hnk⟩
      rw [Function.update_of_ne]
      · exact hn
      · intro hkj; rw [hkj, hj] at hn; cases hn; exact hkm hnk.symm
  · intro i n hn hne
    rcases update_some hn with ⟨rfl, he⟩ | ⟨hij, hn⟩
    · exact absurd (ho n he) hne
    · have hni := h.imsgid _ _ hn hne
      rw [Function.update_of_ne]
      · exact hni
      · intro he
        have hmi := h.imsgid _ _ hj (he ▸ hne)
        rw [← he] at hmi; exact hij (hni.symm.trans hmi)
  · by_cases h0 : m.imsgid = 0
    · rw [h0]; simp
    · rw [Function.update_of_ne (Ne.symm h0)]; exact h.zero

theorem Maps.unmap_eq (h : Maps msgs map) : m.unmap map = Function.update map m.imsgid 0 := by
  unfold Msg.unmap
  split_ifs with h0
  · rfl
  · rw [not_not.1 h0]
    exact (Function.update_eq_self_iff.2 h.zero.symm).symm

theorem Maps.insert (h : Maps msgs map) (hj : msgs j = none) (hi : m.imsgid = 0) :
    Maps (Function.update msgs j (some m)) map := by
  refine ⟨?_, ?_, h.zero⟩
  · intro k hk
    obtain ⟨n, hn, hnk⟩ := h.target k hk
    refine ⟨n, ?_, hnk⟩
    rw [Function.update_of_ne]
    · exact hn
    · intro hkj; rw [hkj, hj] at hn; cases hn
  · intro i n hn hne
    rcases update_some hn with ⟨rfl, he⟩ | ⟨-, hn⟩
    · cases he; exact absurd hi hne
    · exact h.imsgid _ _ hn hne

/-- The peer opens a msg: its id had no entry. -/
theorem Maps.insert_imsgid (h : Maps msgs map) (hs : Slots msgs next) (hj : msgs j = none)
    (hk : map m.imsgid = 0) (hne : m.imsgid ≠ 0) :
    Maps (Function.update msgs j (some m)) (Function.update map m.imsgid j) := by
  refine ⟨?_, ?_, ?_⟩
  · intro k hk'
    by_cases hkm : k = m.imsgid
    · subst hkm; exact ⟨m, by simp, rfl⟩
    · rw [Function.update_of_ne hkm] at hk' ⊢
      obtain ⟨n, hn, hnk⟩ := h.target k hk'
      refine ⟨n, ?_, hnk⟩
      rw [Function.update_of_ne]
      · exact hn
      · intro hkj; rw [hkj, hj] at hn; cases hn
  · intro i n hn hne'
    rcases update_some hn with ⟨rfl, he⟩ | ⟨hij, hn⟩
    · cases he; simp
    · have hni := h.imsgid _ _ hn hne'
      rw [Function.update_of_ne]
      · exact hni
      · intro he
        -- then slot 0 would be in use
        rw [he, hk] at hni
        have := (hs.slot _ _ hn).1
        omega
  · rw [Function.update_of_ne (Ne.symm hne)]; exact h.zero

/-! ### `pending_msgs` -/

theorem Pend.update (h : Pend strong msgs pend next) (hs : Slots msgs next) (hj : msgs j = some m)
    (hp : m'.ptr = m.ptr) (hd : m'.status.disconnected = m.status.disconnected)
    (hw : m.status.writing = true → m'.status.writing = true) :
    Pend strong (Function.update msgs j (some m'))
      (pend ++ if !m.status.writing && m'.status.writing then [m.ptr] else []) next := by
  have hcount : ∀ q, (if !m.status.writing && m'.status.writing then [m.ptr] else []).count q =
      if q = m.ptr then m'.status.writing.toNat - m.status.writing.toNat else 0 := by
    intro q
    clear hd hp
    cases m.status.writing <;> cases m'.status.writing <;>
      simp [List.count_singleton, eq_comm (a := q)]
  refine ⟨?_, ?_, ?_, ?_⟩
  · intro p hp'
    rcases List.mem_append.1 hp' with hp' | hp'
    · exact h.old p hp'
    · split_ifs at hp' with hc
      · rw [List.mem_singleton.1 hp']; exact hs.addr _ _ hj
      · simp at hp'
  · intro i n hn hwn
    rcases update_some hn with ⟨rfl, he⟩ | ⟨-, hn⟩
    · cases he
      rw [hp]
      cases hwm : m.status.writing with
      | true => exact List.mem_append_left _ (h.writing _ _ hj hwm)
      | false => simp [hwn]
    · exact List.mem_append_left _ (h.writing _ _ hn hwn)
  · intro i n hn hdn
    rw [List.count_append, hcount]
    rcases update_some hn with ⟨rfl, he⟩ | ⟨hij, hn⟩
    · cases he
      rw [hp, if_pos rfl, h.count _ _ hj (by rwa [hd] at hdn)]
      cases hwm : m.status.writing with
      | false => simp
      | true => simp [hw hwm]
    · rw [if_neg (hs.ptr_ne hj hn hij), h.count _ _ hn hdn, Nat.add_zero]
  · intro hst p hp'
    have hold : ∀ q ∈ pend, ∃ n, Function.update msgs j (some m') q.msgid = some n ∧ n.ptr = q := by
      intro q hq
      obtain ⟨n, hn, hnp⟩ := h.live hst q hq
      by_cases hqj : q.msgid = j
      · rw [hqj, hj] at hn; cases hn
        exact ⟨m', by rw [hqj]; simp, hp.trans hnp⟩
      · exact ⟨n, by rw [Function.update_of_ne hqj]; exact hn, hnp⟩
    rcases List.mem_append.1 hp' with hp' | hp'
    · exact hold p hp'
    · split_ifs at hp' with hc
      · rw [List.mem_singleton.1 hp']
        refine ⟨m', ?_, hp⟩
        have : m.ptr.msgid = j := hs.msgid _ _ hj
        rw [this]; simp
      · simp at hp'

/-- The msg leaves the queue, with its slot or without. -/
theorem Pend.remove {pend' : List MsgPtr} (h : Pend strong msgs pend next) (hs : Slots msgs next)
    (hj : msgs j = some m)
    (ho : ∀ n, o = some n → n.ptr = m.ptr ∧ n.status.writing = false)
    (hsub : pend'.Sublist pend) (hother : ∀ q, q ≠ m.ptr → pend'.count q = pend.count q)
    (hself : (∀ n, o = some n → n.status.disconnected = false ∨ strong → pend'.count m.ptr = 0) ∧
      (o = none → strong → pend'.count m.ptr = 0)) :
    Pend strong (Function.update msgs j o) pend' next := by
  refine ⟨fun p hp => h.old p (hsub.subset hp), ?_, ?_, ?_⟩
  · intro i n hn hwn
    rcases update_some hn with ⟨rfl, he⟩ | ⟨hij, hn⟩
    · rw [(ho n he).2] at hwn; cases hwn
    · have hne := hs.ptr_ne hj hn hij
      rw [← List.count_pos_iff, hother _ hne, List.count_pos_iff]
      exact h.writing _ _ hn hwn
  · intro i n hn hdn
    rcases update_some hn with ⟨rfl, he⟩ | ⟨hij, hn⟩
    · rw [(ho n he).1, hself.1 n he hdn, (ho n he).2]; rfl
    · rw [hother _ (hs.ptr_ne hj hn hij)]; exact h.count _ _ hn hdn
  · intro hst p hp
    obtain ⟨n, hn, hnp⟩ := h.live hst p (hsub.subset hp)
    refine ⟨n, ?_, hnp⟩
    rw [Function.update_of_ne]
    · exact hn
    · intro hpj
      rw [hpj, hj] at hn; cases hn
      have h0 : pend'.count m.ptr = 0 := by
        cases hoo : o with
        | none => exact hself.2 hoo hst
        | some n => exact hself.1 n hoo (Or.inr hst)
      rw [hnp] at h0
      exact absurd (List.count_pos_iff.2 hp) (by omega)

theorem Pend.insert (h : Pend strong msgs pend next) (hj : msgs j = none) (haddr : m.addr = next)
    (hw : m.status.writing = false) :
    Pend strong (Function.update msgs j (some m)) pend (next + 1) := by
  refine ⟨fun p hp => Nat.lt_succ_of_lt (h.old p hp), ?_, ?_, ?_⟩
  · intro i n hn hwn
    rcases update_some hn with ⟨rfl, he⟩ | ⟨hij, hn⟩
    · cases he; rw [hw] at hwn; cases hwn
    · exact h.writing _ _ hn hwn
  · intro i n hn hdn
    rcases update_some hn with ⟨rfl, he⟩ | ⟨hij, hn⟩
    · cases he
      rw [hw]
      refine List.count_eq_zero.2 fun hm => ?_
      have := h.old _ hm
      simp only [Msg.ptr] at this
      omega
    · exact h.count _ _ hn hdn
  · intro hst p hp
    obtain ⟨n, hn, hnp⟩ := h.live hst p hp
    refine ⟨n, ?_, hnp⟩
    rw [Function.update_of_ne]
    · exact hn
    · intro hpj; rw [hpj, hj] at hn; cases hn

/-! ## The steps -/

theorem Tables.turn {L B : Prop} {R : List MsgResp} {rp : Option MsgPacket} (h : Tables sw)
    (hj : sw.msgs j = some m) (t : Turn L B sw sw' j m m' R rp) : Tables sw' where
  slots := by
    rw [t.only.msgs, t.only.next]
    exact h.slots.update hj fun n hn => by cases hn; exact ⟨t.ptr, t.ok⟩
  maps := by rw [t.only.msgs, t.only.map]; exact h.maps.update hj t.imsgid

/-- **A call or frame that changes one msg.** -/
theorem SwOK.turn {L B : Prop} {R : List MsgResp} {rp : Option MsgPacket}
    (h : SwOK strong sw) (hj : sw.msgs j = some m) (t : Turn L B sw sw' j m m' R rp) :
    SwOK strong sw' where
  toTables := h.toTables.turn hj t
  conn := t.only.conn.trans h.conn
  pend := by
    rw [t.only.msgs, t.only.pend, t.only.next]
    exact h.pend.update h.slots hj t.ptr t.disc t.writing
  armed := by
    rw [t.only.armed, h.armed, msgSwitchHasAvailWrits, msgSwitchHasAvailWrits, t.only.resps,
      t.only.pend]
    generalize (if !m.status.writing && m'.status.writing then [m.ptr] else []) = P
    cases sw.pendingMsgs <;> cases sw.pendingResps <;> cases R <;> cases P <;> rfl

theorem Msg.unqueue_sublist (m : Msg) (ps : List MsgPtr) : (m.unqueue ps).Sublist ps := by
  unfold Msg.unqueue
  split_ifs
  · exact List.erase_sublist
  · exact List.Sublist.refl _

theorem Msg.unqueue_count_of_ne {ps : List MsgPtr} {q : MsgPtr} (h : q ≠ m.ptr) :
    (m.unqueue ps).count q = ps.count q := by
  unfold Msg.unqueue
  split_ifs
  · exact List.count_erase_of_ne h
  · rfl

/-- A msg that is counted is gone from the queue afterwards. -/
theorem Msg.unqueue_count_self {ps : List MsgPtr} (h : ps.count m.ptr = m.status.writing.toNat) :
    (m.unqueue ps).count m.ptr = 0 := by
  unfold Msg.unqueue
  cases hw : m.status.writing with
  | true => rw [if_pos rfl, List.count_erase_self, h, hw]; rfl
  | false => rw [if_neg (by simp), h, hw]; rfl

theorem Tables.clears (h : Tables sw) (hj : sw.msgs j = some m)
    (c : Clears sw sw' j m none (m.unmap sw.imsgidMap)) : Tables sw' where
  slots := by
    rw [c.msgs, c.next]
    exact h.slots.update hj fun n hn => by cases hn
  maps := by
    rw [c.msgs, c.map, h.maps.unmap_eq]
    exact h.maps.remove hj fun n hn => by cases hn

/-- **A msg is freed.** -/
theorem SwOK.clears (h : SwOK strong sw) (hj : sw.msgs j = some m)
    (c : Clears sw sw' j m none (m.unmap sw.imsgidMap)) : SwOK strong sw' where
  toTables := h.toTables.clears hj c
  conn := c.conn.trans h.conn
  pend := by
    rw [c.msgs, c.next, c.pend]
    refine h.pend.remove h.slots hj (fun n hn => by cases hn) (m.unqueue_sublist _)
      (fun q hq => Msg.unqueue_count_of_ne hq) ⟨fun n hn => (by cases hn), fun _ hst => ?_⟩
    exact Msg.unqueue_count_self (h.pend.count _ _ hj (Or.inr hst))
  armed := c.armed h.armed

theorem Tables.answers (h : Tables sw) (hj : sw.msgs j = some m) (a : Answers sw sw' j m m') :
    Tables sw' where
  slots := by
    rw [a.msgs, a.next]
    exact h.slots.update hj fun n hn => by cases hn; exact ⟨a.ptr, a.ok⟩
  maps := by
    rw [a.msgs, a.map]
    exact h.maps.remove hj fun n hn => by cases hn; exact (a.ok.disc a.disc).2

/-- **The peer's disconnect is answered.** -/
theorem SwOK.answers (h : SwOK strong sw) (hj : sw.msgs j = some m) (a : Answers sw sw' j m m')
    (hD : strong → m.status.packetAvailToRead = true → m.status.writing = false) :
    SwOK strong sw' where
  toTables := h.toTables.answers hj a
  conn := a.conn.trans h.conn
  pend := by
    rw [a.msgs, a.next, a.pend]
    refine h.pend.remove h.slots hj (fun n hn => by cases hn; exact ⟨a.ptr, a.writing⟩) ?_ ?_
      ⟨fun n hn hdn => ?_, fun hn => (by cases hn)⟩
    · split_ifs
      · exact List.Sublist.refl _
      · exact m.unqueue_sublist _
    · intro q hq
      split_ifs
      · rfl
      · exact Msg.unqueue_count_of_ne hq
    · cases hn
      have hst : strong := hdn.resolve_left (by rw [a.disc]; simp)
      have hc := h.pend.count _ _ hj (Or.inr hst)
      split_ifs with hp
      · rw [hc, hD hst hp]; rfl
      · exact Msg.unqueue_count_self hc
  armed := a.armed h.armed

/-- A new object. -/
structure Creates (sw sw' : MsgSwitch) (j : ℕ) (m : Msg) (map : ℕ → ℕ) : Prop where
  free : sw.msgs j = none
  slot : 0 < j ∧ j < fdSetSize
  msgs : sw'.msgs = Function.update sw.msgs j (some m)
  resps : sw'.pendingResps = sw.pendingResps
  pend : sw'.pendingMsgs = sw.pendingMsgs
  armed : sw'.writeArmed = sw.writeArmed
  map : sw'.imsgidMap = map
  next : sw'.nextAddr = sw.nextAddr + 1
  conn : sw'.connected = sw.connected

/-- The object `msg_create` makes; `msg_open` connects it, the peer's first packet gives it
an `imsgid`. -/
def Msg.fresh (addr msgid : ℕ) (type : ℤ) (connected : Bool) (imsgid : ℕ) : Msg :=
  { addr, msgid, imsgid, type
    status := { connected, spaceAvailForRead := true, spaceAvailForWrit := true } }

theorem MsgOK.fresh (addr msgid : ℕ) (type : ℤ) (connected : Bool) (imsgid : ℕ) :
    MsgOK (Msg.fresh addr msgid type connected imsgid) := by
  constructor <;> simp [Msg.fresh, msgNBuffPacketsAllowed]

theorem Tables.creates {type : ℤ} {connected : Bool} {k : ℕ} (h : Tables sw)
    (c : Creates sw sw' j (.fresh sw.nextAddr j type connected k)
      (if k = 0 then sw.imsgidMap else Function.update sw.imsgidMap k j))
    (hk : k ≠ 0 → sw.imsgidMap k = 0) : Tables sw' where
  slots := by
    rw [c.msgs, c.next]
    exact h.slots.insert rfl rfl c.slot (MsgOK.fresh _ _ _ _ _)
  maps := by
    rw [c.msgs, c.map]
    split_ifs with h0
    · exact h.maps.insert c.free h0
    · exact h.maps.insert_imsgid h.slots c.free (hk h0) h0

/-- **A msg is created.** -/
theorem SwOK.creates {type : ℤ} {connected : Bool} {k : ℕ} (h : SwOK strong sw)
    (c : Creates sw sw' j (.fresh sw.nextAddr j type connected k)
      (if k = 0 then sw.imsgidMap else Function.update sw.imsgidMap k j))
    (hk : k ≠ 0 → sw.imsgidMap k = 0) : SwOK strong sw' where
  toTables := h.toTables.creates c hk
  conn := c.conn.trans h.conn
  pend := by rw [c.msgs, c.next, c.pend]; exact h.pend.insert c.free rfl rfl
  armed := by
    rw [c.armed, h.armed, msgSwitchHasAvailWrits, msgSwitchHasAvailWrits, c.pend, c.resps]

/-- The switch after the frame is handed to the socket. -/
def MsgSwitch.disarm (sw : MsgSwitch) : MsgSwitch :=
  if !msgSwitchHasAvailWrits sw then { sw with writeArmed := false } else sw

theorem MsgSwitch.disarm_eq (sw : MsgSwitch) :
    sw.disarm.msgs = sw.msgs ∧ sw.disarm.pendingResps = sw.pendingResps ∧
      sw.disarm.pendingMsgs = sw.pendingMsgs ∧ sw.disarm.imsgidMap = sw.imsgidMap ∧
      sw.disarm.nextAddr = sw.nextAddr ∧ sw.disarm.connected = sw.connected ∧
      (sw.writeArmed = true → sw.disarm.writeArmed = msgSwitchHasAvailWrits sw.disarm) := by
  unfold MsgSwitch.disarm
  split_ifs with ha
  · exact ⟨rfl, rfl, rfl, rfl, rfl, rfl, fun _ => by simpa [msgSwitchHasAvailWrits] using ha⟩
  · exact ⟨rfl, rfl, rfl, rfl, rfl, rfl, fun h => by rw [h]; simpa using ha⟩

theorem msgSwitchWrite_resp {r : MsgResp} {rest : List MsgResp} (hr : sw.pendingResps = r :: rest) :
    msgSwitchWrite sw = .ok (({ sw with pendingResps := rest } : MsgSwitch).disarm, .resp r) := by
  simp only [msgSwitchWrite, hr, bind, Except.bind, pure, Except.pure]
  rfl

/-- A packet goes out of the msg at the head of `pending_msgs`. -/
theorem msgSwitchWrite_pack {p : MsgPacket} {rest : List MsgPacket} {tail : List MsgPtr}
    (hs : Slots sw.msgs sw.nextAddr) (hr : sw.pendingResps = [])
    (hp : sw.pendingMsgs = m.ptr :: tail) (hj : sw.msgs m.msgid = some m)
    (hq : m.writQueue = p :: rest) :
    ∃ sw₁, msgSwitchWrite sw = .ok (sw₁.disarm, .pack p) ∧
      Only { sw with pendingMsgs := tail } sw₁ m.msgid (m.popWrit rest) [] [] := by
  have hj' : ({ sw with pendingMsgs := tail } : MsgSwitch).msgs m.msgid = some m := hj
  obtain ⟨sw₁, h₁, o⟩ := msgPopWritPacket_spec hj' (hs.ok _ _ hj) hq
  refine ⟨sw₁, ?_, o⟩
  have hpop : msgSwitchPopWritPacket sw = .ok (sw₁, p) := by
    have hid : m.ptr.msgid = m.msgid := rfl
    simp only [msgSwitchPopWritPacket, hp, hid, hj]
    rw [if_pos (by rfl), h₁]
  simp only [msgSwitchWrite, hr, hpop, bind, Except.bind, pure, Except.pure]
  rfl

/-- **What a write event does**: a response goes first, else a packet. -/
theorem msgSwitchWrite_cases {frame : Frame} (hs : Slots sw.msgs sw.nextAddr)
    (h : msgSwitchWrite sw = .ok (sw', frame)) :
    (∃ r rest, sw.pendingResps = r :: rest ∧ frame = .resp r ∧
      sw' = ({ sw with pendingResps := rest } : MsgSwitch).disarm) ∨
    ∃ m p rest tail sw₁, sw.pendingResps = [] ∧ sw.pendingMsgs = m.ptr :: tail ∧
      sw.msgs m.msgid = some m ∧ m.writQueue = p :: rest ∧ frame = .pack p ∧ sw' = sw₁.disarm ∧
      Only { sw with pendingMsgs := tail } sw₁ m.msgid (m.popWrit rest) [] [] := by
  rcases hr : sw.pendingResps with _ | ⟨r, rest⟩
  · -- nothing but a live head with a packet does not fault
    refine Or.inr ?_
    have hfault : ∀ {e}, msgSwitchPopWritPacket sw = .error e → False := by
      intro e he
      simp only [msgSwitchWrite, hr, he, bind, Except.bind] at h
      cases h
    rcases hp : sw.pendingMsgs with _ | ⟨ptr, tail⟩
    · exact (hfault (by simp only [msgSwitchPopWritPacket, hp]; rfl)).elim
    rcases hm : sw.msgs ptr.msgid with _ | m
    · exact (hfault (by simp only [msgSwitchPopWritPacket, hp, hm]; rfl)).elim
    by_cases ha : m.addr = ptr.addr
    · have hid := hs.msgid _ _ hm
      have hptr : ptr = m.ptr := by rw [Msg.ptr, ha, hid]
      rcases hq : m.writQueue with _ | ⟨p, rest⟩
      · refine (hfault (e := .nullDeref) ?_).elim
        simp only [msgSwitchPopWritPacket, hp, hm, ha, if_true, msgPopWritPacket, MsgSwitch.assertMsg,
          bind, Except.bind, hq]
        rfl
      · rw [hptr] at hp
        have hj : sw.msgs m.msgid = some m := by rw [hid]; exact hm
        obtain ⟨sw₁, h₁, o⟩ := msgSwitchWrite_pack hs hr hp hj hq
        rw [h] at h₁
        cases h₁
        rw [hr] at o
        exact ⟨m, p, rest, tail, sw₁, rfl, by rw [hptr], hj, hq, rfl, rfl, o⟩
    · exact (hfault (e := .useAfterFree)
        (by simp only [msgSwitchPopWritPacket, hp, hm, ha, if_false]; rfl)).elim
  · refine Or.inl ⟨r, rest, rfl, ?_⟩
    rw [msgSwitchWrite_resp hr] at h
    cases h
    exact ⟨rfl, rfl⟩

/-- A packet goes out. -/
theorem Tables.pops {p : MsgPacket} {rest : List MsgPacket} {tail : List MsgPtr} {sw₁ : MsgSwitch}
    (h : Tables sw) (hj : sw.msgs m.msgid = some m) (hq : m.writQueue = p :: rest)
    (o : Only { sw with pendingMsgs := tail } sw₁ m.msgid (m.popWrit rest) [] []) :
    Tables sw₁.disarm := by
  obtain ⟨hmsgs, -, -, hmap, hnext, -, -⟩ := sw₁.disarm_eq
  constructor
  · rw [hmsgs, hnext, o.msgs, o.next]
    exact h.slots.update hj fun n hn => by cases hn; exact ⟨rfl, (h.slots.ok _ _ hj).popWrit hq⟩
  · rw [hmsgs, hmap, o.msgs, o.map]; exact h.maps.update hj rfl

theorem SwOK.pops {p : MsgPacket} {rest : List MsgPacket} {tail : List MsgPtr} {sw₁ : MsgSwitch}
    (h : SwOK strong sw) (hp : sw.pendingMsgs = m.ptr :: tail) (hj : sw.msgs m.msgid = some m)
    (hq : m.writQueue = p :: rest)
    (o : Only { sw with pendingMsgs := tail } sw₁ m.msgid (m.popWrit rest) [] []) :
    SwOK strong sw₁.disarm := by
  obtain ⟨hmsgs, -, hpend, hmap, hnext, hconn, harm⟩ := sw₁.disarm_eq
  have hpt : sw₁.pendingMsgs = tail := by simpa using o.pend
  refine ⟨h.toTables.pops hj hq o, by rw [hconn, o.conn]; exact h.conn, ?_, ?_⟩
  · rw [hmsgs, hnext, hpend, o.msgs, o.next, hpt]
    refine h.pend.remove h.slots hj (fun n hn => by cases hn; exact ⟨rfl, rfl⟩)
      (by rw [hp]; exact List.sublist_cons_self _ _) (fun q hqne => ?_)
      ⟨fun n hn hdn => ?_, fun hn => (by cases hn)⟩
    · rw [hp, List.count_cons_of_ne hqne.symm]
    · cases hn
      have hc := h.pend.count _ _ hj hdn
      rw [hp, List.count_cons_self] at hc
      have := m.status.writing.toNat_le
      omega
  · refine harm ?_
    rw [o.armed]
    simp [h.armed, msgSwitchHasAvailWrits, hp]

theorem Tables.responds (h : Tables sw) (rest : List MsgResp) :
    Tables ({ sw with pendingResps := rest } : MsgSwitch).disarm := by
  obtain ⟨hmsgs, -, -, hmap, hnext, -, -⟩ :=
    ({ sw with pendingResps := rest } : MsgSwitch).disarm_eq
  exact ⟨by rw [hmsgs, hnext]; exact h.slots, by rw [hmsgs, hmap]; exact h.maps⟩

/-- A response goes out. -/
theorem SwOK.responds {r : MsgResp} {rest : List MsgResp} (h : SwOK strong sw)
    (hr : sw.pendingResps = r :: rest) :
    SwOK strong ({ sw with pendingResps := rest } : MsgSwitch).disarm := by
  obtain ⟨hmsgs, -, hpend, hmap, hnext, hconn, harm⟩ :=
    ({ sw with pendingResps := rest } : MsgSwitch).disarm_eq
  refine ⟨h.toTables.responds rest, hconn.trans h.conn,
    by rw [hmsgs, hnext, hpend]; exact h.pend, harm ?_⟩
  simp [h.armed, msgSwitchHasAvailWrits, hr]

/-! ## New msgs -/

theorem msgGetAvailMsgid_some (h : msgGetAvailMsgid sw = some j) :
    sw.msgs j = none ∧ 0 < j ∧ j < fdSetSize := by
  have hf := List.find?_some h
  have hm := List.mem_of_find?_eq_some h
  rw [List.mem_range'] at hm
  obtain ⟨i, hi, rfl⟩ := hm
  simp only [fdSetSize] at *
  exact ⟨by simpa using hf, by omega, by omega⟩

/-- `msg_create`, or a write outside the table. -/
theorem msgCreate_cases (sw : MsgSwitch) (type : ℤ) :
    msgCreate sw type = .error .outOfBounds ∨
    ∃ sw' j, msgCreate sw type = .ok (sw', j) ∧
      Creates sw sw' j (.fresh sw.nextAddr j type false 0) sw.imsgidMap := by
  unfold msgCreate
  cases hj : msgGetAvailMsgid sw with
  | none => exact Or.inl rfl
  | some j =>
    obtain ⟨hfree, hpos⟩ := msgGetAvailMsgid_some hj
    set sw₁ : MsgSwitch := { sw with
      nextAddr := sw.nextAddr + 1, selectable := Function.update sw.selectable j false } with hsw₁
    have o₁ := Only.set sw₁ j (.fresh sw.nextAddr j type false 0)
    obtain ⟨sw', h', o'⟩ := msgCheckSelectability_only o₁.get
    have o := o₁.trans o'
    refine Or.inr ⟨sw', j, ?_, hfree, hpos, o.msgs, by simpa using o.resps, by simpa using o.pend,
      by simpa using o.armed, o.map, o.next, o.conn⟩
    simp only [bind, Except.bind, pure, Except.pure]
    simp only [Msg.fresh] at h'
    rw [h']

/-- **`msg_open`.** -/
theorem msgOpen_cases (sw : MsgSwitch) (type : ℤ) :
    msgOpen sw type = .error .outOfBounds ∨
    ∃ sw' j, msgOpen sw type = .ok (sw', j) ∧
      Creates sw sw' j (.fresh sw.nextAddr j type true 0) sw.imsgidMap := by
  rcases msgCreate_cases sw type with he | ⟨sw₁, j, h₁, c⟩
  · exact Or.inl (by simp only [msgOpen, he, bind, Except.bind])
  · have hg : sw₁.msgs j = some (.fresh sw.nextAddr j type false 0) := by rw [c.msgs]; simp
    have o₁ := Only.set sw₁ j (.fresh sw.nextAddr j type true 0)
    obtain ⟨sw', h', o'⟩ := msgCheckSelectability_only o₁.get
    have o := o₁.trans o'
    refine Or.inr ⟨sw', j, ?_, c.free, c.slot, ?_, ?_, ?_, ?_, o.map.trans c.map, o.next.trans c.next,
      o.conn.trans c.conn⟩
    · simp only [Msg.fresh] at h'
      simp only [msgOpen, h₁, MsgSwitch.assertMsg, hg, bind, Except.bind, pure, Except.pure, Msg.fresh]
      rw [h']
    · rw [o.msgs, c.msgs, Function.update_idem]
    · rw [o.resps, c.resps]; simp
    · rw [o.pend, c.pend]; simp
    · rw [o.armed, c.armed]; simp

/-- **A packet for no msg.** The peer has opened one, or the endpoint stops: the id is none of the
tables, or there is no slot. -/
theorem dispatch_new_cases {p : MsgPacket} (h : msgGet sw p.msgid = none) :
    (0 ≤ p.msgid ∧ msgSwitchDispatch sw (.pack p) = .error .badMsgid) ∨
    (p.msgid < 0 ∧ msgSwitchDispatch sw (.pack p) = .error .outOfBounds ∧
      (fdSetSize ≤ p.msgid.natAbs ∨ msgCreate sw p.type = .error .outOfBounds)) ∨
    (p.msgid < 0 ∧ ∃ sw₁ j, msgSwitchDispatch sw (.pack p) = msgPushReadPacket sw₁ j p ∧
      Creates sw sw₁ j (.fresh sw.nextAddr j p.type false p.msgid.natAbs)
        (Function.update sw.imsgidMap p.msgid.natAbs j)) := by
  simp only [msgSwitchDispatch, h, bind, Except.bind]
  by_cases h0 : 0 ≤ p.msgid
  · rw [if_pos h0]; exact Or.inl ⟨h0, rfl⟩
  have hneg : p.msgid < 0 := by omega
  refine Or.inr ?_
  rw [if_neg h0]
  by_cases hb : fdSetSize ≤ p.msgid.natAbs
  · rw [if_pos hb]; exact Or.inl ⟨hneg, rfl, Or.inl hb⟩
  rw [if_neg hb]
  rcases msgCreate_cases sw p.type with he | ⟨sw₁, j, h₁, c⟩
  · exact Or.inl ⟨hneg, by simp only [he], Or.inr he⟩
  · have hg : sw₁.msgs j = some (.fresh sw.nextAddr j p.type false 0) := by rw [c.msgs]; simp
    refine Or.inr ⟨hneg, { sw₁.set j (some (.fresh sw.nextAddr j p.type false p.msgid.natAbs)) with
      imsgidMap := Function.update sw₁.imsgidMap p.msgid.natAbs j
      activeHash := fdHashAdd sw₁.activeHash j }, j, ?_, ?_⟩
    · simp only [h₁, MsgSwitch.assertMsg, hg]
      rfl
    · refine ⟨c.free, c.slot, ?_, c.resps, c.pend, c.armed, ?_, c.next, c.conn⟩
      · simp only [MsgSwitch.set, c.msgs, Function.update_idem]
      · simp only [c.map]

end Zimr
