import Zimr.Proof.Ids

/-!
# The invariant of the two endpoints

`NetOK` puts together the invariant of each endpoint, the ids on the wire and the links.
`resolve` says what the next frame finds: the object at the other end of its sender, or
nothing, or, for an acknowledgement sent after a disconnect, perhaps a newer object.

* `NetOK.init`
* `NetOK.resolve`
-/

namespace Zimr

open Link (Item Step Steps Half Stage)

variable {σ σ' : Net} {s : Side} {j x y : ℕ} {m m' : Msg} {str dns : Bool} {f : Frame}
  {rest : List Frame}

/-- A msg that has sent its disconnect is not being written, and an entry it has left in
`pending_msgs` finds nothing. -/
def Quiet (sw : MsgSwitch) : Prop := ∀ j m, sw.msgs j = some m → m.status.sentDisconnect = true →
  m.status.writing = false ∧ (m.ptr ∈ sw.pendingMsgs → m.writQueue = [])

/-- What an object has read, owes an acknowledgement for and has acknowledged came from its
peer. -/
structure Source (wire : List Frame) (msgs : ℕ → Option Msg) (log : ℕ → EndLog) : Prop where
  need : ∀ j m, msgs j = some m → m.status.needToSendResp = true →
    m.lastFrom = (log m.addr).peer ∧ (log m.addr).peer ≠ none
  reads : ∀ j m, msgs j = some m → ∀ p ∈ m.readQueue, (log m.addr).peer = some p.owner
  acks : ∀ r, Frame.resp r ∈ wire → r.status = .ok →
    r.ackOf = (log r.owner).peer ∧ (log r.owner).peer ≠ none

/-- The ids that side `s` sends. -/
def Net.Way (σ : Net) (s : Side) : Prop :=
  Zimr.Way (σ.wire s) (σ.ep s).msgs (σ.ep s.other).msgs (σ.log s) (σ.log s.other) (σ.made s)
    (σ.made s.other)

/-- The invariant. `str`: no acknowledgement follows a disconnect of an accepted msg. `dns`:
no empty packet is queued by a msg that is not closed. -/
structure NetOK (str dns : Bool) (σ : Net) : Prop where
  sw : ∀ s, SwOK False (σ.ep s)
  quiet : ∀ s, Quiet (σ.ep s)
  dense : dns = true → ∀ s j m, (σ.ep s).msgs j = some m → DenseQueue m
  ids : ∀ s, σ.Way s
  src : ∀ s, Source (σ.wire s) (σ.ep s).msgs (σ.log s)
  link : σ.Linked str dns

theorem NetOK.init (str dns : Bool) : NetOK str dns Net.init where
  sw := fun _ => SwOK.create
  quiet := fun _ j m h => by simp [Net.init, msgSwitchCreate] at h
  dense := fun _ _ j m h => by simp [Net.init, msgSwitchCreate] at h
  ids := fun s => by
    constructor <;> simp [Net.init, Net.wire, Net.made, msgSwitchCreate]
  src := fun s => by
    constructor <;> simp [Net.init, Net.wire, msgSwitchCreate]
  link := fun s a h => by simp [Net.made, Net.init, msgSwitchCreate] at h

/-- The ids that come to side `s`. -/
theorem NetOK.ids_other (h : NetOK str dns σ) (s : Side) :
    Zimr.Way (σ.wire s.other) (σ.ep s.other).msgs (σ.ep s).msgs (σ.log s.other) (σ.log s)
      (σ.made s.other) (σ.made s) := by
  have := h.ids s.other
  simpa only [Net.Way, Side.other_other] using this

theorem NetOK.mutual (h : NetOK str dns σ) : Link.Mutual Side.other σ.peer σ.made := by
  intro s a b ha hp
  obtain ⟨h1, h2, -⟩ := (h.ids s).peer a b ha hp
  exact ⟨h1, h2⟩

/-- The link of an object with a peer. -/
theorem NetOK.sound (h : NetOK str dns σ) (hx : x < σ.made s) (hp : σ.peer s x = some y) :
    Link.Sound (str = false) (dns = false) (σ.half str s x) (σ.half str s.other y) := by
  have := h.link s x hx
  simpa only [Link.across, hp] using this

/-- The link of an object whose other half is not born. -/
theorem NetOK.sound_unborn (h : NetOK str dns σ) (hx : x < σ.made s) (hp : σ.peer s x = none) :
    Link.Sound (str = false) (dns = false) (σ.half str s x) (.unborn str) := by
  have := h.link s x hx
  simpa only [Link.across, hp] using this

theorem NetOK.stage_live (h : NetOK str dns σ) (hj : (σ.ep s).msgs j = some m) :
    (σ.half str s m.addr).stage = .live m.view :=
  MsgSwitch.stage_live (h.sw s).slots hj

/-- A live msg that the peer opened carries the id of its frames. -/
theorem NetOK.wid_pos (h : NetOK str dns σ) (hj : (σ.ep s).msgs j = some m)
    (hi : m.imsgid ≠ 0) : (σ.log s m.addr).wid = m.imsgid := by
  have hm := (h.sw s).slots.ok _ _ hj
  have hd : m.status.disconnected = false := by
    cases hd : m.status.disconnected with
    | false => rfl
    | true => exact absurd (hm.disc hd).2 hi
  rw [← (h.ids s).live j m hj hd, Msg.wireId, if_pos hi]

/-- The reader's entry for the id of the next frame belongs to the frame's sender. -/
theorem NetOK.resolve_mapped (h : NetOK str dns σ) (hw : σ.wire s.other = f :: rest)
    (hj : (σ.ep s).msgs j = some m) (hi : m.imsgid ≠ 0) (hid : f.msgid = -(m.imsgid : ℤ)) :
    σ.peer s.other f.owner = some m.addr := by
  have hway := h.ids_other s
  have hm := (h.sw s).slots.ok _ _ hj
  have ha := (h.sw s).slots.addr _ _ hj
  have hwid := h.wid_pos hj hi
  obtain ⟨x, hx⟩ := Option.ne_none_iff_exists'.1
    ((h.ids s).born m.addr ha (by rw [hwid]; omega))
  obtain ⟨hxn, hxp, hxw⟩ := (h.ids s).peer m.addr x ha hx
  have hfw := hway.frame f (by rw [hw]; exact List.mem_cons_self)
  have hle := (hway.mapped j m x hj hi hx).1 f (by rw [hw]; exact List.mem_cons_self) hid
  rcases hle.lt_or_eq with hlt | rfl
  · -- an older peer is gone, and its disconnect is on the way, before this frame
    exfalso
    have hold := hway.older x f.owner hlt hfw.1 (by rw [hxw, hwid, ← hfw.2, hid])
      (by rw [hxw, hwid]; omega)
    have hgone := MsgSwitch.stage_gone hold
    have hd : m.status.disconnected = false := by
      cases hd : m.status.disconnected with
      | false => rfl
      | true => exact absurd (hm.disc hd).2 hi
    have hs := (h.sound ha hx).inv.shake'
    have hmem := (hs.pending m.view (h.stage_live hj) hd).2 (Or.inl hgone)
    obtain ⟨g, hg, hgo, -⟩ := mem_outOf.1 hmem
    have hgw := hway.frame g hg
    have hsorted := hway.sorted
    rw [hw] at hsorted hg
    rcases List.mem_cons.1 hg with rfl | hg
    · omega
    · have := (List.pairwise_cons.1 hsorted).1 g hg
        (by rw [hid, hgw.2, hgo, hxw, hwid]) (by rw [hid]; omega)
      omega
  · exact hxp

/-- **What the next frame finds.** -/
theorem NetOK.resolve (h : NetOK str dns σ) (hw : σ.wire s.other = f :: rest) :
    (∃ m, msgGet (σ.ep s) f.msgid = some m ∧ σ.peer s.other f.owner = some m.addr) ∨
    (msgGet (σ.ep s) f.msgid = none ∧ f.msgid < 0 ∧ σ.peer s.other f.owner = none) ∨
    ∃ y, σ.peer s.other f.owner = some y ∧ (σ.half str s y).Seen ∧
      (msgGet (σ.ep s) f.msgid = none ∨ (0 < f.msgid ∧ (σ.ep s).stage y = .gone)) := by
  have hway := h.ids_other s
  have hslots := (h.sw s).slots
  have hmaps := (h.sw s).maps
  have hf := hway.frame f (by rw [hw]; exact List.mem_cons_self)
  have hne : f.msgid ≠ 0 := by rw [hf.2]; exact hway.wid_ne _ hf.1
  by_cases hneg : f.msgid < 0
  · have hk : f.msgid = -(f.msgid.natAbs : ℤ) := by omega
    by_cases hmap : (σ.ep s).imsgidMap f.msgid.natAbs = 0
    · have hget : msgGet (σ.ep s) f.msgid = none := by
        unfold msgGet
        rw [if_neg hne, if_neg (by omega), if_neg (by simpa using hmap)]
      refine Or.inr ?_
      cases hp : σ.peer s.other f.owner with
      | none => exact Or.inl ⟨hget, hneg, rfl⟩
      | some y =>
        refine Or.inr ⟨y, rfl, ?_, Or.inl hget⟩
        rcases MsgSwitch.stage_cases hslots y with ⟨i, n, hi, rfl, hst⟩ | ⟨-, hst⟩
        · -- a live peer that is not disconnected would be mapped
          refine Or.inr ⟨n.view, hst, ?_⟩
          change n.status.disconnected = true
          by_contra hd
          have hd : n.status.disconnected = false := by simpa using hd
          have hpw := (hway.peer _ _ hf.1 hp).2.2
          have hlive := (h.ids s).live i n hi hd
          rw [hpw, ← hf.2] at hlive
          have hin : n.imsgid = f.msgid.natAbs := by
            unfold Msg.wireId at hlive
            split_ifs at hlive <;> omega
          have := hmaps.imsgid i n hi (by omega)
          rw [hin, hmap] at this
          have := (hslots.slot _ _ hi).1
          omega
        · exact Or.inl hst
    · obtain ⟨m, hm, hmi⟩ := hmaps.target _ hmap
      refine Or.inl ⟨m, ?_, h.resolve_mapped hw hm (by omega) (by rw [hmi]; exact hk)⟩
      unfold msgGet
      rw [if_neg hne, if_neg (by omega), if_pos (by simpa using hmap)]
      exact hm
  · have hpos : 0 < f.msgid := by omega
    have hget : msgGet (σ.ep s) f.msgid = (σ.ep s).msgs f.msgid.toNat := by
      unfold msgGet
      rw [if_neg hne, if_pos hpos]
    obtain ⟨y, hy⟩ := Option.ne_none_iff_exists'.1 (hway.born _ hf.1 (by rw [← hf.2]; exact hpos))
    obtain ⟨hyn, hyp, hyw⟩ := hway.peer _ _ hf.1 hy
    rcases MsgSwitch.stage_cases hslots y with ⟨i, n, hi, rfl, hst⟩ | ⟨-, hst⟩
    · refine Or.inl ⟨n, ?_, hy⟩
      have := (h.ids s).opener i n hi (by rw [hyw, ← hf.2]; omega)
      rw [hyw, ← hf.2] at this
      have hij : f.msgid.toNat = i := by omega
      rw [hget, hij]; exact hi
    · exact Or.inr (Or.inr ⟨y, hy, Or.inl hst, Or.inr ⟨hpos, hst⟩⟩)

/-- What an object sends after its peer has seen its disconnect is acknowledgements, and not
even those when it is strict. -/
theorem NetOK.seen_ok (h : NetOK str dns σ) (hw : σ.wire s.other = f :: rest)
    (hp : σ.peer s.other f.owner = some y) (hseen : (σ.half str s y).Seen) :
    f.item = .ok ∧ (str = true → f.msgid < 0) := by
  have hway := h.ids_other s
  have hf := hway.frame f (by rw [hw]; exact List.mem_cons_self)
  obtain ⟨hyn, hyp, -⟩ := hway.peer _ _ hf.1 hp
  have hs := (h.sound (s := s) hyn hyp).inv.shake'.seen hseen
  have hmem : f.item ∈ (σ.half str s.other f.owner).out :=
    mem_outOf.2 ⟨f, by rw [hw]; exact List.mem_cons_self, rfl, rfl⟩
  refine ⟨hs.1 _ hmem, fun hst => ?_⟩
  by_contra hneg
  have hpos : 0 < (σ.log s.other f.owner).wid := by
    have := hway.wid_ne _ hf.1
    rw [← hf.2] at this ⊢
    omega
  have hstrict : (σ.half str s.other f.owner).strict = true := by
    change (str && decide _) = true
    simp [hst, hpos]
  rw [hs.2.1 hstrict] at hmem
  cases hmem

/-- The first frame of an object whose other half is not born is data. -/
theorem NetOK.unborn_data (h : NetOK str dns σ) (hw : σ.wire s.other = f :: rest)
    (hp : σ.peer s.other f.owner = none) : ∃ p, f = .pack p := by
  have hway := h.ids_other s
  have hf := hway.frame f (by rw [hw]; exact List.mem_cons_self)
  have hs := (h.sound_unborn hf.1 hp).inv.shake.alone rfl
  have hout : (σ.half str s.other f.owner).out = f.item :: outOf rest f.owner := by
    change outOf (σ.wire s.other) f.owner = _
    rw [hw]; simp [outOf]
  have hfirst : ∃ bs, f.item = .data bs := by
    rcases hs with ⟨-, hn⟩ | ⟨e, -, -, -, -, -, -, -, -, hn | ⟨bs, l, hn⟩, -⟩
    · rw [hout] at hn; cases hn
    · rw [hout] at hn; cases hn
    · rw [hout] at hn; exact ⟨bs, (List.cons.inj hn).1⟩
  obtain ⟨bs, hbs⟩ := hfirst
  cases f with
  | pack p => exact ⟨p, rfl⟩
  | resp r =>
    simp only [Frame.item, MsgResp.item] at hbs
    split at hbs <;> cases hbs

end Zimr
