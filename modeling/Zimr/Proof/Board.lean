import Zimr.Proof.Keeps
import Zimr.Spec.Routing

/-!
# Connections and msgs

A connection that has a website and a msg of it that is in use name each other (`Board.Joined`); a msg
is armed only while it is in use, and armed for reading only while the client takes a write. The
operations of the switches and the changes of the tables keep that, one by one.
-/

namespace Zimr

variable {sw sw' sw₁ : MsgSwitch} {w j c i : ℕ} {m m' : Msg} {o o' : Option Msg} {rd wr rd' wr' : Bool}
  {conn q : ConnData}

/-- The tables, and which sockets take a write. -/
structure Board where
  switches : ℕ → Option MsgSwitch
  connections : ℕ → Option ConnData
  websites : List Website
  free : ℕ → Prop

namespace Board

variable {b : Board}

/-- A website is registered for the socket. -/
def Hosted (b : Board) (w : ℕ) : Prop := ∃ site ∈ b.websites, site.sockfd = w

/-- What the tables ask of a slot of the switch of `w`. -/
structure Slot (b : Board) (w j : ℕ) (o : Option Msg) (rd wr : Bool) : Prop where
  id : ∀ m, o = some m → m.msgid = j ∧ 1 ≤ j
  armed : rd = true ∨ wr = true → ∃ m, o = some m ∧ m.status.connected = true ∧ m.status.closed = false
  closed : ∀ m, o = some m → m.status.closed = true → m.status.connected = true
  back : ∀ m, o = some m → m.status.closed = false → 0 ≤ m.type →
    ∃ conn, b.connections m.type.toNat = some conn ∧ conn.websiteSockfd = some w ∧ conn.msgid = j
  site : ∀ m, o = some m → 0 ≤ m.type → b.Hosted w
  paced : ∀ m, o = some m → rd = true → 0 ≤ m.type → b.free m.type.toNat

def Serves (b : Board) (w : ℕ) (sw : MsgSwitch) : Prop :=
  ∀ j, b.Slot w j (sw.msgs j) (sw.activeReadFdSet j) (sw.activeWriteFdSet j)

/-- The msg `j` is in use for the client `c`. -/
def Carries (sw : MsgSwitch) (j c : ℕ) : Prop :=
  ∃ m, sw.msgs j = some m ∧ m.status.closed = false ∧ m.status.connected = true ∧ m.type = c

structure Joined (b : Board) : Prop where
  serves : ∀ w sw, b.switches w = some sw → b.Serves w sw
  carried : ∀ c conn w, b.connections c = some conn → conn.websiteSockfd = some w →
    ∃ sw, b.switches w = some sw ∧ Carries sw conn.msgid c
  blank : ∀ c conn, b.connections c = some conn → conn.websiteSockfd = none → conn.msgid = 0

/-! ## One slot -/

theorem Slot.free_slot (b : Board) (w j : ℕ) : b.Slot w j none false false := by
  constructor
  · exact fun m h => by cases h
  · rintro (h | h) <;> cases h
  · exact fun m h => by cases h
  · exact fun m h => by cases h
  · exact fun m h => by cases h
  · exact fun m h => by cases h

/-- An empty slot is not armed. -/
theorem Slot.unarmed (h : b.Slot w j none rd wr) : rd = false ∧ wr = false := by
  refine ⟨?_, ?_⟩
  · by_contra hr
    obtain ⟨m, hm, -⟩ := h.armed (.inl (by simpa using hr))
    cases hm
  · by_contra hw
    obtain ⟨m, hm, -⟩ := h.armed (.inr (by simpa using hw))
    cases hm

/-- The same msg with less interest, or with an interest that it may have. -/
theorem Slot.kept (h : b.Slot w j o rd wr) (hlive : ∀ m, o = some m → ∃ m', o' = some m' ∧ m.Kept m')
    (hdead : o = none → o' = none)
    (hr : rd' = true → rd = true ∨ ∃ m, o = some m ∧ m.status.connected = true ∧ m.status.closed = false ∧
      (0 ≤ m.type → b.free m.type.toNat))
    (hw : wr' = true → wr = true ∨ ∃ m, o = some m ∧ m.status.connected = true ∧ m.status.closed = false) :
    b.Slot w j o' rd' wr' := by
  have hold : ∀ m', o' = some m' → ∃ m, o = some m ∧ m.Kept m' := by
    intro m' hm'
    cases ho : o with
    | none => rw [hdead ho] at hm'; cases hm'
    | some m =>
      obtain ⟨m₁, hm₁, k⟩ := hlive m ho
      obtain rfl := Option.some.inj (hm'.symm.trans hm₁)
      exact ⟨m, rfl, k⟩
  have harmed : rd' = true ∨ wr' = true → ∃ m, o = some m ∧ m.status.connected = true ∧
      m.status.closed = false := by
    rintro (h' | h')
    · obtain hrd | ⟨m, hm, hcon, hcl, -⟩ := hr h'
      · exact h.armed (.inl hrd)
      · exact ⟨m, hm, hcon, hcl⟩
    · obtain hwr | hm := hw h'
      · exact h.armed (.inr hwr)
      · exact hm
  constructor
  · intro m' hm'
    obtain ⟨m, hm, k⟩ := hold m' hm'
    rw [k.msgid]
    exact h.id m hm
  · intro h'
    obtain ⟨m, hm, hcon, hcl⟩ := harmed h'
    obtain ⟨m', hm', k⟩ := hlive m hm
    exact ⟨m', hm', k.connected.trans hcon, k.closed.trans hcl⟩
  · intro m' hm' hcl
    obtain ⟨m, hm, k⟩ := hold m' hm'
    exact k.connected.trans (h.closed m hm (k.closed.symm.trans hcl))
  · intro m' hm' hcl ht
    obtain ⟨m, hm, k⟩ := hold m' hm'
    rw [k.type] at ht ⊢
    exact h.back m hm (k.closed.symm.trans hcl) ht
  · intro m' hm' ht
    obtain ⟨m, hm, k⟩ := hold m' hm'
    rw [k.type] at ht
    exact h.site m hm ht
  · intro m' hm' h' ht
    obtain ⟨m, hm, k⟩ := hold m' hm'
    rw [k.type] at ht ⊢
    obtain hrd | ⟨m₀, hm₀, -, -, hf⟩ := hr h'
    · exact h.paced m hm hrd ht
    · obtain rfl := Option.some.inj (hm.symm.trans hm₀)
      exact hf ht

/-- A msg that is closed. -/
theorem Slot.close (h : b.Slot w j o rd wr) (hcon : ∀ m, o = some m → m.status.connected = true)
    (hm' : ∀ m', o' = some m' → m'.status.closed = true ∧ ∃ m, o = some m ∧ m'.msgid = m.msgid ∧
      m'.type = m.type ∧ m'.status.connected = m.status.connected) : b.Slot w j o' false false := by
  constructor
  · intro m' h'
    obtain ⟨-, m, hm, hid, -⟩ := hm' m' h'
    rw [hid]
    exact h.id m hm
  · rintro (h' | h') <;> cases h'
  · intro m' h' _
    obtain ⟨-, m, hm, -, -, hk⟩ := hm' m' h'
    exact hk.trans (hcon m hm)
  · intro m' h' hcl
    rw [(hm' m' h').1] at hcl
    cases hcl
  · intro m' h' ht
    obtain ⟨-, m, hm, -, hty, -⟩ := hm' m' h'
    rw [hty] at ht
    exact h.site m hm ht
  · intro m' _ h'
    cases h'

/-- The tables around the slot change. -/
theorem Slot.congr {b' : Board} (h : b.Slot w j o rd wr)
    (hback : ∀ m, o = some m → m.status.closed = false → 0 ≤ m.type → ∀ conn,
      b.connections m.type.toNat = some conn → conn.websiteSockfd = some w → conn.msgid = j →
      ∃ conn', b'.connections m.type.toNat = some conn' ∧ conn'.websiteSockfd = some w ∧ conn'.msgid = j)
    (hsite : b.Hosted w → b'.Hosted w)
    (hfree : ∀ m, o = some m → rd = true → m.status.closed = false → 0 ≤ m.type → b.free m.type.toNat →
      b'.free m.type.toNat) : b'.Slot w j o rd wr := by
  refine ⟨h.id, h.armed, h.closed, fun m hm hcl ht => ?_, fun m hm ht => hsite (h.site m hm ht),
    fun m hm hr ht => ?_⟩
  · obtain ⟨conn, hc, hw, hj⟩ := h.back m hm hcl ht
    exact hback m hm hcl ht conn hc hw hj
  · obtain ⟨m₀, hm₀, -, hcl⟩ := h.armed (.inl hr)
    obtain rfl := Option.some.inj (hm.symm.trans hm₀)
    exact hfree m hm hr hcl ht (h.paced m hm hr ht)

/-! ## One switch -/

theorem Serves.off (h : b.Serves w sw) (ho : Off sw sw' j)
    (hj : b.Slot w j (sw'.msgs j) (sw'.activeReadFdSet j) (sw'.activeWriteFdSet j)) : b.Serves w sw' := by
  intro i
  by_cases hi : i = j
  · rw [hi]
    exact hj
  · exact (h i).kept (fun m hm => ho.live i m hi hm) (ho.dead i hi)
      (fun h => .inl ((ho.rd i hi).symm.trans h)) fun h => .inl ((ho.wr i hi).symm.trans h)

theorem Serves.lives (h : b.Serves w sw) (hl : Lives sw sw')
    (hr : ∀ i, sw'.activeReadFdSet i = true → sw.activeReadFdSet i = true ∨
      ∃ m, sw.msgs i = some m ∧ m.status.connected = true ∧ m.status.closed = false ∧
        (0 ≤ m.type → b.free m.type.toNat))
    (hw : ∀ i, sw'.activeWriteFdSet i = true → sw.activeWriteFdSet i = true ∨
      ∃ m, sw.msgs i = some m ∧ m.status.connected = true ∧ m.status.closed = false) : b.Serves w sw' :=
  fun i => (h i).kept (hl.live i) (hl.dead i) (hr i) (hw i)

theorem Serves.keeps (h : b.Serves w sw) (hk : Keeps sw sw') : b.Serves w sw' :=
  h.lives hk.toLives (fun i hi => .inl (by rw [← hk.rd]; exact hi)) fun i hi => .inl (by rw [← hk.wr]; exact hi)

theorem Serves.slots (h : b.Serves w sw) (i : ℕ) (m : Msg) (hm : sw.msgs i = some m) : m.msgid = i :=
  ((h i).id m hm).1

theorem Carries.lives (h : Carries sw j c) (hl : Lives sw sw') : Carries sw' j c := by
  obtain ⟨m, hm, hcl, hcon, ht⟩ := h
  obtain ⟨m', hm', k⟩ := hl.live j m hm
  exact ⟨m', hm', k.closed.trans hcl, k.connected.trans hcon, k.type.trans ht⟩

theorem Carries.off (h : Carries sw j c) (ho : Off sw sw' i) (hi : j ≠ i) : Carries sw' j c := by
  obtain ⟨m, hm, hcl, hcon, ht⟩ := h
  obtain ⟨m', hm', k⟩ := ho.live j m hi hm
  exact ⟨m', hm', k.closed.trans hcl, k.connected.trans hcon, k.type.trans ht⟩

/-! ## The switch of one socket -/

/-- The board with another switch for `w`. -/
def put (b : Board) (w : ℕ) (x : Option MsgSwitch) : Board :=
  { b with switches := Function.update b.switches w x }

theorem Joined.put (h : b.Joined) (hs : b.Serves w sw')
    (hc : ∀ c conn, b.connections c = some conn → conn.websiteSockfd = some w → Carries sw' conn.msgid c) :
    (b.put w (some sw')).Joined := by
  refine ⟨fun v sw hv => ?_, fun c conn v hconn hv => ?_, h.blank⟩
  · have hv : Function.update b.switches w (some sw') v = some sw := hv
    have hserves : b.Serves v sw := by
      by_cases he : v = w
      · rw [he, Function.update_self] at hv
        cases hv
        rw [he]
        exact hs
      · rw [Function.update_of_ne he] at hv
        exact h.serves v sw hv
    exact fun j => (hserves j).congr (fun _ _ _ _ conn h₁ h₂ h₃ => ⟨conn, h₁, h₂, h₃⟩) id fun _ _ _ _ _ hf => hf
  · show ∃ sw, Function.update b.switches w (some sw') v = some sw ∧ _
    by_cases he : v = w
    · subst he
      exact ⟨sw', Function.update_self _ _ _, hc c conn hconn hv⟩
    · rw [Function.update_of_ne he]
      exact h.carried c conn v hconn hv

theorem Joined.lives (h : b.Joined) (hsw : b.switches w = some sw) (hl : Lives sw sw') (hs : b.Serves w sw') :
    (b.put w (some sw')).Joined := by
  refine h.put hs fun c conn hconn hw => ?_
  obtain ⟨sw₀, h₀, hcar⟩ := h.carried c conn w hconn hw
  obtain rfl := Option.some.inj (hsw.symm.trans h₀)
  exact hcar.lives hl

theorem Joined.keeps (h : b.Joined) (hsw : b.switches w = some sw) (hk : Keeps sw sw') :
    (b.put w (some sw')).Joined :=
  h.lives hsw hk.toLives ((h.serves w sw hsw).keeps hk)

/-- A msg of no client changes. -/
theorem Joined.off (h : b.Joined) (hsw : b.switches w = some sw) (ho : Off sw sw' j)
    (hj : b.Slot w j (sw'.msgs j) (sw'.activeReadFdSet j) (sw'.activeWriteFdSet j))
    (hn : ∀ c, ¬Carries sw j c) : (b.put w (some sw')).Joined := by
  refine h.put ((h.serves w sw hsw).off ho hj) fun c conn hconn hw => ?_
  obtain ⟨sw₀, h₀, hcar⟩ := h.carried c conn w hconn hw
  obtain rfl := Option.some.inj (hsw.symm.trans h₀)
  refine hcar.off ho ?_
  rintro rfl
  exact hn c hcar

/-- The switch of a socket that no connection refers to goes, or a new one comes. -/
theorem Joined.drop (h : b.Joined) (hn : ∀ c conn, b.connections c = some conn → conn.websiteSockfd ≠ some w) :
    (b.put w none).Joined := by
  refine ⟨fun v sw hv => ?_, fun c conn v hconn hv => ?_, h.blank⟩
  · have hv : Function.update b.switches w none v = some sw := hv
    by_cases he : v = w
    · rw [he, Function.update_self] at hv
      cases hv
    · rw [Function.update_of_ne he] at hv
      exact fun j => (h.serves v sw hv j).congr (fun _ _ _ _ conn h₁ h₂ h₃ => ⟨conn, h₁, h₂, h₃⟩) id
        fun _ _ _ _ _ hf => hf
  · show ∃ sw, Function.update b.switches w none v = some sw ∧ _
    have he : v ≠ w := by
      rintro rfl
      exact hn c conn hconn hv
    rw [Function.update_of_ne he]
    exact h.carried c conn v hconn hv

theorem Joined.create (h : b.Joined) (hn : b.switches w = none) : (b.put w (some msgSwitchCreate)).Joined := by
  refine h.put (fun j => Slot.free_slot b w j) fun c conn hconn hw => ?_
  obtain ⟨sw, hsw, -⟩ := h.carried c conn w hconn hw
  rw [hn] at hsw
  cases hsw

/-! ## The tables -/

/-- The websites change, and which sockets take a write. -/
theorem Joined.around (h : b.Joined) {s : List Website} {f : ℕ → Prop}
    (hsite : ∀ w sw, b.switches w = some sw → b.Hosted w → ∃ site ∈ s, site.sockfd = w)
    (hfree : ∀ w sw j m conn, b.switches w = some sw → sw.msgs j = some m → sw.activeReadFdSet j = true →
      0 ≤ m.type → b.connections m.type.toNat = some conn → b.free m.type.toNat → f m.type.toNat) :
    ({ b with websites := s, free := f } : Board).Joined := by
  refine ⟨fun w sw hsw j => (h.serves w sw hsw j).congr (fun _ _ _ _ conn h₁ h₂ h₃ => ⟨conn, h₁, h₂, h₃⟩)
    (hsite w sw hsw) fun m hm hr hcl ht hf => ?_, h.carried, h.blank⟩
  obtain ⟨conn, hconn, -⟩ := (h.serves w sw hsw j).back m hm hcl ht
  exact hfree w sw j m conn hsw hm hr ht hconn hf

/-- What the clients' sockets take is not less. -/
theorem Joined.refree (h : b.Joined) {f : ℕ → Prop}
    (hf : ∀ c conn, b.connections c = some conn → b.free c → f c) : ({ b with free := f } : Board).Joined :=
  h.around (s := b.websites) (fun _ _ _ h => h) fun _ _ _ _ _ _ _ _ _ hconn => hf _ _ hconn

theorem Joined.sites (h : b.Joined) {s : List Website}
    (hs : ∀ w sw, b.switches w = some sw → b.Hosted w → ∃ site ∈ s, site.sockfd = w) :
    ({ b with websites := s } : Board).Joined :=
  h.around (f := b.free) hs fun _ _ _ _ _ _ _ _ _ _ hf => hf

/-- The board with another entry for `c`. -/
def link (b : Board) (c : ℕ) (x : Option ConnData) : Board :=
  { b with connections := Function.update b.connections c x }

theorem link_self (b : Board) (c : ℕ) (x : Option ConnData) : (b.link c x).connections c = x :=
  Function.update_self _ _ _

theorem link_of_ne (b : Board) (x : Option ConnData) (hi : i ≠ c) :
    (b.link c x).connections i = b.connections i :=
  Function.update_of_ne hi _ _

/-- Another record of the same connection. -/
theorem Joined.setConn (h : b.Joined) (hc : b.connections c = some conn)
    (hw : q.websiteSockfd = conn.websiteSockfd) (hm : q.msgid = conn.msgid) :
    (b.link c (some q)).Joined := by
  have hold : ∀ i new, (b.link c (some q)).connections i = some new → ∃ old, b.connections i = some old ∧
      new.websiteSockfd = old.websiteSockfd ∧ new.msgid = old.msgid := by
    intro i new hi
    by_cases he : i = c
    · rw [he, link_self] at hi
      cases hi
      exact ⟨conn, by rw [he]; exact hc, hw, hm⟩
    · rw [link_of_ne b _ he] at hi
      exact ⟨new, hi, rfl, rfl⟩
  refine ⟨fun w sw hsw j => (h.serves w sw hsw j).congr (fun m _ _ _ old h₁ h₂ h₃ => ?_) id
    fun _ _ _ _ _ hf => hf, fun i new w hi hiw => ?_, fun i new hi hn => ?_⟩
  · by_cases he : m.type.toNat = c
    · rw [he] at h₁ ⊢
      obtain rfl := Option.some.inj (hc.symm.trans h₁)
      exact ⟨q, link_self b c _, hw.trans h₂, hm.trans h₃⟩
    · rw [link_of_ne b _ he]
      exact ⟨old, h₁, h₂, h₃⟩
  · obtain ⟨old, hold, hwo, hmo⟩ := hold i new hi
    rw [hmo]
    exact h.carried i old w hold (hwo.symm.trans hiw)
  · obtain ⟨old, hold, hwo, hmo⟩ := hold i new hi
    rw [hmo]
    exact h.blank i old hold (hwo.symm.trans hn)

/-- A connection without a website comes. -/
theorem Joined.addConn (h : b.Joined) (hc : b.connections c = none) (hw : conn.websiteSockfd = none)
    (hm : conn.msgid = 0) : (b.link c (some conn)).Joined := by
  refine ⟨fun w sw hsw j => (h.serves w sw hsw j).congr (fun m _ _ _ old h₁ h₂ h₃ => ?_) id
    fun _ _ _ _ _ hf => hf, fun i new w hi hiw => ?_, fun i new hi hn => ?_⟩
  · have he : m.type.toNat ≠ c := by
      intro he
      rw [he, hc] at h₁
      cases h₁
    rw [link_of_ne b _ he]
    exact ⟨old, h₁, h₂, h₃⟩
  · by_cases he : i = c
    · rw [he, link_self] at hi
      cases hi
      rw [hw] at hiw
      cases hiw
    · rw [link_of_ne b _ he] at hi
      exact h.carried i new w hi hiw
  · by_cases he : i = c
    · rw [he, link_self] at hi
      cases hi
      exact hm
    · rw [link_of_ne b _ he] at hi
      exact h.blank i new hi hn

/-- **A msg is opened** for a connection that has no website yet. -/
theorem Joined.opens (h : b.Joined) (hsw : b.switches w = some sw) (ho : Opens sw sw' j c true)
    (hc : b.connections c = some conn) (hn : conn.websiteSockfd = none) (hs : b.Hosted w)
    (hw : q.websiteSockfd = some w) (hj : q.msgid = j) :
    ((b.put w (some sw')).link c (some q)).Joined := by
  have hserves : ∀ v sv, b.switches v = some sv → (b.link c (some q)).Serves v sv := by
    intro v sv hv i
    refine (h.serves v sv hv i).congr (fun m _ _ _ old h₁ h₂ h₃ => ?_) id fun _ _ _ _ _ hf => hf
    have he : m.type.toNat ≠ c := by
      intro he
      rw [he, hc] at h₁
      cases h₁
      rw [hn] at h₂
      cases h₂
    rw [link_of_ne b _ he]
    exact ⟨old, h₁, h₂, h₃⟩
  obtain ⟨m, hm, hid, ht, hcl, hcon⟩ := ho.slot
  -- the new msg
  have hslot : (b.link c (some q)).Slot w j (sw'.msgs j) (sw'.activeReadFdSet j) (sw'.activeWriteFdSet j) := by
    have hold := h.serves w sw hsw j
    rw [ho.free] at hold
    obtain ⟨hr, hwr⟩ := hold.unarmed
    rw [ho.rd, ho.wr, hr, hwr, hm]
    constructor
    · rintro m' ⟨⟩
      exact ⟨hid, ho.pos⟩
    · rintro (h' | h') <;> cases h'
    · rintro m' ⟨⟩ hcl'
      rw [hcl] at hcl'
      cases hcl'
    · rintro m' ⟨⟩ _ _
      refine ⟨q, ?_, hw, hj⟩
      rw [ht, Int.toNat_natCast]
      exact link_self b c _
    · rintro m' ⟨⟩ _
      exact hs
    · rintro m' _ h'
      cases h'
  have hserves' : (b.link c (some q)).Serves w sw' := (hserves w sw hsw).off ho.off hslot
  refine ⟨fun v sv hv => ?_, fun i new v hi hv => ?_, fun i new hi hnew => ?_⟩
  · have hv : Function.update b.switches w (some sw') v = some sv := hv
    have hsv : (b.link c (some q)).Serves v sv := by
      by_cases he : v = w
      · rw [he, Function.update_self] at hv
        cases hv
        rw [he]
        exact hserves'
      · rw [Function.update_of_ne he] at hv
        exact hserves v sv hv
    exact fun j => (hsv j).congr (fun _ _ _ _ conn h₁ h₂ h₃ => ⟨conn, h₁, h₂, h₃⟩) id fun _ _ _ _ _ hf => hf
  · have hi : (b.link c (some q)).connections i = some new := hi
    show ∃ sv, Function.update b.switches w (some sw') v = some sv ∧ _
    by_cases he : i = c
    · rw [he, link_self] at hi
      cases hi
      obtain rfl := Option.some.inj (hw.symm.trans hv)
      refine ⟨sw', Function.update_self _ _ _, ?_⟩
      rw [hj, he]
      exact ⟨m, hm, hcl, hcon, ht⟩
    · rw [link_of_ne b _ he] at hi
      obtain ⟨sv, hsv, hcar⟩ := h.carried i new v hi hv
      by_cases hvw : v = w
      · subst hvw
        obtain rfl := Option.some.inj (hsw.symm.trans hsv)
        refine ⟨sw', Function.update_self _ _ _, hcar.off ho.off ?_⟩
        rintro rfl
        obtain ⟨m₀, hm₀, -⟩ := hcar
        rw [ho.free] at hm₀
        cases hm₀
      · rw [Function.update_of_ne hvw]
        exact ⟨sv, hsv, hcar⟩
  · have hi : (b.link c (some q)).connections i = some new := hi
    by_cases he : i = c
    · rw [he, link_self] at hi
      cases hi
      rw [hw] at hnew
      cases hnew
    · rw [link_of_ne b _ he] at hi
      exact h.blank i new hi hnew

/-- A connection goes that no msg in use names. -/
theorem unlinked {free : ℕ → Prop} (hs : ∀ w sw, b.switches w = some sw → b.Serves w sw)
    (hcar : ∀ i conn w, i ≠ c → b.connections i = some conn → conn.websiteSockfd = some w →
      ∃ sw, b.switches w = some sw ∧ Carries sw conn.msgid i)
    (hblank : ∀ i conn, b.connections i = some conn → conn.websiteSockfd = none → conn.msgid = 0)
    (hc : ∀ w sw j m, b.switches w = some sw → sw.msgs j = some m → m.status.closed = false → 0 ≤ m.type →
      m.type.toNat ≠ c) (hf : ∀ i, i ≠ c → b.free i → free i) :
    ({ b.link c none with free } : Board).Joined := by
  have hold : ∀ i new, (b.link c none).connections i = some new → i ≠ c ∧ b.connections i = some new := by
    intro i new hi
    by_cases he : i = c
    · rw [he, link_self] at hi
      cases hi
    · rw [link_of_ne b _ he] at hi
      exact ⟨he, hi⟩
  refine ⟨fun w sw hsw j => (hs w sw hsw j).congr (fun m hm hcl ht old h₁ h₂ h₃ => ⟨old, ?_, h₂, h₃⟩) id
    fun m hm _ hcl ht => hf _ (hc w sw j m hsw hm hcl ht), fun i new w hi hiw => ?_, fun i new hi hn => ?_⟩
  · exact (link_of_ne b none (hc w sw j m hsw hm hcl ht)).trans h₁
  · obtain ⟨he, hi⟩ := hold i new hi
    exact hcar i new w he hi hiw
  · exact hblank i new (hold i new hi).2 hn

/-- A connection without a website goes. -/
theorem Joined.unlink (h : b.Joined) {free : ℕ → Prop} (hc : b.connections c = some conn)
    (hn : conn.websiteSockfd = none) (hf : ∀ i, i ≠ c → b.free i → free i) :
    ({ b.link c none with free } : Board).Joined := by
  refine unlinked h.serves (fun i conn w _ => h.carried i conn w) h.blank
    (fun w sw j m hsw hm hcl ht he => ?_) hf
  obtain ⟨conn', hc', hw, -⟩ := (h.serves w sw hsw j).back m hm hcl ht
  rw [he, hc] at hc'
  cases hc'
  rw [hn] at hw
  cases hw

/-- **A connection goes with its msg.** -/
theorem Joined.release (h : b.Joined) {free : ℕ → Prop} (hsw : b.switches w = some sw)
    (hcl : Closes sw sw' conn.msgid) (hc : b.connections c = some conn) (hw : conn.websiteSockfd = some w)
    (hf : ∀ i, i ≠ c → b.free i → free i) :
    ({ (b.put w (some sw')).link c none with free } : Board).Joined := by
  obtain ⟨sw₀, h₀, m, hm, hopen, hcon, -⟩ := h.carried c conn w hc hw
  obtain rfl := Option.some.inj (hsw.symm.trans h₀)
  have hslot : b.Slot w conn.msgid (sw'.msgs conn.msgid) (sw'.activeReadFdSet conn.msgid)
      (sw'.activeWriteFdSet conn.msgid) := by
    rw [hcl.rd, hcl.wr]
    refine (h.serves w sw hsw conn.msgid).close (fun m₁ hm₁ => ?_) hcl.slot
    obtain rfl := Option.some.inj (hm.symm.trans hm₁)
    exact hcon
  have hs' : b.Serves w sw' := (h.serves w sw hsw).off hcl.off hslot
  have hsv : ∀ v sv, (b.put w (some sw')).switches v = some sv →
      b.Serves v sv ∧ ∀ i m, sv.msgs i = some m → m.status.closed = false → 0 ≤ m.type → m.type.toNat ≠ c := by
    intro v sv hv
    have hv : Function.update b.switches w (some sw') v = some sv := hv
    by_cases he : v = w
    · rw [he, Function.update_self] at hv
      cases hv
      subst he
      refine ⟨hs', fun i m₁ hm₁ hcl₁ ht₁ hi => ?_⟩
      obtain ⟨conn', hc', -, hj⟩ := (hs' i).back m₁ hm₁ hcl₁ ht₁
      rw [hi, hc] at hc'
      cases hc'
      rw [← hj] at hm₁
      rw [(hcl.slot m₁ hm₁).1] at hcl₁
      cases hcl₁
    · rw [Function.update_of_ne he] at hv
      refine ⟨h.serves v sv hv, fun i m₁ hm₁ hcl₁ ht₁ hi => ?_⟩
      obtain ⟨conn', hc', hw', -⟩ := (h.serves v sv hv i).back m₁ hm₁ hcl₁ ht₁
      rw [hi, hc] at hc'
      cases hc'
      exact he (Option.some.inj (hw'.symm.trans hw))
  refine unlinked (b := b.put w (some sw')) (fun v sv hv j => ((hsv v sv hv).1 j).congr
    (fun _ _ _ _ conn h₁ h₂ h₃ => ⟨conn, h₁, h₂, h₃⟩) id fun _ _ _ _ _ hf => hf) (fun i new v hi hnew hv => ?_)
    h.blank (fun v sv j m₁ hv => (hsv v sv hv).2 j m₁) hf
  obtain ⟨sv, hsv₀, hcar⟩ := h.carried i new v hnew hv
  show ∃ sv, Function.update b.switches w (some sw') v = some sv ∧ _
  by_cases he : v = w
  · subst he
    obtain rfl := Option.some.inj (hsw.symm.trans hsv₀)
    refine ⟨sw', Function.update_self _ _ _, hcar.off hcl.off fun hj => ?_⟩
    -- two connections do not share a msg
    obtain ⟨m₁, hm₁, -, -, ht₁⟩ := hcar
    obtain ⟨sw₂, h₂, m₂, hm₂, -, -, ht₂⟩ := h.carried c conn v hc hw
    obtain rfl := Option.some.inj (hsw.symm.trans h₂)
    rw [hj, hm₂] at hm₁
    cases hm₁
    exact hi (Int.ofNat.inj (ht₁.symm.trans ht₂))
  · rw [Function.update_of_ne he]
    exact ⟨sv, hsv₀, hcar⟩

/-- A msg that is closed for no client. -/
theorem Joined.closes (h : b.Joined) (hsw : b.switches w = some sw) (hcl : Closes sw sw' j)
    (hm : ∀ m, sw.msgs j = some m → m.type < 0 ∧ m.status.connected = true) : (b.put w (some sw')).Joined := by
  refine h.off hsw hcl.off ?_ ?_
  · rw [hcl.rd, hcl.wr]
    exact (h.serves w sw hsw j).close (fun m h' => (hm m h').2) hcl.slot
  · rintro c ⟨m, h', -, -, ht⟩
    have := (hm m h').1
    omega

/-! ## Operations on a switch -/

theorem put_put (b : Board) (w : ℕ) (x y : Option MsgSwitch) : (b.put w x).put w y = b.put w y := by
  unfold put
  rw [Function.update_idem]

theorem put_self (b : Board) (w : ℕ) (x : Option MsgSwitch) : (b.put w x).switches w = x :=
  Function.update_self _ _ _

/-- **A frame.** -/
theorem Joined.frame {frame : Frame} (h : b.Joined) (hsw : b.switches w = some sw)
    (hn : sw.strayFrame frame = false) (hc : msgSwitchDispatch sw frame = .ok sw') :
    (b.put w (some sw')).Joined := by
  have hs := h.serves w sw hsw
  obtain hk | ⟨resp, m, rfl, hdis, hg, hsent, ho, hnone, hr, hw⟩ | ⟨packet, j, rfl, hg, ho⟩ :=
    msgSwitchDispatch_cases hs.slots hc
  · exact h.keeps hsw hk
  · -- a msg that is freed is closed
    have hj := msgGet_slot hs.slots hg
    have hcl : m.status.closed = true := by
      simpa [MsgSwitch.strayFrame, hg, hdis, hsent] using hn
    have harm : ¬(sw.activeReadFdSet m.msgid = true ∨ sw.activeWriteFdSet m.msgid = true) := by
      intro harm
      obtain ⟨m₁, hm₁, -, hopen⟩ := (hs m.msgid).armed harm
      obtain rfl := Option.some.inj (hj.symm.trans hm₁)
      rw [hcl] at hopen
      cases hopen
    refine h.off hsw ho ?_ ?_
    · rw [hnone, hr, hw, Bool.eq_false_iff.2 fun h => harm (.inl h), Bool.eq_false_iff.2 fun h => harm (.inr h)]
      exact Slot.free_slot b w m.msgid
    · rintro c ⟨m₁, hm₁, hopen, -⟩
      obtain rfl := Option.some.inj (hj.symm.trans hm₁)
      rw [hcl] at hopen
      cases hopen
  · -- a new msg is a command
    have ht : packet.type < 0 := by
      simpa [MsgSwitch.strayFrame, hg] using hn
    obtain ⟨m, hm, hid, hty, hcl, hcon⟩ := ho.slot
    have hold := hs j
    rw [ho.free] at hold
    obtain ⟨hr, hwr⟩ := hold.unarmed
    refine h.off hsw ho.off ?_ ?_
    · rw [ho.rd, ho.wr, hr, hwr, hm]
      constructor
      · rintro m' ⟨⟩
        exact ⟨hid, ho.pos⟩
      · rintro (h' | h') <;> cases h'
      · rintro m' ⟨⟩ hcl'
        rw [hcl] at hcl'
        cases hcl'
      · rintro m' ⟨⟩ _ h0
        omega
      · rintro m' ⟨⟩ h0
        omega
      · rintro m' _ h'
        cases h'
    · rintro c ⟨m₁, hm₁, -⟩
      rw [ho.free] at hm₁
      cases hm₁

/-- **The frames of a read.** -/
theorem Joined.frames (frames : List Frame) : ∀ (b : Board) (sw : MsgSwitch), b.Joined →
    b.switches w = some sw → MsgSwitch.strayFrames frames sw = false →
    Daemon.dispatchAll frames sw = .ok sw' → (b.put w (some sw')).Joined := by
  induction frames with
  | nil =>
    intro b sw h hsw _ hc
    cases hc
    exact h.keeps hsw (.refl sw')
  | cons frame frames ih =>
    intro b sw h hsw hn hc
    obtain ⟨sw₁, h₁, hc⟩ := Run.bind_inv hc
    simp only [MsgSwitch.strayFrames, h₁, Bool.or_eq_false_iff] at hn
    have := ih (b.put w (some sw₁)) sw₁ (h.frame hsw hn.1 h₁) (put_self b w _) hn.2 hc
    rwa [put_put] at this

/-- **`msg_accept`** of a msg that has not been accepted: it is a command. -/
theorem Joined.accept {r : Except Errno ℕ} (h : b.Joined) (hsw : b.switches w = some sw)
    (hm : sw.msgs j = some m) (hcon : m.status.connected = false) (hc : msgAccept sw j = .ok (sw', r)) :
    (b.put w (some sw')).Joined ∧
      ∀ m', sw'.msgs j = some m' → m'.status.connected = true ∧ m'.status.closed = false ∧ m'.type < 0 := by
  have hs := h.serves w sw hsw
  have hopen : m.status.closed = false := by
    by_contra hcl
    have := (hs j).closed m hm (by simpa using hcl)
    rw [hcon] at this
    cases this
  have hcmd : m.type < 0 := by
    by_contra ht
    obtain ⟨conn, hconn, hw, hj⟩ := (hs j).back m hm hopen (by omega)
    obtain ⟨sw₀, h₀, m₀, hm₀, -, hcon₀, -⟩ := h.carried _ conn w hconn hw
    obtain rfl := Option.some.inj (hsw.symm.trans h₀)
    rw [hj, hm] at hm₀
    cases hm₀
    rw [hcon] at hcon₀
    cases hcon₀
  obtain ⟨-, hidle⟩ | ⟨m₀, hm₀, -, ho, hr, hwr, hslot⟩ := msgAccept_cases hc
  · rcases hidle m hm with hcl | hcon'
    · rw [hopen] at hcl
      cases hcl
    · rw [hcon] at hcon'
      cases hcon'
  obtain rfl := Option.some.inj (hm.symm.trans hm₀)
  have harm : ¬(sw.activeReadFdSet j = true ∨ sw.activeWriteFdSet j = true) := by
    intro harm
    obtain ⟨m₁, hm₁, hcon₁, -⟩ := (hs j).armed harm
    obtain rfl := Option.some.inj (hm.symm.trans hm₁)
    rw [hcon] at hcon₁
    cases hcon₁
  have hnew : ∀ m', sw'.msgs j = some m' →
      m'.status.connected = true ∧ m'.status.closed = false ∧ m'.type < 0 := by
    intro m' hm'
    obtain ⟨-, hty, hcl, hcon'⟩ := hslot m' hm'
    exact ⟨hcon', hcl.trans hopen, by rw [hty]; exact hcmd⟩
  refine ⟨h.off hsw ho ?_ ?_, hnew⟩
  · rw [hr, hwr, Bool.eq_false_iff.2 fun h => harm (.inl h), Bool.eq_false_iff.2 fun h => harm (.inr h)]
    constructor
    · intro m' hm'
      rw [(hslot m' hm').1]
      exact (hs j).id m hm
    · rintro (h' | h') <;> cases h'
    · exact fun m' hm' _ => (hnew m' hm').1
    · intro m' hm' _ h0
      have := (hnew m' hm').2.2
      omega
    · intro m' hm' h0
      have := (hnew m' hm').2.2
      omega
    · rintro m' _ h'
      cases h'
  · rintro c ⟨m₁, hm₁, -, hcon₁, -⟩
    obtain rfl := Option.some.inj (hm.symm.trans hm₁)
    rw [hcon] at hcon₁
    cases hcon₁

/-- **`msg_set_read`** of a msg in use, whose client takes a write. -/
theorem Joined.setRead (h : b.Joined) (hsw : b.switches w = some sw)
    (hm : ∀ m, sw.msgs j = some m → m.status.connected = true ∧ m.status.closed = false ∧
      (0 ≤ m.type → b.free m.type.toNat))
    (hc : msgSetRead sw j = .ok sw') : (b.put w (some sw')).Joined := by
  obtain ⟨hj, hl, hr, hw⟩ := msgSetRead_lives hc
  obtain ⟨m, hmj⟩ := Option.isSome_iff_exists.1 hj
  refine h.lives hsw hl
    ((h.serves w sw hsw).lives hl (fun i hi => ?_) fun i hi => .inl (by rw [← hw]; exact hi))
  by_cases he : i = j
  · subst he
    exact .inr ⟨m, hmj, hm m hmj⟩
  · rw [hr, Function.update_of_ne he] at hi
    exact .inl hi

/-- **`msg_set_write`** of a msg in use. -/
theorem Joined.setWrite (h : b.Joined) (hsw : b.switches w = some sw)
    (hm : ∀ m, sw.msgs j = some m → m.status.connected = true ∧ m.status.closed = false)
    (hc : msgSetWrite sw j = .ok sw') : (b.put w (some sw')).Joined := by
  obtain ⟨hj, hl, hr, hw⟩ := msgSetWrite_lives hc
  obtain ⟨m, hmj⟩ := Option.isSome_iff_exists.1 hj
  refine h.lives hsw hl
    ((h.serves w sw hsw).lives hl (fun i hi => .inl (by rw [← hr]; exact hi)) fun i hi => ?_)
  by_cases he : i = j
  · subst he
    exact .inr ⟨m, hmj, hm m hmj⟩
  · rw [hw, Function.update_of_ne he] at hi
    exact .inl hi

/-- The interest in a msg is taken away. -/
theorem Joined.less (h : b.Joined) (hsw : b.switches w = some sw) (hl : Lives sw sw')
    (hr : ∀ i, sw'.activeReadFdSet i = true → sw.activeReadFdSet i = true)
    (hw : ∀ i, sw'.activeWriteFdSet i = true → sw.activeWriteFdSet i = true) :
    (b.put w (some sw')).Joined :=
  h.lives hsw hl ((h.serves w sw hsw).lives hl (fun i hi => .inl (hr i hi)) fun i hi => .inl (hw i hi))

theorem Joined.clrRead (h : b.Joined) (hsw : b.switches w = some sw) (hc : msgClrRead sw j = .ok sw') :
    (b.put w (some sw')).Joined ∧ sw'.activeReadFdSet j = false := by
  obtain ⟨-, hl, hr, hw⟩ := msgClrRead_lives hc
  refine ⟨h.less hsw hl (fun i hi => ?_) fun i hi => by rw [← hw]; exact hi, by rw [hr, Function.update_self]⟩
  by_cases he : i = j
  · rw [hr, he, Function.update_self] at hi
    cases hi
  · rwa [hr, Function.update_of_ne he] at hi

theorem Joined.clrWrite (h : b.Joined) (hsw : b.switches w = some sw) (hc : msgClrWrite sw j = .ok sw') :
    (b.put w (some sw')).Joined := by
  obtain ⟨-, hl, hr, hw⟩ := msgClrWrite_lives hc
  refine h.less hsw hl (fun i hi => by rw [← hr]; exact hi) fun i hi => ?_
  by_cases he : i = j
  · rw [hw, he, Function.update_self] at hi
    cases hi
  · rwa [hw, Function.update_of_ne he] at hi

end Board

end Zimr
