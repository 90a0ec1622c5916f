import Zimr.Proof.Seats
import Zimr.Proof.Conns
import Zimr.Proof.DeadLink

/-!
# The sockets of the daemon's tables, callback by callback

Most calls leave the sockets' cores and the tables alone (`Quiet`). A connection that goes closes its
own socket only (`Cleans`).
-/

namespace Zimr

open Run Seating

namespace Daemon

variable {α : Type} {d d' d₁ d₂ : Daemon} {fd i c : ℕ} {conn : ConnData} {k : SockCore} {L : Prop}

def seating (d : Daemon) (L : Prop) : Seating :=
  ⟨d.zs.core, d.connections, d.websites, fun i => (d.switches i).isSome, L⟩

def Seated (d : Daemon) (L : Prop) : Prop := (d.seating L).Seated

/-- Cores and tables stay, and no switch is new. -/
structure Quiet (d d' : Daemon) : Prop where
  websites : d'.websites = d.websites
  connections : d'.connections = d.connections
  core : d'.zs.core = d.zs.core
  switches : ∀ i, (d'.switches i).isSome → (d.switches i).isSome

theorem Quiet.refl (d : Daemon) : Quiet d d := ⟨rfl, rfl, rfl, fun _ h => h⟩

theorem Quiet.trans (h₁ : Quiet d d₁) (h₂ : Quiet d₁ d₂) : Quiet d d₂ :=
  ⟨h₂.websites.trans h₁.websites, h₂.connections.trans h₁.connections, h₂.core.trans h₁.core,
    fun i h => h₁.switches i (h₂.switches i h)⟩

theorem Quiet.tabs (h : Quiet d d') : SameTabs d d' := ⟨h.websites, h.connections⟩

theorem Seated.quiet (h : d.Seated L) (hq : Quiet d d') : d'.Seated L := by
  have he : d'.seating L = { d.seating L with hosts := fun i => (d'.switches i).isSome } := by
    unfold seating
    rw [hq.core, hq.connections, hq.websites]
  unfold Seated
  rw [he]
  exact h.fewer_hosts hq.switches

/-! ## The layers below -/

theorem setZs_switches {zs : Zs} (h : ((d.setZs zs).switches i).isSome) :
    (d.switches i).isSome ∧ ∃ k, zs.core i = some k := by
  unfold setZs at h
  simp only at h
  split at h
  · rename_i hz
    obtain ⟨z, hz⟩ := Option.isSome_iff_exists.1 hz
    exact ⟨h, z.core, core_some hz⟩
  · cases h

theorem setZs_quiet {zs : Zs} (h : zs.core = d.zs.core) : Quiet d (d.setZs zs) :=
  ⟨rfl, rfl, h, fun _ hi => (setZs_switches hi).1⟩

theorem callZs_quiet {r : Except ZsFault (Zs × α)} {a : α} (h : d.callZs r = .ok (d', a))
    (hr : ∀ zs, r = .ok (zs, a) → zs.core = d.zs.core) : Quiet d d' := by
  obtain ⟨zs, hz, rfl⟩ := callZs_ok h
  exact setZs_quiet (hr zs hz)

theorem callZs'_quiet {r : Except ZsFault Zs} (h : d.callZs' r = .ok d')
    (hr : ∀ zs, r = .ok zs → zs.core = d.zs.core) : Quiet d d' := by
  obtain ⟨zs, hz, rfl⟩ := callZs'_ok h
  exact setZs_quiet (hr zs hz)

theorem rearm_quiet {b : Bool} (h : d.rearm fd b = .ok d') : Quiet d d' := by
  obtain rfl | ⟨zs, hz | hz, rfl⟩ := rearm_ok h
  · exact Quiet.refl _
  · exact setZs_quiet (zsSetWrite_core hz)
  · exact setZs_quiet (zsClrWrite_core hz)

theorem putSwitch_quiet (h : (d.switches fd).isSome) (sw : MsgSwitch) : Quiet d (d.putSwitch fd sw) := by
  refine ⟨rfl, rfl, rfl, fun i hi => ?_⟩
  by_cases he : i = fd
  · rw [he]
    exact h
  · simpa only [putSwitch, Function.update_of_ne he] using hi

theorem assertMsg_quiet {f : MsgSwitch → Except Fault (MsgSwitch × α)} {a : α}
    (h : d.assertMsg fd f = .ok (d', a)) : Quiet d d' := by
  obtain ⟨sw, sw', hsw, -, hr⟩ := assertMsg_ok h
  exact (putSwitch_quiet (by rw [hsw]; rfl) sw').trans (rearm_quiet hr)

theorem assertMsg'_quiet {f : MsgSwitch → Except Fault MsgSwitch} (h : d.assertMsg' fd f = .ok d') :
    Quiet d d' := by
  obtain ⟨sw, sw', hsw, -, hr⟩ := assertMsg'_ok h
  exact (putSwitch_quiet (by rw [hsw]; rfl) sw').trans (rearm_quiet hr)

theorem tryMsg_quiet {f : MsgSwitch → Except Fault (MsgSwitch × Except Errno α)} {a : Option α}
    (h : d.tryMsg fd f = .ok (d', a)) : Quiet d d' := by
  obtain ⟨-, rfl, -⟩ | ⟨sw, sw', r, hsw, -, -, hr⟩ := tryMsg_ok h
  · exact Quiet.refl _
  · exact (putSwitch_quiet (by rw [hsw]; rfl) sw').trans (rearm_quiet hr)

theorem msgWrites_quiet (w msgid : ℕ) (bufs : List (List UInt8)) :
    ∀ (d d' : Daemon) (b : Bool), d.msgWrites w msgid bufs = .ok (d', b) → Quiet d d' := by
  induction bufs with
  | nil =>
    intro d d' b h
    cases h
    exact Quiet.refl _
  | cons buf bufs ih =>
    intro d d' b h
    obtain ⟨⟨d₁, n⟩, h₁, h⟩ := bind_inv h
    have hq := tryMsg_quiet h₁
    cases n with
    | none => cases h; exact hq
    | some n => exact hq.trans (ih d₁ d' b h)

theorem closeMsg_quiet (h : d.closeMsg conn = .ok d') : Quiet d d' := by
  unfold closeMsg at h
  split at h
  · cases h; exact Quiet.refl _
  · obtain ⟨found, -, h⟩ := bind_inv h
    cases found with
    | true =>
      obtain ⟨⟨d₁, r⟩, h₁, h⟩ := bind_inv h
      cases h
      exact tryMsg_quiet h₁
    | false => cases h; exact Quiet.refl _

theorem msgSwitchDestroy_none (h : d.msgSwitchDestroy fd = .ok d') : d'.switches fd = none := by
  unfold Daemon.msgSwitchDestroy at h
  split at h
  · rename_i hsw
    cases h
    exact hsw
  · split at h
    · cases h
    · obtain ⟨d₁, h₁, h⟩ := bind_inv h
      have hq := (callZs'_quiet h₁ fun _ hz => zsClrRead_core hz).trans
        (callZs'_quiet h fun _ hz => zsClrWrite_core hz)
      cases hsw : d'.switches fd with
      | none => rfl
      | some sw =>
        have hold := hq.switches fd (by rw [hsw]; rfl)
        simp only [Function.update_self] at hold
        cases hold

theorem msgSwitchDestroy_quiet (h : d.msgSwitchDestroy fd = .ok d') : Quiet d d' := by
  unfold Daemon.msgSwitchDestroy at h
  split at h
  · cases h; exact Quiet.refl _
  · split at h
    · cases h
    · obtain ⟨d₁, h₁, h⟩ := bind_inv h
      have hq := (callZs'_quiet h₁ fun _ hz => zsClrRead_core hz).trans
        (callZs'_quiet h fun _ hz => zsClrWrite_core hz)
      refine ⟨hq.websites, hq.connections, hq.core, fun i hi => ?_⟩
      have hi := hq.switches i hi
      by_cases he : i = fd
      · rw [he] at hi
        simp only [Function.update_self] at hi
        cases hi
      · simpa only [Function.update_of_ne he] using hi

/-! ## A change of one socket -/

/-- What can still be reached when the sockets are `zs`. -/
def reach (d : Daemon) (L : Prop) (zs : Zs) : Seating :=
  { d.seating L with hosts := fun i => (d.switches i).isSome ∧ ∃ k, zs.core i = some k }

theorem Seated.reach (h : d.Seated L) (zs : Zs) : (d.reach L zs).Seated := h.fewer_hosts fun _ hi => hi.1

theorem seated_of_reach {zs : Zs} {s : Seating} (h : s.Seated) (hcore : zs.core = s.core)
    (hconn : d.connections = s.connections) (hsites : d.websites = s.websites)
    (hhosts : s.hosts = (d.reach L zs).hosts) (hl : s.listens = L) : (d.setZs zs).Seated L := by
  have he : (d.setZs zs).seating L = { s with hosts := fun i => ((d.setZs zs).switches i).isSome } := by
    unfold seating
    rw [← hconn, ← hsites, ← hcore, ← hl]
    rfl
  unfold Seated
  rw [he]
  refine h.fewer_hosts fun i hi => ?_
  rw [hhosts]
  exact setZs_switches hi

theorem setZs_seated {zs : Zs} {x : Option SockCore} (hcore : zs.core = Function.update d.zs.core i x)
    (h : ((d.reach L zs).put i x).Seated) : (d.setZs zs).Seated L :=
  seated_of_reach h hcore rfl rfl rfl rfl

/-- The socket of a webapp. -/
def Linked (d : Daemon) (fd : ℕ) : Prop := ∃ k, d.zs.core fd = some k ∧ k.Webapp

theorem Seated.linked (h : d.Seated L) (hsw : (d.switches fd).isSome) : d.Linked fd := (h.fits fd).webapp hsw

theorem Linked.quiet (h : d.Linked fd) (hq : Quiet d d') : d'.Linked fd := by
  unfold Linked
  rw [hq.core]
  exact h

theorem Seated.linked_none (h : d.Seated L) (hl : d.Linked fd) : d.connections fd = none := by
  obtain ⟨k, hk, hw⟩ := hl
  cases hc : d.connections fd with
  | none => rfl
  | some conn =>
    obtain ⟨k', hk', hck⟩ := (h.fits fd).client conn hc
    obtain rfl := Option.some.inj (hk.symm.trans hk')
    have he := hw.eventHdlr.symm.trans hck.eventHdlr
    cases he

theorem Seated.linked_free (h : d.Seated L) (hl : d.Linked fd) (l : ℕ) (e : EventHdlr) :
    ¬(d.seating L).Holds l fd e := by
  intro hh
  obtain ⟨k, hk, hw⟩ := hl
  obtain ⟨-, k', hk', -, -, he⟩ := h.accepted l fd e hh
  obtain rfl := Option.some.inj (hk.symm.trans hk')
  exact h.holder hh (he.symm.trans hw.eventHdlr)

/-- The core of a connection after `zs_close`. -/
def Shuts (k : SockCore) (x : Option SockCore) : Prop := x = some { k with closed := true } ∨ x = none

theorem Shuts.connect {x : Option SockCore} (h : Shuts k x) (ht : k.type = .connect) (k' : SockCore)
    (hx : x = some k') : k'.type = .connect := by
  obtain rfl | rfl := h
  · cases hx
    exact ht
  · cases hx

theorem zsClose_connect {zs : Zs} {r : Except SockErrno ℕ} (hk : d.zs.core fd = some k)
    (ht : k.type = .connect) (hc : zsClose d.zs fd = .ok (zs, r)) :
    ∃ x, Shuts k x ∧ zs.core = Function.update d.zs.core fd x := by
  obtain ⟨z, hz, rfl⟩ := of_core hk
  obtain ⟨hl, -⟩ | ⟨hl, -⟩ | ⟨-, -, h⟩ | ⟨-, -, h⟩ := zsClose_core hz hc
  · exact absurd (hl.symm.trans ht) (by decide)
  · exact absurd (hl.symm.trans ht) (by decide)
  · exact ⟨_, .inl rfl, h⟩
  · exact ⟨_, .inr rfl, h⟩

/-- The socket of a webapp is closed, when its switch is gone. -/
theorem Seated.closeLink {zs : Zs} {r : Except SockErrno ℕ} (h : d.Seated L) (hl : d.Linked fd)
    (hn : d.switches fd = none) (hc : zsClose d.zs fd = .ok (zs, r)) : (d.setZs zs).Seated L := by
  obtain ⟨k, hk, hw⟩ := hl
  obtain ⟨x, hx, hcore⟩ := zsClose_connect hk hw.type hc
  refine setZs_seated hcore ?_
  refine (h.reach zs).put_connect hk hw.type (h.linked_none ⟨k, hk, hw⟩) (h.linked_free ⟨k, hk, hw⟩)
    (hx.connect hw.type) ?_
  rintro ⟨hsw, -⟩
  rw [hn] at hsw
  cases hsw

/-! ## Connections that go away -/

/-- Connections go with their sockets. -/
structure Cleans (d d' : Daemon) : Prop where
  shrinks : Shrinks d d'
  core : ∀ i, d.connections i = none → d'.zs.core i = d.zs.core i

theorem Quiet.cleans (h : Quiet d d') : Cleans d d' :=
  ⟨h.tabs.shrinks, fun i _ => by rw [h.core]⟩

theorem Cleans.trans (h₁ : Cleans d d₁) (h₂ : Cleans d₁ d₂) : Cleans d d₂ := by
  refine ⟨h₁.shrinks.trans h₂.shrinks, fun i hi => ?_⟩
  have hi₁ : d₁.connections i = none := (h₁.shrinks.connections i).elim (fun h => h.trans hi) id
  rw [h₂.core i hi₁, h₁.core i hi]

theorem Seated.cleanup {t : ℤ} (h : d.Seated L) (hc : d.cleanupConnection t = .ok d') :
    d'.Seated L ∧ Cleans d d' := by
  obtain ⟨c, conn, d₁, zs, r, rfl, -, hconn, hm, hz, rfl⟩ := cleanupConnection_ok hc
  have hq := closeMsg_quiet hm
  have h₁ := h.quiet hq
  have hconn₁ : d₁.connections c = some conn := by rw [hq.connections]; exact hconn
  obtain ⟨k, hk, hck⟩ := (h₁.fits c).client conn hconn₁
  obtain ⟨x, hx, hcore⟩ := zsClose_connect hk hck.type hz
  -- the entry goes first
  have h₂ : ({ d₁ with connections := Function.update d₁.connections c none } : Daemon).Seated L := by
    refine h₁.conns fun i conn' hi => ⟨conn', ?_, fun hn => ⟨hn, rfl⟩⟩
    by_cases he : i = c
    · rw [he] at hi
      simp only [Function.update_self] at hi
      cases hi
    · show d₁.connections i = _
      simpa only [Function.update_of_ne he] using hi
  constructor
  · refine setZs_seated (d := { d₁ with connections := Function.update d₁.connections c none }) hcore ?_
    refine (h₂.reach zs).put_connect hk hck.type (Function.update_self _ _ _)
      (fun l e hl => h₁.client_free hconn₁ hl) (hx.connect hck.type) ?_
    rintro ⟨hsw, -⟩
    have hno := h₁.webapp_none hsw
    rw [show (d₁.seating L).connections c = d₁.connections c from rfl, hconn₁] at hno
    cases hno
  · refine ⟨(cleanupConnection_shrinks hc).1, fun i hi => ?_⟩
    have hne : i ≠ c := by
      rintro rfl
      rw [hconn] at hi
      cases hi
    show zs.core i = d.zs.core i
    rw [hcore, Function.update_of_ne hne, hq.core]

theorem Seated.cleanupWebsite (is : List ℕ) : ∀ d d' : Daemon, d.Seated L →
    cleanupWebsite is d fd = .ok d' → d'.Seated L ∧ Cleans d d' := by
  induction is with
  | nil =>
    intro d d' h hc
    cases hc
    exact ⟨h, (Quiet.refl _).cleans⟩
  | cons i is ih =>
    intro d d' h hc
    obtain ⟨d₁, h₁, hc⟩ := bind_inv hc
    obtain ⟨hs, hcl⟩ : d₁.Seated L ∧ Cleans d d₁ := by
      split at h₁
      · exact h.cleanup h₁
      · cases h₁
        exact ⟨h, (Quiet.refl _).cleans⟩
    obtain ⟨hs', hcl'⟩ := ih d₁ d' hs hc
    exact ⟨hs', hcl.trans hcl'⟩

theorem Seated.cleanupMsgs (ns : List ℕ) : ∀ d d' : Daemon, d.Seated L →
    cleanupMsgs ns d fd = .ok d' → d'.Seated L ∧ Cleans d d' := by
  induction ns with
  | nil =>
    intro d d' h hc
    cases hc
    exact ⟨h, (Quiet.refl _).cleans⟩
  | cons n ns ih =>
    intro d d' h hc
    obtain ⟨found, -, hc⟩ := bind_inv hc
    cases found with
    | false => exact ih d d' h hc
    | true =>
      obtain ⟨type, -, hc⟩ := bind_inv hc
      obtain ⟨d₁, h₁, hc⟩ := bind_inv hc
      obtain ⟨hs, hcl⟩ : d₁.Seated L ∧ Cleans d d₁ := by
        split at h₁
        · exact h.cleanup h₁
        · cases h₁
          exact ⟨h, (Quiet.refl _).cleans⟩
      obtain ⟨hs', hcl'⟩ := ih d₁ d' hs hc
      exact ⟨hs', hcl.trans hcl'⟩

theorem Cleans.linked (hc : Cleans d d') (h : d.Seated L) (hl : d.Linked fd) : d'.Linked fd := by
  have hn := h.linked_none hl
  unfold Linked
  rw [hc.core fd hn]
  exact hl

/-! ## Websites -/

/-- With the first website of the socket its use of the listener goes. -/
theorem uses_erase {sites : List Website} {site : Website} (h : websiteGetBySockfd sites fd = some site)
    (l : ℕ) : sites.countP (fun s => s.exlisnfd = l) =
      (sites.eraseP fun s => s.sockfd = fd).countP (fun s => s.exlisnfd = l) +
        if site.exlisnfd = l then 1 else 0 := by
  unfold websiteGetBySockfd at h
  induction sites with
  | nil => cases h
  | cons a sites ih =>
    by_cases ha : a.sockfd = fd
    · rw [List.find?_cons_of_pos (by simpa using ha)] at h
      cases h
      rw [List.eraseP_cons_of_pos (by simpa using ha), List.countP_cons]
      simp only [decide_eq_true_eq]
    · rw [List.find?_cons_of_neg (by simpa using ha)] at h
      rw [List.eraseP_cons_of_neg (by simpa using ha), List.countP_cons, List.countP_cons, ih h]
      omega

/-- **The first website of a socket goes**, with its connections, its socket and its use of the
listener. -/
theorem Seated.removeWebsite (h : d.Seated L) (hl : d.Linked fd) (hst : L → d.strandsAt fd = false)
    (hc : d.removeWebsite fd = .ok d') : d'.Seated L := by
  unfold Daemon.removeWebsite at hc
  cases hsite : websiteGetBySockfd d.websites fd with
  | none =>
    rw [hsite] at hc
    cases hc
    exact h
  | some site =>
    rw [hsite] at hc
    obtain ⟨d₁, h₁, hc⟩ := bind_inv hc
    obtain ⟨d₂, h₂, hc⟩ := bind_inv hc
    obtain ⟨⟨d₃, r₃⟩, h₃, hc⟩ := bind_inv hc
    obtain ⟨⟨d₄, r₄⟩, h₄, hc⟩ := bind_inv hc
    cases hc
    obtain ⟨zs₃, hz₃, rfl⟩ := callZs_ok h₃
    obtain ⟨zs₄, hz₄, rfl⟩ := callZs_ok h₄
    obtain ⟨hs₁, hcl⟩ := Seated.cleanupWebsite _ _ _ h h₁
    have hq := msgSwitchDestroy_quiet h₂
    have hs₂ := hs₁.quiet hq
    have hl₂ := (hcl.linked h hl).quiet hq
    have hs₃ := hs₂.closeLink hl₂ (msgSwitchDestroy_none h₂) hz₃
    have hsites : d₂.websites = d.websites := by rw [hq.websites, hcl.shrinks.websites]
    -- the listener is as it was
    have hpos : 0 < (d.seating L).usesOf site.exlisnfd := by
      refine List.countP_pos_iff.2 ⟨site, List.mem_of_find?_eq_some hsite, ?_⟩
      simp
    obtain ⟨k, hk, ht, hle⟩ := (h.fits site.exlisnfd).site hpos
    have hk₃ : zs₃.core site.exlisnfd = some k := by
      obtain ⟨kl, hkl, hw⟩ := hl₂
      obtain ⟨x, -, hcore⟩ := zsClose_connect hkl hw.type hz₃
      have hne : site.exlisnfd ≠ fd := by
        rintro he
        obtain ⟨k', hk', hw'⟩ := hl
        rw [he, show (d.seating L).core fd = d.zs.core fd from rfl, hk'] at hk
        cases hk
        exact absurd (ht.symm.trans hw'.type) (by decide)
      have hnone : d.connections site.exlisnfd = none := by
        cases hconn : d.connections site.exlisnfd with
        | none => rfl
        | some conn =>
          obtain ⟨k', hk', hck⟩ := (h.fits site.exlisnfd).client conn hconn
          obtain rfl := Option.some.inj (hk.symm.trans hk')
          exact absurd (ht.symm.trans hck.type) (by decide)
      rw [hcore, Function.update_of_ne hne, hq.core, hcl.core _ hnone]
      exact hk
    have huses : ((d.seating L).usesOf site.exlisnfd : ℤ) =
        ((d.websites.eraseP fun s => s.sockfd = fd).countP fun s => s.exlisnfd = site.exlisnfd : ℕ) + 1 := by
      have := uses_erase hsite site.exlisnfd
      rw [if_pos rfl] at this
      unfold usesOf
      show ((d.websites.countP _ : ℕ) : ℤ) = _
      rw [this]
      omega
    have hclients : k.nOpen ≤ 1 → L → ∀ c conn, (d₂.setZs zs₃).connections c = some conn →
        conn.websiteSockfd = none → conn.exlisnfd ≠ site.exlisnfd := by
      intro hn hL c conn hconn hnone he
      have hold : d.connections c = some conn := by
        refine hcl.shrinks.some ?_
        rw [← hq.connections]
        exact hconn
      obtain ⟨kc, hkc, -⟩ := (h.fits c).client conn hold
      have hstrand : d.strandsAt fd = true := by
        obtain ⟨z, hz, rfl⟩ := of_core hk
        unfold strandsAt
        rw [hsite, Option.any_some, Bool.and_eq_true, hz, Option.any_some]
        have hn : z.nOpen ≤ 1 := hn
        refine ⟨by simpa using hn, List.any_eq_true.2 ⟨c, ?_, ?_⟩⟩
        · exact List.mem_range.2 ((h.fits c).small kc hkc)
        · rw [hold, Option.any_some, hnone, he]
          simp
      rw [hst hL] at hstrand
      cases hstrand
    have hs₅ : ({ d₂.setZs zs₃ with
        websites := d₂.websites.eraseP fun w => w.sockfd = fd } : Daemon).Seated L :=
      hs₃.eraseSite _
    obtain ⟨z, hz, rfl⟩ := of_core hk₃
    obtain ⟨-, hn, hcore⟩ | ⟨-, hn, hcore⟩ | ⟨hty, -⟩ | ⟨hty, -⟩ := zsClose_core hz hz₄
    · refine setZs_seated (d := { d₂.setZs zs₃ with
        websites := d₂.websites.eraseP fun w => w.sockfd = fd }) hcore ?_
      refine (hs₅.reach zs₄).put_same hk₃ rfl rfl rfl (fun _ _ h => h) (fun _ _ => hn) fun _ _ => ?_
      show (((d₂.websites.eraseP _).countP _ : ℕ) : ℤ) ≤ z.core.nOpen - 1
      rw [hsites]
      omega
    · refine setZs_seated (d := { d₂.setZs zs₃ with
        websites := d₂.websites.eraseP fun w => w.sockfd = fd }) hcore ?_
      have hn : z.core.nOpen ≤ 1 := by
        show z.nOpen ≤ 1
        omega
      refine (hs₅.reach zs₄).put_none hk₃ ht ?_ (hclients hn)
      show (d₂.websites.eraseP _).countP _ = 0
      rw [hsites]
      omega
    · exact absurd (ht.symm.trans hty) (by decide)
    · exact absurd (ht.symm.trans hty) (by decide)

theorem websiteAdd_exlisnfd {url ip : List UInt8} {l : ℕ} {site : Website}
    (h : websiteAdd fd url ip l = .ok site) : site.exlisnfd = l := by
  unfold websiteAdd at h
  split at h
  · cases h
  · cases h
    rfl

/-- A website is put into the list, when its use of the listener is counted. -/
theorem Seated.addWebsite {url ip text : List UInt8} {l : ℕ} (h : d.Seated L) (hk : d.zs.core l = some k)
    (ht : k.type = .listen) (hn : ((d.seating L).usesOf l : ℤ) < k.nOpen)
    (hc : ((websiteAdd fd url ip l).bind fun site =>
      (callZs' { d with websites := d.websites ++ [site] }
        (zsSetRead { d with websites := d.websites ++ [site] }.zs l)).bind fun d =>
          .ok (d, ascii "OK")) = .ok (d', text)) : d'.Seated L := by
  obtain ⟨site, hsite, hc⟩ := bind_inv hc
  obtain ⟨d₂, h₂, hc⟩ := bind_inv hc
  cases hc
  obtain rfl := websiteAdd_exlisnfd hsite
  have hs : ({ d with websites := d.websites ++ [site] } : Daemon).Seated L := h.addSite hk ht hn
  exact hs.quiet (callZs'_quiet h₂ fun _ hz => zsSetRead_core hz)

/-- **`zsocket`** for a listener, one that is there or a new one: there is a use for one more website. -/
theorem Seated.zsocket {zs : Zs} {addr : ℕ} {port : ℤ} {e : EventHdlr} {ssl : Bool} {kr : SockRes}
    {r : Except SockErrno ℕ} (h : d.Seated L) (he : e ≠ .msgZsocket)
    (hlisten : ∀ i k, zsGetByInfo d.zs addr port = some i → d.zs.core i = some k → k.type = .listen)
    (hz : zsocket d.zs addr port .listen e ssl kr = .ok (zs, r)) : (d.setZs zs).Seated L ∧
      ∀ i, r = .ok i → ∃ k, zs.core i = some k ∧ k.type = .listen ∧ ((d.seating L).usesOf i : ℤ) < k.nOpen := by
  obtain ⟨i, k, hi, hk, rfl, hcore⟩ | ⟨e', rfl, hcore⟩ | ⟨i, rfl, hlt, hk, hcore⟩ := zsocket_core hz
  · have ht := hlisten i k hi hk
    obtain ⟨-, hpos⟩ := (h.fits i).listener k hk ht
    have hs : (d.setZs zs).Seated L := by
      refine setZs_seated hcore ((h.reach zs).put_same hk rfl rfl rfl (fun _ _ h => h) (fun _ _ => ?_)
        fun _ hle => ?_)
      · exact Int.lt_add_one_of_le (Int.le_of_lt hpos)
      · exact Int.le_trans hle (Int.le_of_lt (Int.lt_succ k.nOpen))
    refine ⟨hs, ?_⟩
    rintro _ ⟨⟩
    refine ⟨{ k with nOpen := k.nOpen + 1 }, by rw [hcore, Function.update_self], ht, ?_⟩
    show ((d.seating L).usesOf i : ℤ) < k.nOpen + 1
    by_cases h0 : 0 < (d.seating L).usesOf i
    · obtain ⟨k', hk', -, hle⟩ := (h.fits i).site h0
      obtain rfl := Option.some.inj (hk.symm.trans hk')
      exact Int.lt_add_one_of_le hle
    · rw [Nat.eq_zero_of_not_pos h0]
      exact Int.lt_add_one_of_le (Int.le_of_lt hpos)
  · refine ⟨h.quiet (setZs_quiet hcore), ?_⟩
    rintro i ⟨⟩
  · have hs : (d.setZs zs).Seated L := by
      refine setZs_seated hcore ((h.reach zs).put_new hk hlt (fun _ => ⟨he, ?_⟩) rfl)
      exact Int.one_pos
    refine ⟨hs, ?_⟩
    rintro _ ⟨⟩
    refine ⟨⟨.listen, e, 1, false, none⟩, by rw [hcore, Function.update_self], rfl, ?_⟩
    have h0 := (h.vacant hk).2.2.1
    show ((d.seating L).usesOf i : ℤ) < 1
    rw [h0]
    exact Int.one_pos

/-- **A website is started** with a listener, one that is there or a new one. -/
theorem Seated.startWebsite {buf strerror text : List UInt8} {kr : SockRes} (h : d.Seated L)
    (hlisten : websiteGetByFullUrl d.websites (cstr buf) (cstr (buf.drop ((cstr buf).length + 1))) = none →
      ∀ port i k, getPortFromUrl buf = .ok port →
        zsGetByInfo d.zs (inetAddr (cstr (buf.drop ((cstr buf).length + 1)))) port = some i →
        d.zs.core i = some k → k.type = .listen)
    (hc : d.startWebsite fd buf kr strerror = .ok (d', text)) : d'.Seated L := by
  unfold Daemon.startWebsite at hc
  simp only at hc
  split at hc
  · cases hc
  split at hc
  · cases hc
    exact h
  rename_i hnone
  have hnone : websiteGetByFullUrl d.websites (cstr buf) (cstr (buf.drop ((cstr buf).length + 1))) =
      none := by simpa using hnone
  obtain ⟨port, hport, hc⟩ := bind_inv hc
  obtain ⟨⟨d₁, r⟩, h₁, hc⟩ := bind_inv hc
  obtain ⟨zs, hz, rfl⟩ := callZs_ok h₁
  obtain ⟨hs, hnew⟩ := h.zsocket (by decide) (fun i k => hlisten hnone port i k hport) hz
  cases r with
  | error e =>
    obtain ⟨text', -, hc⟩ := bind_inv hc
    cases hc
    exact hs
  | ok i =>
    obtain ⟨k, hk, ht, hn⟩ := hnew i rfl
    exact hs.addWebsite hk ht hn hc

/-! ## A request -/

/-- There is an entry, and one that has no website keeps its listener. -/
def Has (d : Daemon) (c : ℕ) (conn : ConnData) : Prop :=
  ∃ old, d.connections c = some old ∧
    (conn.websiteSockfd = none → old.websiteSockfd = none ∧ conn.exlisnfd = old.exlisnfd)

theorem Has.tabs (h : d.Has c conn) (hs : SameTabs d d') : d'.Has c conn := by
  unfold Has
  rw [hs.connections]
  exact h

/-- Another record of the same connection. -/
theorem Has.congr {conn' : ConnData} (h : d.Has c conn) (hw : conn'.websiteSockfd = conn.websiteSockfd)
    (he : conn'.exlisnfd = conn.exlisnfd) : d.Has c conn' := by
  obtain ⟨old, hold, hsame⟩ := h
  exact ⟨old, hold, fun hn => by rw [he]; exact hsame (hw.symm.trans hn)⟩

theorem Has.site {w : ℕ} (h : d.Has c conn) : d.Has c { conn with websiteSockfd := some w } := by
  obtain ⟨old, hold, -⟩ := h
  exact ⟨old, hold, fun hn => by cases hn⟩

theorem has_setConn (d : Daemon) (c : ℕ) (conn : ConnData) : (d.setConn c conn).Has c conn :=
  ⟨conn, Function.update_self _ _ _, fun hn => ⟨hn, rfl⟩⟩

theorem Seated.setConn (h : d.Seated L) (hc : d.Has c conn) : (d.setConn c conn).Seated L := by
  obtain ⟨old, hold, hsame⟩ := hc
  refine h.conns fun i conn' hi => ?_
  have hi : Function.update d.connections c (some conn) i = some conn' := hi
  by_cases he : i = c
  · subst he
    rw [Function.update_self] at hi
    cases hi
    exact ⟨old, hold, hsame⟩
  · rw [Function.update_of_ne he] at hi
    exact ⟨conn', hi, fun hn => ⟨hn, rfl⟩⟩

theorem Seated.refuse {page : Page} (h : d.Seated L) (hc : d.refuse fd page = .ok d') : d'.Seated L := by
  obtain ⟨⟨d₁, n⟩, h₁, hc⟩ := bind_inv hc
  exact ((h.quiet (callZs_quiet h₁ fun _ hz => zsWrite_core hz)).cleanup hc).1

theorem Seated.exreadBody {w : ℕ} {rest : List UInt8} (h : d.Seated L) (hh : d.Has fd conn)
    (hc : d.exreadBody fd w conn rest = .ok d') : d'.Seated L := by
  obtain ⟨⟨d₁, ok⟩, h₁, hc⟩ := bind_inv hc
  have hq := msgWrites_quiet _ _ _ _ _ _ h₁
  simp only at hc
  split at hc
  · exact (h.quiet hq).refuse hc
  split at hc
  · obtain ⟨⟨d₂, n⟩, h₂, hc⟩ := bind_inv hc
    obtain ⟨d₃, h₃, hc⟩ := bind_inv hc
    cases hc
    have hq' := (hq.trans (tryMsg_quiet h₂)).trans (callZs'_quiet h₃ fun _ hz => zsSetRead_core hz)
    exact (h.quiet hq').setConn ((hh.tabs hq'.tabs).congr rfl rfl)
  · obtain ⟨d₂, h₂, hc⟩ := bind_inv hc
    cases hc
    have hq' := hq.trans (assertMsg'_quiet h₂)
    exact (h.quiet hq').setConn ((hh.tabs hq'.tabs).congr rfl rfl)

theorem Seated.exreadOpen {site : Website} {type : ReqType} {buffer : List UInt8} {hdrlen : ℕ}
    (h : d.Seated L) (hh : d.Has fd conn)
    (hc : d.exreadOpen fd site conn type buffer hdrlen = .ok d') : d'.Seated L := by
  obtain ⟨⟨d₁, msgid⟩, h₁, hc⟩ := bind_inv hc
  obtain ⟨d₂, h₂, hc⟩ := bind_inv hc
  have hq := assertMsg_quiet h₁
  have hs₁ : (d₁.setConn fd { conn with msgid }).Seated L :=
    (h.quiet hq).setConn ((hh.tabs hq.tabs).congr rfl rfl)
  have hq₂ := callZs'_quiet h₂ fun _ hz => zsSetWrite_core hz
  have hh₂ := (has_setConn d₁ fd { conn with msgid }).tabs hq₂.tabs
  obtain ⟨postlen, -, hc⟩ := bind_inv hc
  cases postlen with
  | none => exact (hs₁.quiet hq₂).refuse hc
  | some postlen =>
    obtain ⟨⟨d₃, ok⟩, h₃, hc⟩ := bind_inv hc
    have hs₂ : (d₂.setConn fd { conn with msgid, postlen }).Seated L :=
      (hs₁.quiet hq₂).setConn (hh₂.congr rfl rfl)
    have hq₃ := msgWrites_quiet _ _ _ _ _ _ h₃
    simp only at hc
    split at hc
    · exact (hs₂.quiet hq₃).refuse hc
    · exact (hs₂.quiet hq₃).exreadBody ((has_setConn d₂ fd _).tabs hq₃.tabs) hc

theorem Seated.exreadHeader {buffer : List UInt8} (h : d.Seated L) (hh : d.Has fd conn)
    (hc : d.exreadHeader fd conn buffer = .ok d') : d'.Seated L := by
  unfold Daemon.exreadHeader at hc
  split at hc
  · split at hc
    · exact h.refuse hc
    · exact h.quiet (callZs'_quiet hc fun _ hz => zsSetRead_core hz)
  split at hc
  · exact h.refuse hc
  rename_i type _
  have hs₁ : (d.setConn fd { conn with requestType := some type }).Seated L :=
    h.setConn (hh.congr rfl rfl)
  obtain ⟨url, -, hc⟩ := bind_inv hc
  cases url with
  | none => exact hs₁.refuse hc
  | some url =>
    simp only at hc
    split at hc
    · cases hc
    split at hc
    · exact hs₁.refuse hc
    rename_i site _
    have hs₂ := hs₁.setConn
      ((has_setConn d fd { conn with requestType := some type }).site (w := site.sockfd))
    split at hc
    · exact hs₂.refuse hc
    · exact hs₂.exreadOpen (has_setConn _ fd _) hc

theorem Seated.exread {r : RwRes} (h : d.Seated L) (hc : d.exread fd r = .ok d') : d'.Seated L := by
  obtain ⟨conn, h₁, hc⟩ := bind_inv hc
  obtain ⟨c, he, -, hconn⟩ := getConn_ok h₁
  obtain rfl : fd = c := by omega
  have hh : d.Has fd conn := ⟨conn, hconn, fun hn => ⟨hn, rfl⟩⟩
  obtain ⟨⟨d₁, got⟩, h₂, hc⟩ := bind_inv hc
  have hq := callZs_quiet h₂ fun _ hz => zsRead_core hz
  have hh₀ : d.Has fd { conn with buffer := some (conn.buffer.getD []) } := hh.congr rfl rfl
  have hs₁ := (h.setConn hh₀).quiet hq
  have hh₁ := (has_setConn d fd { conn with buffer := some (conn.buffer.getD []) }).tabs hq.tabs
  cases got with
  | error e => exact (hs₁.cleanup hc).1
  | ok bytes =>
    simp only at hc
    split at hc
    · exact (hs₁.cleanup hc).1
    split at hc
    · cases hc
      exact hs₁
    have hs₂ : (d₁.setConn fd { conn with buffer := some (conn.buffer.getD [] ++ bytes) }).Seated L :=
      hs₁.setConn (hh₁.congr rfl rfl)
    have hh₂ := has_setConn d₁ fd { conn with buffer := some (conn.buffer.getD [] ++ bytes) }
    split at hc
    · exact hs₂.exreadHeader hh₂ hc
    · split at hc
      · exact hs₂.refuse hc
      · exact hs₂.exreadBody hh₂ hc

/-! ## The handlers -/

theorem Seated.relay {type : ℤ} {buf : List UInt8} (h : d.Seated L) (hc : d.relay type buf = .ok d') :
    d'.Seated L := by
  obtain ⟨d₁, h₁, hc⟩ := bind_inv hc
  obtain ⟨⟨d₂, n⟩, h₂, hc⟩ := bind_inv hc
  have hs₂ := (h.quiet (callZs'_quiet h₁ fun _ hz => zsSetWrite_core hz)).quiet
    (callZs_quiet h₂ fun _ hz => zsWrite_core hz)
  cases n with
  | error e => exact (hs₂.cleanup hc).1
  | ok n =>
    cases hc
    exact hs₂

theorem Seated.ioError (h : d.Seated L) (hl : d.Linked fd) (hst : L → d.strandsAt fd = false)
    (hc : d.ioError fd = .ok d') : d'.Seated L := by
  unfold Daemon.ioError at hc
  split at hc
  · exact h.removeWebsite hl hst hc
  · obtain ⟨d₁, h₁, hc⟩ := bind_inv hc
    obtain ⟨d₂, h₂, hc⟩ := bind_inv hc
    obtain ⟨⟨d₃, r⟩, h₃, hc⟩ := bind_inv hc
    cases hc
    obtain ⟨zs, hz, rfl⟩ := callZs_ok h₃
    obtain ⟨hs₁, hcl⟩ := Seated.cleanupMsgs _ _ _ h h₁
    have hq := msgSwitchDestroy_quiet h₂
    exact (hs₁.quiet hq).closeLink ((hcl.linked h hl).quiet hq) (msgSwitchDestroy_none h₂) hz

/-- What is read of the tables and the listeners stays. -/
theorem Quiet.strandsAt (hq : Quiet d d') (fd : ℕ) : d'.strandsAt fd = d.strandsAt fd := by
  have hopen : ∀ l, (d'.zs.zsockets l).any (fun zs => decide (zs.nOpen ≤ 1)) =
      (d.zs.zsockets l).any fun zs => decide (zs.nOpen ≤ 1) := by
    intro l
    have hcore := congrFun hq.core l
    unfold Zs.core at hcore
    cases h' : d'.zs.zsockets l with
    | none =>
      rw [h', Option.map_none, eq_comm, Option.map_eq_none_iff] at hcore
      rw [hcore]
    | some z' =>
      rw [h', Option.map_some] at hcore
      obtain ⟨z, hz, hk⟩ := Option.map_eq_some_iff.1 hcore.symm
      have hn : z.nOpen = z'.nOpen := congrArg SockCore.nOpen hk
      rw [hz, Option.any_some, Option.any_some, hn]
  unfold Daemon.strandsAt
  simp only [hq.websites, hq.connections, hopen]

theorem switchFailed_quiet (h : d.switchFailed fd = .ok d') : ∃ d₁, Quiet d d₁ ∧ d₁.ioError fd = .ok d' := by
  obtain ⟨d₁, h₁, h⟩ := bind_inv h
  obtain ⟨d₂, h₂, h⟩ := bind_inv h
  obtain ⟨d₃, h₃, h⟩ := bind_inv h
  exact ⟨d₃, ((callZs'_quiet h₁ fun _ hz => zsClrRead_core hz).trans
    (callZs'_quiet h₂ fun _ hz => zsClrWrite_core hz)).trans (assertMsg'_quiet h₃), h⟩

theorem Seated.switchFailed (h : d.Seated L) (hl : d.Linked fd) (hst : L → d.strandsAt fd = false)
    (hc : d.switchFailed fd = .ok d') : d'.Seated L := by
  obtain ⟨d₁, hq, hc⟩ := switchFailed_quiet hc
  exact (h.quiet hq).ioError (hl.quiet hq) (fun hL => (hq.strandsAt fd).trans (hst hL)) hc

/-! ## Connections that come -/

/-- **`zs_accept`** hands out a connection that nothing refers to. -/
theorem Seated.fetch {zs : Zsocket} {σ : Zs} {r : Except SockErrno (Option ℕ)} (h : d.Seated L)
    (hz : d.zs.zsockets fd = some zs) (hc : zsAccept d.zs fd = .ok (σ, r)) :
    (d.setZs σ).Seated L ∧ ∀ c, r = .ok (some c) →
      (∃ k, σ.core fd = some k ∧ k.type = .listen) ∧ d.connections c = none ∧
        Waits zs.eventHdlr (σ.core c) ∧ ∀ l e, ¬((d.setZs σ).seating L).Holds l c e := by
  have hk := core_some hz
  obtain ⟨rfl, e, rfl⟩ | ⟨ht, rfl, hcore⟩ := zsAccept_core hz hc
  · exact ⟨h.quiet (setZs_quiet rfl), fun c hc => by cases hc⟩
  have hs : (d.setZs σ).Seated L :=
    setZs_seated hcore ((h.reach σ).put_same hk rfl rfl rfl (fun _ _ h => by cases h) (fun _ h => h)
      fun _ h => h)
  refine ⟨hs, fun c hr => ?_⟩
  have ha : zs.acceptedFd = some c := Except.ok.inj hr
  have hholds : (d.seating L).Holds fd c zs.eventHdlr := ⟨zs.core, hk, ht, ha, rfl⟩
  obtain ⟨hnone, hwait⟩ := h.accepted fd c zs.eventHdlr hholds
  have hself : σ.core fd = some { zs.core with acceptedFd := none } := by
    rw [hcore, Function.update_self]
  have hother : ∀ i, i ≠ fd → σ.core i = d.zs.core i := fun i hi => by
    rw [hcore, Function.update_of_ne hi]
  refine ⟨⟨_, hself, ht⟩, hnone, ?_, ?_⟩
  · have hne : c ≠ fd := by
      rintro rfl
      obtain ⟨k, hk', hty, -⟩ := hwait
      obtain rfl := Option.some.inj (hk.symm.trans hk')
      exact absurd (ht.symm.trans hty) (by decide)
    rw [hother c hne]
    exact hwait
  · -- no other listener holds it
    rintro l e ⟨k, hl, htl, hal, rfl⟩
    have hl : σ.core l = some k := hl
    by_cases he : l = fd
    · rw [he, hself] at hl
      cases hl
      cases hal
    · rw [hother l he] at hl
      exact he (h.once l fd c k.eventHdlr zs.eventHdlr ⟨k, hl, htl, hal, rfl⟩ hholds)

/-- The socket of a new webapp gets its handler. -/
theorem Seated.setEventHdlr {zs : Zs} {e : EventHdlr} (h : d.Seated L) (hw : Waits e (d.zs.core c))
    (hn : d.connections c = none) (hfree : ∀ l e, ¬(d.seating L).Holds l c e)
    (hz : zsSetEventHdlr d.zs c .msgZsocket = .ok zs) :
    (d.setZs zs).Seated L ∧ ∃ k, zs.core = Function.update d.zs.core c (some k) ∧ k.Webapp := by
  obtain ⟨k, hk, ht, hcl, -⟩ := hw
  obtain ⟨k', hk', hcore⟩ := zsSetEventHdlr_core hz
  obtain rfl := Option.some.inj (hk.symm.trans hk')
  have hwebapp : ({ k with eventHdlr := .msgZsocket } : SockCore).Webapp := ⟨ht, rfl, hcl⟩
  refine ⟨setZs_seated hcore ((h.reach zs).put_connect hk ht hn hfree ?_ fun _ => ⟨_, rfl, hwebapp⟩), _, hcore,
    hwebapp⟩
  rintro k' ⟨⟩
  exact ht

theorem Seated.msgSwitchCreate (h : d.Seated L) {e : EventHdlr} (hw : Waits e (d.zs.core c))
    (hn : d.connections c = none) (hfree : ∀ l e, ¬(d.seating L).Holds l c e)
    (hc : d.msgSwitchCreate c = .ok d') : d'.Seated L := by
  unfold Daemon.msgSwitchCreate at hc
  split at hc
  · cases hc
    exact h
  obtain ⟨d₁, h₁, hc⟩ := bind_inv hc
  obtain ⟨d₂, h₂, hc⟩ := bind_inv hc
  cases hc
  obtain ⟨zs, hz, rfl⟩ := callZs'_ok h₁
  obtain ⟨hs₁, k, hcore, hwebapp⟩ := h.setEventHdlr hw hn hfree hz
  have hq := callZs'_quiet h₂ fun _ hz => zsSetRead_core hz
  have hself : d₂.zs.core c = some k := by
    rw [hq.core]
    show zs.core c = _
    rw [hcore, Function.update_self]
  refine (hs₁.quiet hq).change_hosts fun i hi => ?_
  by_cases he : i = c
  · rw [he]
    exact Or.inr ⟨_, hself, hwebapp⟩
  · left
    show (d₂.switches i).isSome
    simpa only [Function.update_of_ne he] using hi

theorem Seated.insockAccept {zs : Zsocket} (h : d.Seated L) (hz : d.zs.zsockets fd = some zs)
    (hc : d.insockAccept fd = .ok d') : d'.Seated L := by
  obtain ⟨⟨d₁, newfd⟩, h₁, hc⟩ := bind_inv hc
  obtain ⟨σ, hσ, rfl⟩ := callZs_ok h₁
  obtain ⟨hs, hnew⟩ := h.fetch hz hσ
  simp only at hc
  split at hc
  · rename_i c
    obtain ⟨-, hnone, hwait, hfree⟩ := hnew c rfl
    exact hs.msgSwitchCreate hwait hnone hfree hc
  · cases hc
    exact hs

theorem Seated.exsockAccept {zs : Zsocket} (h : d.Seated L) (hz : d.zs.zsockets fd = some zs)
    (hh : zs.eventHdlr = .exsock) (hc : d.exsockAccept fd = .ok d') : d'.Seated L := by
  obtain ⟨⟨d₁, newfd⟩, h₁, hc⟩ := bind_inv hc
  obtain ⟨σ, hσ, rfl⟩ := callZs_ok h₁
  obtain ⟨hs, hnew⟩ := h.fetch hz hσ
  simp only at hc
  split at hc
  · rename_i c
    obtain ⟨⟨kl, hkl, htl⟩, -, ⟨k, hk, ht, hcl, he⟩, hfree⟩ := hnew c rfl
    split at hc
    · cases hc
    split at hc
    · refine Seated.quiet ?_ (callZs'_quiet hc fun _ hz => zsSetRead_core hz)
      exact hs.addConn hk ⟨ht, he.trans hh, hcl⟩ hfree rfl hkl htl
    · cases hc
  · cases hc
    exact hs

/-! ## The callbacks of `zfd_select` -/

theorem Seated.ends {zs : Zs} (h : d.Seated L) (he : d.zs.Ends zs fd) : (d.setZs zs).Seated L := by
  obtain hcore | ⟨k, hk, ht, hcl, hcore⟩ := he
  · exact h.quiet (setZs_quiet hcore)
  · refine setZs_seated hcore ((h.reach zs).put_connect hk ht ?_ (fun l e hl => ?_)
      (fun k' h' => by cases h') ?_)
    · cases hconn : d.connections fd with
      | none => exact hconn
      | some conn =>
        obtain ⟨k', hk', hck⟩ := (h.fits fd).client conn hconn
        obtain rfl := Option.some.inj (hk.symm.trans hk')
        exact absurd (hcl.symm.trans hck.closed) (by decide)
    · obtain ⟨-, k', hk', -, hcl', -⟩ := h.accepted l fd e hl
      obtain rfl := Option.some.inj (hk.symm.trans hk')
      exact absurd (hcl.symm.trans hcl') (by decide)
    · rintro ⟨-, k', hk'⟩
      rw [hcore, Function.update_self] at hk'
      cases hk'

theorem Seated.accepts {zs : Zs} {new : ℕ} (h : d.Seated L) (hk : d.zs.core fd = some k)
    (ha : d.zs.Accepts zs fd k new) : (d.setZs zs).Seated L := by
  have hs := h.reach zs
  have hne : fd ≠ new := by
    rintro rfl
    have := hk.symm.trans ha.fresh
    cases this
  -- first the new socket
  have hs₁ : ((d.reach L zs).put new (some ⟨.connect, k.eventHdlr, fd, false, none⟩)).Seated :=
    hs.put_new ha.fresh ha.small (fun ht => by cases ht) rfl
  obtain ⟨hnone, -, -, hfree, -⟩ := hs.vacant ha.fresh
  have hk₁ : ((d.reach L zs).put new (some ⟨.connect, k.eventHdlr, fd, false, none⟩)).core fd = some k :=
    (put_of_ne _ hne _).trans hk
  have hs₂ : (((d.reach L zs).put new (some ⟨.connect, k.eventHdlr, fd, false, none⟩)).put fd
      (some { k with acceptedFd := some new })).Seated := by
    by_cases ht : k.type = .listen
    · refine hs₁.put_holds hk₁ ht hnone ⟨_, put_self _ _ _, rfl, rfl, rfl⟩ ?_
      rintro l e ⟨k', hk', htl, hal, rfl⟩
      by_cases hl : l = new
      · subst hl
        obtain rfl := Option.some.inj ((put_self _ _ _).symm.trans hk')
        cases htl
      · exact hfree l k'.eventHdlr ⟨k', (put_of_ne _ hl _).symm.trans hk', htl, hal, rfl⟩
    · exact hs₁.put_same hk₁ rfl rfl rfl (fun hl => (ht hl).elim) (fun hl => (ht hl).elim)
        fun hl => (ht hl).elim
  refine seated_of_reach hs₂ ?_ rfl rfl rfl rfl
  rw [ha.core, Function.update_comm hne]
  rfl

theorem Seated.zfdRead {a : Except SockErrno (ℕ × ℕ)} {r₁ r₂ : RwRes} (h : d.Seated L)
    (hc : d.callZs' (d.zs.step (.zfdRead fd a r₁ r₂)) = .ok d') : d'.Seated L := by
  obtain ⟨zs, hz, rfl⟩ := callZs'_ok hc
  obtain he | ⟨k, hk, hcore | ⟨new, ha⟩⟩ := zfdRead_core hz
  · exact h.ends he
  · exact setZs_seated hcore ((h.reach zs).put_same hk rfl rfl rfl (fun _ _ h => by cases h)
      (fun _ h => h) fun _ h => h)
  · exact h.accepts hk ha

theorem Seated.zfdWrite {r₁ r₂ : RwRes} (h : d.Seated L)
    (hc : d.callZs' (d.zs.step (.zfdWrite fd r₁ r₂)) = .ok d') : d'.Seated L := by
  obtain ⟨zs, hz, rfl⟩ := callZs'_ok hc
  exact h.ends (zfdWrite_core hz)

end Daemon

end Zimr
