import Zimr.Proof.Cores
import Zimr.Spec.Zimrd

/-!
# The sockets of the daemon's tables

A client, a webapp and a listener have a socket of their kind, a listener is open as often as
websites use it, and what a listener has accepted waits for its handler (`Seated`). What a callback
does to the sockets and the tables is put together from changes of one entry, which keep that.
-/

namespace Zimr

/-- The socket of a client. -/
structure SockCore.Client (k : SockCore) : Prop where
  type : k.type = .connect
  eventHdlr : k.eventHdlr = .exsock
  closed : k.closed = false

/-- The socket of a webapp. -/
structure SockCore.Webapp (k : SockCore) : Prop where
  type : k.type = .connect
  eventHdlr : k.eventHdlr = .msgZsocket
  closed : k.closed = false

/-- What is said of the sockets: their cores, the connections, the websites, which descriptors have a
switch, and whether a connection without a website has to keep its listener. -/
structure Seating where
  core : ℕ → Option SockCore
  connections : ℕ → Option ConnData
  websites : List Website
  hosts : ℕ → Prop
  listens : Prop

namespace Seating

variable {s s' : Seating} {i l c : ℕ} {k : SockCore} {x : Option SockCore} {conn : ConnData}
  {site : Website} {h : EventHdlr}

/-- How many websites use the listener. -/
def usesOf (s : Seating) (l : ℕ) : ℕ := s.websites.countP fun site => site.exlisnfd = l

/-- The listener `l` with the handler `h` has accepted `c`, which has not been fetched yet. -/
def Holds (s : Seating) (l c : ℕ) (h : EventHdlr) : Prop :=
  ∃ k, s.core l = some k ∧ k.type = .listen ∧ k.acceptedFd = some c ∧ k.eventHdlr = h

/-- What the tables ask of the socket of a descriptor. -/
structure Fits (s : Seating) (i : ℕ) (x : Option SockCore) : Prop where
  small : ∀ k, x = some k → i < fdSetSize
  client : ∀ conn, s.connections i = some conn → ∃ k, x = some k ∧ k.Client
  webapp : s.hosts i → ∃ k, x = some k ∧ k.Webapp
  site : 0 < s.usesOf i → ∃ k, x = some k ∧ k.type = .listen ∧ (s.usesOf i : ℤ) ≤ k.nOpen
  listener : ∀ k, x = some k → k.type = .listen → k.eventHdlr ≠ .msgZsocket ∧ 0 < k.nOpen
  listened : s.listens → ∀ c conn, s.connections c = some conn → conn.websiteSockfd = none →
    conn.exlisnfd = i → ∃ k, x = some k ∧ k.type = .listen

/-- A connection that waits for the handler of its listener. -/
def Waits (h : EventHdlr) (x : Option SockCore) : Prop :=
  ∃ k, x = some k ∧ k.type = .connect ∧ k.closed = false ∧ k.eventHdlr = h

structure Seated (s : Seating) : Prop where
  fits : ∀ i, s.Fits i (s.core i)
  accepted : ∀ l c h, s.Holds l c h → s.connections c = none ∧ Waits h (s.core c)
  once : ∀ l l' c h h', s.Holds l c h → s.Holds l' c h' → l = l'

theorem Seated.holder (hs : s.Seated) (hl : s.Holds l c h) : h ≠ .msgZsocket := by
  obtain ⟨k, hk, ht, -, rfl⟩ := hl
  exact ((hs.fits l).listener k hk ht).1

/-- A client waits for no handler. -/
theorem Seated.client_free (hs : s.Seated) (hc : s.connections c = some conn) : ¬s.Holds l c h := by
  intro hl
  rw [(hs.accepted l c h hl).1] at hc
  cases hc

/-- A webapp is no client. -/
theorem Seated.webapp_none (hs : s.Seated) (hw : s.hosts c) : s.connections c = none := by
  cases hc : s.connections c with
  | none => rfl
  | some conn =>
    obtain ⟨k, hk, hwk⟩ := (hs.fits c).webapp hw
    obtain ⟨k', hk', hck⟩ := (hs.fits c).client conn hc
    obtain rfl := Option.some.inj (hk.symm.trans hk')
    have h := hwk.eventHdlr.symm.trans hck.eventHdlr
    cases h

/-! ## A change of one socket -/

/-- The socket `i` is replaced. -/
def put (s : Seating) (i : ℕ) (x : Option SockCore) : Seating :=
  { s with core := Function.update s.core i x }

theorem put_self (s : Seating) (i : ℕ) (x : Option SockCore) : (s.put i x).core i = x :=
  Function.update_self _ _ _

theorem put_of_ne (s : Seating) {j : ℕ} (hj : j ≠ i) (x : Option SockCore) :
    (s.put i x).core j = s.core j :=
  Function.update_of_ne hj _ _

/-- Nothing more is accepted, and what was accepted waits on. -/
theorem Seated.put (hs : s.Seated) (hfits : s.Fits i x)
    (hnew : ∀ k c, x = some k → k.type = .listen → k.acceptedFd = some c → s.Holds i c k.eventHdlr)
    (hkid : ∀ l h, s.Holds l i h → Waits h x) : (s.put i x).Seated := by
  have hself := s.put_self i x
  have hother : ∀ j, j ≠ i → (s.put i x).core j = s.core j := fun j hj => s.put_of_ne hj x
  have hholds : ∀ l c h, (s.put i x).Holds l c h → s.Holds l c h := by
    rintro l c h ⟨k, hk, ht, ha, rfl⟩
    by_cases hl : l = i
    · subst hl
      exact hnew k c (hself.symm.trans hk) ht ha
    · exact ⟨k, (hother l hl).symm.trans hk, ht, ha, rfl⟩
  constructor
  · intro j
    by_cases hj : j = i
    · rw [hj, hself]
      exact ⟨hfits.small, hfits.client, hfits.webapp, hfits.site, hfits.listener, hfits.listened⟩
    · rw [hother j hj]
      have := hs.fits j
      exact ⟨this.small, this.client, this.webapp, this.site, this.listener, this.listened⟩
  · intro l c h hl
    obtain ⟨hnone, hwait⟩ := hs.accepted l c h (hholds l c h hl)
    refine ⟨hnone, ?_⟩
    by_cases hc : c = i
    · subst hc
      rw [hself]
      exact hkid l h (hholds l c h hl)
    · rw [hother c hc]
      exact hwait
  · exact fun l l' c h h' hl hl' => hs.once l l' c h h' (hholds l c h hl) (hholds l' c h' hl')

/-- A connection that is no client and no webapp and has been fetched. -/
theorem Seated.put_connect (hs : s.Seated) (hk : s.core i = some k) (ht : k.type = .connect)
    (hn : s.connections i = none) (hh : ∀ l h, ¬s.Holds l i h) (hx : ∀ k', x = some k' → k'.type = .connect)
    (hw : s.hosts i → ∃ k', x = some k' ∧ k'.Webapp) : (s.put i x).Seated := by
  have hf := hs.fits i
  refine hs.put ?_ (fun k' c h' hl _ => ?_) fun l h hl => (hh l h hl).elim
  · constructor
    · exact fun _ _ => hf.small k hk
    · intro conn hc
      rw [hn] at hc
      cases hc
    · exact hw
    · intro h0
      obtain ⟨k', hk', hl, -⟩ := hf.site h0
      rw [hk] at hk'
      cases hk'
      exact absurd (ht.symm.trans hl) (by decide)
    · intro k' h' hl
      exact absurd ((hx k' h').symm.trans hl) (by decide)
    · intro hL c conn hc hnone he
      obtain ⟨k', hk', hl⟩ := hf.listened hL c conn hc hnone he
      rw [hk] at hk'
      cases hk'
      exact absurd (ht.symm.trans hl) (by decide)
  · exact absurd ((hx k' h').symm.trans hl) (by decide)

/-- The uses of a socket are counted again, or what it has accepted is fetched. -/
theorem Seated.put_same (hs : s.Seated) {k' : SockCore} (hk : s.core i = some k) (ht : k'.type = k.type)
    (hh : k'.eventHdlr = k.eventHdlr) (hc : k'.closed = k.closed)
    (ha : k.type = .listen → ∀ c, k'.acceptedFd = some c → k.acceptedFd = some c)
    (hpos : k.type = .listen → 0 < k.nOpen → 0 < k'.nOpen)
    (hn : k.type = .listen → (s.usesOf i : ℤ) ≤ k.nOpen → (s.usesOf i : ℤ) ≤ k'.nOpen) :
    (s.put i (some k')).Seated := by
  have hf := hs.fits i
  refine hs.put ?_ (fun k₁ c h₁ hl hc' => ?_) fun l h hl => ?_
  · constructor
    · exact fun _ _ => hf.small k hk
    · intro conn hconn
      obtain ⟨k₀, hk₀, hck⟩ := hf.client conn hconn
      obtain rfl := Option.some.inj (hk.symm.trans hk₀)
      exact ⟨k', rfl, ht.trans hck.type, hh.trans hck.eventHdlr, hc.trans hck.closed⟩
    · intro hw
      obtain ⟨k₀, hk₀, hwk⟩ := hf.webapp hw
      obtain rfl := Option.some.inj (hk.symm.trans hk₀)
      exact ⟨k', rfl, ht.trans hwk.type, hh.trans hwk.eventHdlr, hc.trans hwk.closed⟩
    · intro h0
      obtain ⟨k₀, hk₀, hl, hle⟩ := hf.site h0
      obtain rfl := Option.some.inj (hk.symm.trans hk₀)
      exact ⟨k', rfl, ht.trans hl, hn hl hle⟩
    · intro k₁ h₁ hl
      cases h₁
      obtain ⟨hm, h0⟩ := hf.listener k hk (ht.symm.trans hl)
      exact ⟨hh ▸ hm, hpos (ht.symm.trans hl) h0⟩
    · intro hL c conn hconn hnone he
      obtain ⟨k₀, hk₀, hl⟩ := hf.listened hL c conn hconn hnone he
      obtain rfl := Option.some.inj (hk.symm.trans hk₀)
      exact ⟨k', rfl, ht.trans hl⟩
  · cases h₁
    exact ⟨k, hk, ht.symm.trans hl, ha (ht.symm.trans hl) c hc', hh.symm⟩
  · obtain ⟨-, k₀, hk₀, ht₀, hc₀, hh₀⟩ := hs.accepted l i h hl
    obtain rfl := Option.some.inj (hk.symm.trans hk₀)
    exact ⟨k', rfl, ht.trans ht₀, hc.trans hc₀, hh.trans hh₀⟩

/-- Nothing refers to a descriptor without a socket. -/
theorem Seated.vacant (hs : s.Seated) (hk : s.core i = none) : s.connections i = none ∧ ¬s.hosts i ∧
    s.usesOf i = 0 ∧ (∀ l h, ¬s.Holds l i h) ∧
    (s.listens → ∀ c conn, s.connections c = some conn → conn.websiteSockfd = none →
      conn.exlisnfd ≠ i) := by
  have hf := hs.fits i
  rw [hk] at hf
  refine ⟨?_, fun hw => ?_, ?_, fun l h hl => ?_, fun hL c conn hc hn he => ?_⟩
  · cases hc : s.connections i with
    | none => rfl
    | some conn =>
      obtain ⟨k, hk', -⟩ := hf.client conn hc
      cases hk'
  · obtain ⟨k, hk', -⟩ := hf.webapp hw
    cases hk'
  · refine Nat.eq_zero_of_not_pos fun h0 => ?_
    obtain ⟨k, hk', -⟩ := hf.site h0
    cases hk'
  · obtain ⟨-, k, hk', -⟩ := hs.accepted l i h hl
    rw [hk] at hk'
    cases hk'
  · obtain ⟨k, hk', -⟩ := hf.listened hL c conn hc hn he
    cases hk'

/-- A new socket. -/
theorem Seated.put_new (hs : s.Seated) (hk : s.core i = none) (hi : i < fdSetSize)
    (hh : k.type = .listen → k.eventHdlr ≠ .msgZsocket ∧ 0 < k.nOpen) (ha : k.acceptedFd = none) :
    (s.put i (some k)).Seated := by
  obtain ⟨hconn, hhost, huses, hfree, hlist⟩ := hs.vacant hk
  refine hs.put ?_ (fun k' c h' _ hc => ?_) fun l h hl => (hfree l h hl).elim
  · constructor
    · exact fun _ _ => hi
    · intro conn hc
      rw [hconn] at hc
      cases hc
    · exact fun hw => (hhost hw).elim
    · intro h0
      rw [huses] at h0
      exact absurd h0 (Nat.lt_irrefl 0)
    · intro k' h' hl
      cases h'
      exact hh hl
    · exact fun hL c conn hc hn he => (hlist hL c conn hc hn he).elim
  · cases h'
    rw [ha] at hc
    cases hc

/-- A listener that no website and no connection without a website uses is gone. -/
theorem Seated.put_none (hs : s.Seated) (hk : s.core i = some k) (ht : k.type = .listen)
    (hu : s.usesOf i = 0)
    (hc : s.listens → ∀ c conn, s.connections c = some conn → conn.websiteSockfd = none →
      conn.exlisnfd ≠ i) : (s.put i none).Seated := by
  have hf := hs.fits i
  refine hs.put ?_ (fun k' c h' _ _ => by cases h') fun l h hl => ?_
  · constructor
    · exact fun k' h' => by cases h'
    · intro conn hconn
      obtain ⟨k₀, hk₀, hck⟩ := hf.client conn hconn
      obtain rfl := Option.some.inj (hk.symm.trans hk₀)
      exact absurd (ht.symm.trans hck.type) (by decide)
    · intro hw
      obtain ⟨k₀, hk₀, hwk⟩ := hf.webapp hw
      obtain rfl := Option.some.inj (hk.symm.trans hk₀)
      exact absurd (ht.symm.trans hwk.type) (by decide)
    · intro h0
      rw [hu] at h0
      exact absurd h0 (Nat.lt_irrefl 0)
    · exact fun k' h' => by cases h'
    · exact fun hL c conn hconn hn he => (hc hL c conn hconn hn he).elim
  · obtain ⟨-, k₀, hk₀, ht₀, -⟩ := hs.accepted l i h hl
    obtain rfl := Option.some.inj (hk.symm.trans hk₀)
    exact absurd (ht.symm.trans ht₀) (by decide)

/-- A listener takes in a connection that nothing refers to. -/
theorem Seated.put_holds (hs : s.Seated) (hk : s.core i = some k) (ht : k.type = .listen)
    (hn : s.connections c = none) (hc : Waits k.eventHdlr (s.core c)) (hfree : ∀ l h, ¬s.Holds l c h) :
    (s.put i (some { k with acceptedFd := some c })).Seated := by
  have hci : c ≠ i := by
    rintro rfl
    obtain ⟨k', hk', ht', -⟩ := hc
    obtain rfl := Option.some.inj (hk.symm.trans hk')
    exact absurd (ht.symm.trans ht') (by decide)
  -- what it held before is forgotten
  have hs₀ : (s.put i (some { k with acceptedFd := none })).Seated :=
    hs.put_same hk rfl rfl rfl (fun _ _ h => by cases h) (fun _ h => h) fun _ h => h
  have hself := s.put_self i (some { k with acceptedFd := some c })
  have hother : ∀ (x : Option SockCore) (j : ℕ), j ≠ i → (s.put i x).core j = s.core j :=
    fun x j hj => s.put_of_ne hj x
  have hholds : ∀ l c' h, (s.put i (some { k with acceptedFd := some c })).Holds l c' h →
      (l = i ∧ c' = c ∧ h = k.eventHdlr) ∨ (l ≠ i ∧ s.Holds l c' h) := by
    rintro l c' h ⟨k', hk', ht', ha, rfl⟩
    by_cases hl : l = i
    · subst hl
      rw [hself] at hk'
      cases hk'
      exact Or.inl ⟨rfl, (Option.some.inj ha).symm, rfl⟩
    · rw [hother _ l hl] at hk'
      exact Or.inr ⟨hl, k', hk', ht', ha, rfl⟩
  constructor
  · intro j
    have hf := hs₀.fits j
    by_cases hj : j = i
    · subst hj
      rw [put_self] at hf
      rw [hself]
      refine ⟨fun _ _ => hf.small _ rfl, fun conn hconn => ?_, fun hw => ?_, fun h0 => ?_, fun k' h' _ => ?_,
        fun _ c conn hconn hnone he => ⟨_, rfl, ht⟩⟩
      · obtain ⟨k', hk', hck⟩ := hf.client conn hconn
        cases hk'
        exact ⟨_, rfl, hck.type, hck.eventHdlr, hck.closed⟩
      · obtain ⟨k', hk', hwk⟩ := hf.webapp hw
        cases hk'
        exact ⟨_, rfl, hwk.type, hwk.eventHdlr, hwk.closed⟩
      · obtain ⟨k', hk', hl, hle⟩ := hf.site h0
        cases hk'
        exact ⟨_, rfl, hl, hle⟩
      · cases h'
        exact (hs.fits j).listener k hk ht
    · rw [hother _ j hj] at hf ⊢
      exact ⟨hf.small, hf.client, hf.webapp, hf.site, hf.listener, hf.listened⟩
  · intro l c' h hl
    obtain ⟨rfl, rfl, rfl⟩ | ⟨hli, hl⟩ := hholds l c' h hl
    · refine ⟨hn, ?_⟩
      rw [hother _ _ hci]
      exact hc
    · obtain ⟨hnone, hwait⟩ := hs.accepted l c' h hl
      refine ⟨hnone, ?_⟩
      rw [hother _ c']
      · exact hwait
      · rintro rfl
        obtain ⟨k', hk', ht', -⟩ := hwait
        obtain rfl := Option.some.inj (hk.symm.trans hk')
        exact absurd (ht.symm.trans ht') (by decide)
  · intro l l' c' h h' hl hl'
    obtain ⟨rfl, rfl, -⟩ | ⟨-, hold⟩ := hholds l c' h hl
    · obtain ⟨rfl, -⟩ | ⟨-, hold'⟩ := hholds l' c' h' hl'
      · rfl
      · exact (hfree l' h' hold').elim
    · obtain ⟨rfl, rfl, -⟩ | ⟨-, hold'⟩ := hholds l' c' h' hl'
      · exact (hfree l h hold).elim
      · exact hs.once l l' c' h h' hold hold'

/-! ## A change of the tables -/

/-- Connections go, or are given a website. -/
theorem Seated.conns (hs : s.Seated) {conns : ℕ → Option ConnData}
    (hc : ∀ i conn, conns i = some conn → ∃ old, s.connections i = some old ∧
      (conn.websiteSockfd = none → old.websiteSockfd = none ∧ conn.exlisnfd = old.exlisnfd)) :
    ({ s with connections := conns } : Seating).Seated := by
  constructor
  · intro i
    have hf := hs.fits i
    refine ⟨hf.small, fun conn hi => ?_, hf.webapp, hf.site, hf.listener, fun hL c conn hi hn he => ?_⟩
    · obtain ⟨old, hold, -⟩ := hc i conn hi
      exact hf.client old hold
    · obtain ⟨old, hold, hsame⟩ := hc c conn hi
      obtain ⟨hn', he'⟩ := hsame hn
      exact hf.listened hL c old hold hn' (he'.symm.trans he)
  · intro l c h hl
    obtain ⟨hnone, hwait⟩ := hs.accepted l c h hl
    refine ⟨?_, hwait⟩
    show conns c = none
    cases hi : conns c with
    | none => rfl
    | some conn =>
      obtain ⟨old, hold, -⟩ := hc c conn hi
      rw [hnone] at hold
      cases hold
  · exact hs.once

/-- A connection of a listener is put into the table. -/
theorem Seated.addConn (hs : s.Seated) (hk : s.core i = some k) (hck : k.Client)
    (hfree : ∀ l h, ¬s.Holds l i h) (he : conn.exlisnfd = l) {kl : SockCore} (hl : s.core l = some kl)
    (htl : kl.type = .listen) :
    ({ s with connections := Function.update s.connections i (some conn) } : Seating).Seated := by
  constructor
  · intro j
    have hf := hs.fits j
    refine ⟨hf.small, fun conn' hj => ?_, hf.webapp, hf.site, hf.listener,
      fun hL c conn' hj hn he' => ?_⟩
    · by_cases hji : j = i
      · subst hji
        exact ⟨k, hk, hck⟩
      · simp only [Function.update_of_ne hji] at hj
        exact hf.client conn' hj
    · by_cases hc : c = i
      · subst hc
        simp only [Function.update_self, Option.some.injEq] at hj
        subst hj
        exact ⟨kl, by rw [← he', he]; exact hl, htl⟩
      · simp only [Function.update_of_ne hc] at hj
        exact hf.listened hL c conn' hj hn he'
  · intro l c h hl'
    obtain ⟨hnone, hwait⟩ := hs.accepted l c h hl'
    have hc : c ≠ i := by
      rintro rfl
      exact hfree l h hl'
    exact ⟨by simpa only [Function.update_of_ne hc] using hnone, hwait⟩
  · exact hs.once

/-- Switches go, or come to the socket of a webapp. -/
theorem Seated.change_hosts (hs : s.Seated) {hosts : ℕ → Prop}
    (hh : ∀ i, hosts i → s.hosts i ∨ ∃ k, s.core i = some k ∧ k.Webapp) :
    ({ s with hosts } : Seating).Seated := by
  refine ⟨fun i => ?_, hs.accepted, hs.once⟩
  have hf := hs.fits i
  exact ⟨hf.small, hf.client, fun hi => (hh i hi).elim hf.webapp id, hf.site, hf.listener, hf.listened⟩

theorem Seated.fewer_hosts (hs : s.Seated) {hosts : ℕ → Prop} (hh : ∀ i, hosts i → s.hosts i) :
    ({ s with hosts } : Seating).Seated :=
  hs.change_hosts fun i hi => Or.inl (hh i hi)

/-- The websites that use a listener are as many or fewer, or its uses were counted before. -/
theorem Seated.sites (hs : s.Seated) {websites : List Website}
    (hw : ∀ l, 0 < websites.countP (fun site => site.exlisnfd = l) → ∃ k, s.core l = some k ∧
      k.type = .listen ∧ ((websites.countP fun site => site.exlisnfd = l : ℕ) : ℤ) ≤ k.nOpen) :
    ({ s with websites } : Seating).Seated := by
  refine ⟨fun i => ?_, hs.accepted, hs.once⟩
  have hf := hs.fits i
  exact ⟨hf.small, hf.client, hf.webapp, hw i, hf.listener, hf.listened⟩

theorem Seated.eraseSite (hs : s.Seated) (p : Website → Bool) :
    ({ s with websites := s.websites.eraseP p } : Seating).Seated := by
  refine hs.sites fun l h0 => ?_
  have hle : (s.websites.eraseP p).countP (fun site => site.exlisnfd = l) ≤ s.usesOf l :=
    List.eraseP_sublist.countP_le
  obtain ⟨k, hk, ht, hn⟩ := (hs.fits l).site (Nat.lt_of_lt_of_le h0 hle)
  exact ⟨k, hk, ht, by omega⟩

/-- A website whose use of the listener is counted. -/
theorem Seated.addSite (hs : s.Seated) (hk : s.core site.exlisnfd = some k) (ht : k.type = .listen)
    (hn : (s.usesOf site.exlisnfd : ℤ) < k.nOpen) :
    ({ s with websites := s.websites ++ [site] } : Seating).Seated := by
  refine hs.sites fun l h0 => ?_
  rw [List.countP_append, List.countP_singleton] at h0 ⊢
  by_cases hl : site.exlisnfd = l
  · subst hl
    refine ⟨k, hk, ht, ?_⟩
    unfold usesOf at hn
    simp only [decide_true, if_true]
    omega
  · simp only [hl, decide_false, Bool.false_eq_true, if_false, Nat.add_zero] at h0 ⊢
    exact (hs.fits l).site h0

end Seating

end Zimr
