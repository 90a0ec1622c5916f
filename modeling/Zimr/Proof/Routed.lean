import Zimr.Proof.Callbacks

/-!
# Whose response it is, in every run

* `Sound.step`, `Sound.run` — every callback that takes no client for a listener, and reads no frame that
  a webapp does not send, keeps the tables together
* `routing_integrity` — and then the tables agree, and no callback follows `NULL` in `connections`
-/

namespace Zimr

open Run Seating Board

namespace Daemon

variable {α β : Type} {d d' d₁ d₂ : Daemon} {fd i c w j : ℕ} {conn : ConnData} {sw sw' : MsgSwitch} {zs : Zs}
  {a : Callback}

/-! ## Every callback -/

theorem Sound.zsRead {r : RwRes} {frames : List Frame} (h : d.Sound)
    (hun : d.unruly (.zsRead fd r frames) = false) (hc : d.step (.zsRead fd r frames) = .ok d') : d'.Sound := by
  simp only [Daemon.step] at hc
  split at hc
  swap
  · cases hc
    exact h
  rename_i z hz
  split at hc
  swap
  · cases hc
    exact h
  rename_i hcond
  unfold zsReadReady at hc
  split at hc
  · exact h.insockAccept hz hc
  · rename_i hh _
    exact h.exsockAccept hz hh hc
  · obtain ⟨d₁, h₁, hc⟩ := bind_inv hc
    obtain ⟨zs, hzs, rfl⟩ := callZs'_ok h₁
    exact Sound.exread (SoundBut.clrRead h hzs) hc
  · rename_i hh ht
    have hsw : (d.switches fd).isSome := by
      unfold Daemon.switchRead at hc
      cases hsw : d.switches fd with
      | none =>
        rw [hsw] at hc
        cases hc
      | some sw => rfl
    refine h.switchRead (h.seated.linked hsw) (fun zs bytes hok hb sw hsw => ?_) hc
    have hcall : d.callZs (Zimr.zsRead d.zs fd 1024 r) = .ok (d.setZs zs, .ok bytes) := by
      rw [hok]
      rfl
    unfold unruly at hun
    simp only [hz, hcond, hh, ht, hcall, hb, hsw, decide_true, Bool.and_self, if_true, ne_eq, not_false_eq_true,
      Bool.true_and, Option.any_some] at hun
    exact hun
  · cases hc
    exact h
  · cases hc
    exact h

theorem Sound.zsWrite (h : d.Sound) (hc : d.step (.zsWrite fd) = .ok d') : d'.Sound := by
  simp only [Daemon.step] at hc
  split at hc
  swap
  · cases hc
    exact h
  rename_i z hz
  split at hc
  swap
  · cases hc
    exact h
  rename_i hcond
  unfold zsWriteReady at hc
  split at hc
  · cases hc
  · cases hc
    exact h
  · exact h.exsockWrite hz (Bool.and_eq_true_iff.1 hcond).2 hc
  · have hl : d.Linked fd := by
      obtain ⟨⟨d₁, frame⟩, h₁, -⟩ := bind_inv hc
      obtain ⟨sw, -, hsw, -⟩ := assertMsg_ok h₁
      exact h.seated.linked (by rw [hsw]; rfl)
    exact h.switchWrite hl hc

/-- **Every callback** of that kind keeps the tables together. -/
theorem Sound.step (h : d.Sound) (htk : d.takesClient a = false) (hun : d.unruly a = false)
    (hc : d.step a = .ok d') : d'.Sound := by
  cases a with
  | zfdRead fd accept r₁ r₂ => exact h.zfdRead hc
  | zfdWrite fd r₁ r₂ => exact h.zfdWrite hc
  | zsRead fd r frames => exact h.zsRead hun hc
  | zsWrite fd => exact h.zsWrite hc
  | msgAccept fd msgid =>
    simp only [Daemon.step] at hc
    split at hc
    · rename_i msg hmsg
      obtain ⟨sw, hsw, hm⟩ := Option.bind_eq_some_iff.1 hmsg
      split at hc
      · rename_i hcon
        exact h.msgAcceptReady hsw hm (by simpa using hcon) hc
      · cases hc
        exact h
    · cases hc
      exact h
  | msgRead fd msgid stack k strerror => exact h.msgRead htk hc
  | msgWrite fd msgid =>
    simp only [Daemon.step] at hc
    split at hc
    · rename_i sw hsw
      split at hc
      · rename_i hcond
        exact h.msgWriteReady hsw (Bool.and_eq_true_iff.1 hcond).1 hc
      · cases hc
        exact h
    · cases hc
      exact h

/-! ## The start -/

/-- Nobody has connected yet. -/
structure Bare (d : Daemon) : Prop where
  websites : d.websites = []
  connections : d.connections = fun _ => none
  switches : d.switches = fun _ => none
  listen : ∀ i k, d.zs.core i = some k → k.type = .listen
  ok : ZsOK d.zs
  paced : d.zs.Paced

theorem Bare.sound (h : d.Bare) (hs : d.Seated False) : d.Sound := by
  refine Based.sound ⟨hs, fun i k _ hk ht => ?_, h.ok, h.paced⟩ ⟨fun w sw hsw => ?_, fun c conn w hc => ?_,
    fun c conn hc => ?_⟩
  · exact absurd ((h.listen i k hk).symm.trans ht) (by decide)
  · have hsw : d.switches w = some sw := hsw
    rw [h.switches] at hsw
    cases hsw
  · have hc : d.connections c = some conn := hc
    rw [h.connections] at hc
    cases hc
  · have hc : d.connections c = some conn := hc
    rw [h.connections] at hc
    cases hc

theorem setZs_none (h : d.switches = fun _ => none) (zs : Zs) : (d.setZs zs).switches = fun _ => none := by
  funext i
  cases hsw : (d.setZs zs).switches i with
  | none => rfl
  | some sw =>
    have := setZs_switch hsw
    rw [h] at this
    cases this

theorem Bare.start (proxies : List (ℕ × ℤ × SockRes)) : ∀ d d' : Daemon, d.Bare →
    Daemon.start proxies d = .ok d' → d'.Bare := by
  induction proxies with
  | nil =>
    intro d d' h hc
    cases hc
    exact h
  | cons p proxies ih =>
    intro d d' h hc
    obtain ⟨addr, portno, k⟩ := p
    simp only [Daemon.start] at hc
    obtain ⟨⟨d₁, sockfd⟩, h₁, hc⟩ := bind_inv hc
    obtain ⟨zs, hz, rfl⟩ := callZs_ok h₁
    cases sockfd with
    | error e => cases hc
    | ok sockfd =>
      obtain ⟨d₂, h₂, hc⟩ := bind_inv hc
      obtain ⟨zs₂, hz₂, rfl⟩ := callZs'_ok h₂
      have hok := (h.ok.zsocket hz).setRead hz₂
      have hpaced := Zs.Paced.congr ((zsocket_grows hz).paced h.paced) (zsSetRead_eq hz₂).1
      refine ih ((d.setZs zs).setZs zs₂) d'
        ⟨h.websites, h.connections, ?_, fun i k hk => ?_, hok, hpaced⟩ hc
      · exact setZs_none (setZs_none h.switches zs) zs₂
      · have hk : zs.core i = some k := (congrFun (zsSetRead_core hz₂) i).symm.trans hk
        obtain ⟨l, k', -, hk', -, hcore⟩ | ⟨e, he, -⟩ | ⟨l, -, -, -, hcore⟩ := zsocket_core hz
        · by_cases hi : i = l
          · subst hi
            rw [hcore, Function.update_self] at hk
            cases hk
            exact h.listen i k' hk'
          · rw [hcore, Function.update_of_ne hi] at hk
            exact h.listen i k hk
        · cases he
        · by_cases hi : i = l
          · subst hi
            rw [hcore, Function.update_self] at hk
            cases hk
            rfl
          · rw [hcore, Function.update_of_ne hi] at hk
            exact h.listen i k hk

theorem Bare.init : Daemon.init.Bare := by
  refine ⟨rfl, rfl, rfl, fun i k hk => ?_, ZsOK.init, fun fd zs hz => ?_⟩
  · cases hk
  · cases hz

theorem Sound.start {proxies : List (ℕ × ℤ × SockRes)} (h : Daemon.start proxies .init = .ok d) : d.Sound :=
  (Bare.start proxies _ _ .init h).sound (Seated.start proxies _ _ (Seated.init False) rfl h)

theorem Sound.run {proxies : List (ℕ × ℤ × SockRes)} {as : List Callback} {d₀ : Daemon}
    (h₀ : Daemon.start proxies .init = .ok d₀)
    (ha : Along Daemon.step (fun d a => d.takesClient a = false ∧ d.unruly a = false) d₀ as)
    (h : Run.run Daemon.step d₀ as = .ok d) : d.Sound :=
  run_inv (C := fun d a => d.takesClient a = false ∧ d.unruly a = false)
    (fun _ _ _ hs hC hc => Sound.step hs hC.1 hC.2 hc) as d₀ d (Sound.start h₀) ha h

/-! ## What the tables say -/

theorem Sound.routed (h : d.Sound) : d.Routed := by
  have hcar : ∀ fd conn w, d.connections fd = some conn → conn.websiteSockfd = some w →
      ∃ sw m, d.switches w = some sw ∧ sw.msgs conn.msgid = some m ∧ m.type = fd ∧ m.status.closed = false := by
    intro fd conn w hc hw
    obtain ⟨sw, hsw, m, hm, hopen, -, ht⟩ := h.board.carried fd conn w hc hw
    exact ⟨sw, m, hsw, hm, ht, hopen⟩
  refine ⟨fun fd conn hc => ?_, fun fd conn w hc hw => ?_, fun fd conn w hc hw => ?_,
    fun fd fd' conn conn' w hc hc' hw hw' he => ?_, fun w sw msgid msg => h.client⟩
  · obtain ⟨k, hk, hck⟩ := (h.seated.fits fd).client conn hc
    obtain ⟨z, hz, rfl⟩ := of_core hk
    exact ⟨z, hz, hck.type, hck.closed⟩
  · obtain ⟨sw, m, hsw, hm, ht, -⟩ := hcar fd conn w hc hw
    exact (h.board.serves w sw hsw conn.msgid).site m hm (by omega)
  · obtain ⟨sw, m, hsw, hm, ht, hopen⟩ := hcar fd conn w hc hw
    exact ⟨sw, m, hsw, msgGet_some hm ((h.board.serves w sw hsw conn.msgid).id m hm).2, ht, hopen⟩
  · obtain ⟨sw, m, hsw, hm, ht, -⟩ := hcar fd conn w hc hw
    obtain ⟨sw', m', hsw', hm', ht', -⟩ := hcar fd' conn' w hc' hw'
    obtain rfl := Option.some.inj (hsw.symm.trans hsw')
    rw [he, hm'] at hm
    cases hm
    exact Int.ofNat.inj (ht.symm.trans ht')

/-! ## The entries of `connections` -/

theorem null_conn : DFault.Null .nullConn := .inr rfl

theorem held_some (h : d.connections c = some conn) : Held .nullConn d c :=
  .inr ⟨rfl, .inr (by rw [Int.toNat_natCast, h]; rfl)⟩

theorem spares_cleanupWebsite (is : List ℕ) : ∀ d : Daemon, Spares .nullConn (cleanupWebsite is d fd) := by
  induction is with
  | nil => exact fun d => spares_ok _
  | cons i is ih =>
    intro d
    refine Spares.bind ?_ fun d₁ _ => ih d₁
    split
    · rename_i hany
      cases hconn : d.connections i with
      | none =>
        rw [hconn] at hany
        cases hany
      | some conn => exact (held_some hconn).cleanup
    · exact spares_ok _

theorem spares_msgSwitchDestroy : Spares .nullConn (d.msgSwitchDestroy fd) := by
  unfold Daemon.msgSwitchDestroy
  split
  · exact spares_ok _
  split
  · exact spares_error null_conn (by rintro ⟨⟩) (by rintro ⟨⟩)
  · exact (spares_callZs' null_conn _).bind fun _ _ => spares_callZs' null_conn _

theorem spares_removeWebsite : Spares .nullConn (d.removeWebsite fd) := by
  unfold Daemon.removeWebsite
  split
  · exact spares_ok _
  · exact (spares_cleanupWebsite _ _).bind fun _ _ => spares_msgSwitchDestroy.bind fun _ _ =>
      (spares_callZs null_conn _).bind fun _ _ => (spares_callZs null_conn _).bind fun _ _ => spares_ok _

theorem spares_msgGetType {msgid : ℕ} : Spares .nullConn (d.msgGetType fd msgid) := by
  unfold msgGetType
  split
  · exact fun h => by cases h
  · split
    · exact fun h => by cases h
    · exact spares_ok _

theorem spares_cleanupMsgs (hneg : ∀ sw j m, d.switches fd = some sw → sw.msgs j = some m → m.type < 0)
    (ns : List ℕ) : Spares .nullConn (cleanupMsgs ns d fd) := by
  induction ns with
  | nil => exact spares_ok _
  | cons n ns ih =>
    refine (spares_msgExists null_conn).bind fun found _ => ?_
    split
    · refine spares_msgGetType.bind fun type htype => ?_
      have hn := msgGetType_neg hneg htype
      rw [if_neg (by omega)]
      exact ih
    · exact ih

theorem Sound.spares_ioError (h : d.Sound) : Spares .nullConn (d.ioError fd) := by
  unfold Daemon.ioError
  split
  · exact spares_removeWebsite
  rename_i hn
  have hn : websiteGetBySockfd d.websites fd = none := by simpa using hn
  exact (spares_cleanupMsgs (fun sw j m hsw hm => h.commands hn hsw m hm) _).bind fun _ _ =>
    spares_msgSwitchDestroy.bind fun _ _ => (spares_callZs null_conn _).bind fun _ _ => spares_ok _

theorem Sound.spares_switchFailed (h : d.Sound) : Spares .nullConn (d.switchFailed fd) :=
  (spares_callZs' null_conn _).bind fun _ h₁ => (spares_callZs' null_conn _).bind fun _ h₂ =>
    (spares_assertMsg' null_conn _).bind fun _ h₃ => (h.failed h₁ h₂ h₃).1.spares_ioError

/-- The socket of a client that is armed is in the table. -/
theorem Sound.held {z : Zsocket} (h : d.Sound) (hz : d.zs.zsockets fd = some z) (ht : z.type = .connect)
    (he : z.eventHdlr = .exsock) (ha : d.zs.Armed fd) : Held .nullConn d fd := by
  cases hconn : d.connections fd with
  | none => exact absurd ha (h.still fd z.core hconn (core_some hz) ht he)
  | some conn => exact held_some hconn

theorem Sound.spares_zsRead {r : RwRes} {frames : List Frame} (h : d.Sound) :
    Spares .nullConn (d.step (.zsRead fd r frames)) := by
  simp only [Daemon.step]
  split
  swap
  · exact spares_ok _
  rename_i z hz
  split
  swap
  · exact spares_ok _
  rename_i hcond
  unfold zsReadReady
  split
  · -- a webapp comes
    refine (spares_callZs null_conn _).bind fun p _ => ?_
    obtain ⟨d₁, newfd⟩ := p
    simp only
    split
    · unfold Daemon.msgSwitchCreate
      split
      · exact spares_ok _
      · exact (spares_callZs' null_conn _).bind fun _ _ => (spares_callZs' null_conn _).bind fun _ _ =>
          spares_ok _
    · exact spares_ok _
  · -- a client comes
    refine (spares_callZs null_conn _).bind fun p _ => ?_
    obtain ⟨d₁, newfd⟩ := p
    simp only
    split
    · split
      · exact fun h => by cases h
      · split
        · exact spares_callZs' null_conn _
        · exact fun h => by cases h
    · exact spares_ok _
  · rename_i hh ht
    have hheld := h.held hz ht hh (.inl (Bool.and_eq_true_iff.1 hcond).1)
    exact (spares_callZs' null_conn _).bind fun _ h₁ =>
      (hheld.tabs (callZs'_tabs h₁)).exread fun he => by cases he
  · -- frames
    unfold Daemon.switchRead
    split
    · exact fun h => by cases h
    refine (spares_callZs null_conn _).bind fun p hp => ?_
    obtain ⟨d₁, got⟩ := p
    obtain ⟨zs, hzs, rfl⟩ := callZs_ok hp
    have hs : (d.setZs zs).Sound := SoundBut.read h hzs
    cases got with
    | error e => exact hs.spares_switchFailed
    | ok bytes =>
      simp only
      split
      · exact hs.spares_switchFailed
      · exact spares_assertMsg' null_conn _
  · exact spares_ok _
  · exact spares_ok _

theorem Sound.spares_zsWrite (h : d.Sound) : Spares .nullConn (d.step (.zsWrite fd)) := by
  simp only [Daemon.step]
  split
  swap
  · exact spares_ok _
  rename_i z hz
  split
  swap
  · exact spares_ok _
  rename_i hcond
  unfold zsWriteReady
  split
  · exact fun h => by cases h
  · exact spares_ok _
  · rename_i ht hh
    have hheld := h.held hz ht hh (.inr (Bool.and_eq_true_iff.1 hcond).1)
    refine (spares_callZs' null_conn _).bind fun d₁ h₁ =>
      (hheld.tabs (callZs'_tabs h₁)).getConn.bind fun conn _ => ?_
    split
    · exact fun h => by cases h
    · exact spares_assertMsg' null_conn _
  · refine (spares_assertMsg null_conn _).bind fun p h₁ => (spares_callZs null_conn _).bind fun q h₂ => ?_
    obtain ⟨d₁, frame⟩ := p
    have hs₁ : d₁.Sound := SoundBut.assertKeeps h (fun _ _ _ hok => msgSwitchWrite_keeps hok) h₁
    have hl₁ : d₁.Linked fd := by
      obtain ⟨sw, -, hsw, -⟩ := assertMsg_ok h₁
      have hl : d.Linked fd := h.seated.linked (by rw [hsw]; rfl)
      exact hl.quiet (assertMsg_quiet h₁)
    obtain ⟨d₂, n⟩ := q
    obtain ⟨zs, hzs, rfl⟩ := callZs_ok h₂
    cases n with
    | error e => exact (hs₁.wrote hl₁ hzs).spares_switchFailed
    | ok n => exact spares_ok _

theorem spares_startWebsite {buf strerror : List UInt8} {k : SockRes} :
    Spares .nullConn (d.startWebsite fd buf k strerror) := by
  unfold Daemon.startWebsite
  simp only
  split
  · exact fun h => by cases h
  split
  · exact spares_ok _
  refine Spares.bind ?_ fun port _ => (spares_callZs null_conn _).bind fun p _ => ?_
  · unfold getPortFromUrl
    intro h
    simp only at h
    split at h
    · cases h
    · split at h
      · cases h
      · split at h <;> cases h
  obtain ⟨d₁, r⟩ := p
  cases r with
  | error e =>
    refine Spares.bind ?_ fun _ _ => spares_ok _
    unfold openingError
    intro h
    simp only at h
    split at h <;> cases h
  | ok l =>
    refine Spares.bind ?_ fun _ _ => (spares_callZs' null_conn _).bind fun _ _ => spares_ok _
    unfold websiteAdd
    intro h
    split at h <;> cases h

theorem Sound.spares_msgRead {msgid : ℕ} {stack strerror : List UInt8} {k : SockRes} (h : d.Sound) :
    Spares .nullConn (d.step (.msgRead fd msgid stack k strerror)) := by
  simp only [Daemon.step]
  split
  swap
  · exact spares_ok _
  rename_i sw hsw
  split
  swap
  · exact spares_ok _
  rename_i hcond
  refine (spares_assertMsg' null_conn _).bind fun d₁ h₁ => (spares_tryMsg null_conn _).bind fun p h₂ =>
    spares_msgGetType.bind fun type htype => ?_
  obtain ⟨d₂, n⟩ := p
  obtain ⟨hs₂, sw₂, m, hsw₂, hm, rfl, -, hopen, -⟩ :=
    h.taken hsw (Bool.and_eq_true_iff.1 hcond).1 h₁ h₂ htype
  -- a msg of a client has its connection
  have hheld : Held .nullConn d₂ m.type := by
    refine .inr ⟨rfl, ?_⟩
    by_cases ht : m.type < 0
    · exact .inl ht
    · obtain ⟨conn, hconn, -⟩ := hs₂.client hsw₂ hm hopen (by omega)
      exact .inr (by rw [hconn]; rfl)
  cases n with
  | none => exact hheld.cleanup
  | some buf =>
    simp only
    split
    · exact hheld.cleanup
    split
    · unfold Daemon.commandHandler
      split
      · exact spares_startWebsite.bind fun _ _ => (spares_tryMsg null_conn _).bind fun _ _ =>
          (spares_tryMsg null_conn _).bind fun _ _ => spares_ok _
      · split
        · exact spares_removeWebsite
        · exact spares_ok _
    · refine (spares_callZs' null_conn _).bind fun d₃ h₃ => (spares_callZs null_conn _).bind fun p h₄ => ?_
      obtain ⟨d₄, n⟩ := p
      cases n with
      | error e => exact (hheld.tabs ((callZs'_tabs h₃).trans (callZs_tabs h₄))).cleanup
      | ok n => exact spares_ok _

/-- **No callback follows `NULL` in `connections`.** -/
theorem Sound.spares_step (h : d.Sound) : Spares .nullConn (d.step a) := by
  cases a with
  | zfdRead fd accept r₁ r₂ => exact spares_callZs' null_conn _
  | zfdWrite fd r₁ r₂ => exact spares_callZs' null_conn _
  | zsRead fd r frames => exact h.spares_zsRead
  | zsWrite fd => exact h.spares_zsWrite
  | msgAccept fd msgid =>
    simp only [Daemon.step]
    split
    · split
      · refine (spares_tryMsg null_conn _).bind fun p _ => ?_
        obtain ⟨d₁, r⟩ := p
        simp only
        split
        · exact spares_ok _
        · exact spares_assertMsg' null_conn _
      · exact spares_ok _
    · exact spares_ok _
  | msgRead fd msgid stack k strerror => exact h.spares_msgRead
  | msgWrite fd msgid =>
    simp only [Daemon.step]
    split
    · split
      · refine spares_msgGetType.bind fun type _ => ?_
        split
        · exact fun h => by cases h
        · exact (spares_callZs' null_conn _).bind fun _ _ => spares_assertMsg' null_conn _
      · exact spares_ok _
    · exact spares_ok _

end Daemon

open Daemon

/-- **Routing integrity**, in every run in which no callback takes a connection for a listener or reads a
frame that a webapp does not send. -/
theorem routing_integrity {proxies : List (ℕ × ℤ × SockRes)} {as : List Callback} {d₀ d : Daemon}
    (h₀ : Daemon.start proxies .init = .ok d₀)
    (ha : Along Daemon.step (fun d a => d.takesClient a = false ∧ d.unruly a = false) d₀ as)
    (h : run Daemon.step d₀ as = .ok d) : d.Routed ∧ ∀ a, d.step a ≠ .error .nullConn :=
  have hs := Sound.run h₀ ha h
  ⟨hs.routed, fun _ => hs.spares_step⟩

/-- A webapp with one website, and a client that has sent its request. -/
def requestRun : List Callback :=
  waitingRun ++ [.zfdRead 6 (.error .eagain) (.bytes (ascii "GET / HTTP/1.1\r\nHost: a\r\n\r\n")) .wantRead,
    .zsRead 6 .wantRead []]

theorem routing_integrity_request : ∃ d₀ d, Daemon.start oneProxy .init = .ok d₀ ∧
    run Daemon.step d₀ requestRun = .ok d ∧
    (d.connections 6).map (fun conn => (conn.websiteSockfd, conn.msgid)) = some (some 4, 2) ∧
    d.Routed ∧ ∀ a, d.step a ≠ .error .nullConn := by
  have hs : ((replay requestRun (.zsWrite 3)).map fun p =>
      (decide (Along Daemon.step (fun d a => d.takesClient a = false ∧ d.unruly a = false) p.1 requestRun),
        (p.2.1.connections 6).map fun conn => (conn.websiteSockfd, conn.msgid))) =
      some (true, some (some 4, 2)) := by
    decide +kernel
  obtain ⟨d₀, d, d', h₀, h, -, hv⟩ := replay_map hs
  rw [Prod.mk.injEq, decide_eq_true_eq] at hv
  exact ⟨d₀, d, h₀, h, hv.2, routing_integrity h₀ hv.1 h⟩

/-- A second webapp starts a website on the address that the client has come from, and hangs up. -/
def takenRun : List Callback :=
  waitingRun ++ connects 3 7 ++ starts 7 1 "http://b" "127.0.0.1" (.ok 8) ++ hangsUp 7 ++
    [.zsRead 7 .wantRead []]

/-- The socket of the client has been closed as the listener of that website. -/
theorem routing_lost : ∃ d₀ d, Daemon.start oneProxy .init = .ok d₀ ∧ run Daemon.step d₀ takenRun = .ok d ∧
    (d.connections 6).isSome ∧ d.zs.zsockets 6 = none ∧ ¬d.Routed := by
  have hs : ((replay takenRun (.zsWrite 3)).map fun p =>
      ((p.2.1.connections 6).isSome, (p.2.1.zs.zsockets 6).isNone)) = some (true, true) := by
    decide +kernel
  obtain ⟨d₀, d, d', h₀, h, -, hv⟩ := replay_map hs
  rw [Prod.mk.injEq] at hv
  have hnone := Option.isNone_iff_eq_none.1 hv.2
  refine ⟨d₀, d, h₀, h, hv.1, hnone, fun hr => ?_⟩
  obtain ⟨conn, hconn⟩ := Option.isSome_iff_exists.1 hv.1
  obtain ⟨zs, hz, -⟩ := hr.socket 6 conn hconn
  rw [hnone] at hz
  cases hz

end Zimr
