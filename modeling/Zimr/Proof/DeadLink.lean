import Zimr.Proof.Keeps
import Zimr.Proof.Refs
import Zimr.Spec.Strays

/-!
# A dead link

`remove_website` takes out the first website of the socket and every connection that
refers to it. Nothing is left exactly when there was no second website (`dead_link_iff`).
-/

namespace Zimr

open Run Daemon

variable {d d' : Daemon} {fd : ℕ}

/-- What is left of the websites after the first one of `fd` is erased. -/
theorem eraseP_sites (sites : List Website) (fd : ℕ) :
    (∀ s ∈ sites.eraseP (fun s => s.sockfd = fd), s.sockfd ≠ fd) ↔
      sites.countP (fun s => s.sockfd = fd) ≤ 1 := by
  induction sites with
  | nil => simp
  | cons a sites ih =>
    by_cases ha : a.sockfd = fd
    · -- the rest must have none
      rw [List.eraseP_cons_of_pos (by simpa using ha), List.countP_cons_of_pos (by simpa using ha)]
      have hle : sites.countP (fun s => s.sockfd = fd) + 1 ≤ 1 ↔
          sites.countP (fun s => s.sockfd = fd) = 0 := by omega
      rw [hle, List.countP_eq_zero]
      simp
    · rw [List.eraseP_cons_of_neg (by simpa using ha), List.countP_cons_of_neg (by simpa using ha)]
      rw [← ih]
      simp [ha]

theorem websiteGetBySockfd_none {sites : List Website} (h : websiteGetBySockfd sites fd = none) :
    ∀ s ∈ sites, s.sockfd ≠ fd := by
  intro s hs
  have := List.find?_eq_none.1 h s hs
  simpa using this

theorem NoRefs.of_tabs (hw : ∀ site ∈ d.websites, site.sockfd ≠ fd)
    (hc : ∀ c < fdSetSize, ∀ conn, d.connections c = some conn → conn.websiteSockfd ≠ some fd) :
    NoRefs d fd :=
  ⟨hw, hc, fun _ _ _ site h => hw site (websiteFind_mem h)⟩

/-- Without a website no connection refers to the socket either. -/
theorem Refs.noRefs_of_none (h : Refs d) (hn : websiteGetBySockfd d.websites fd = none) :
    NoRefs d fd := by
  have hw := websiteGetBySockfd_none hn
  refine NoRefs.of_tabs hw fun c hlt conn hc hr => ?_
  obtain ⟨site, hmem, he⟩ := h c conn fd hlt hc hr
  exact hw site hmem he

theorem sitesOf_of_none (hn : websiteGetBySockfd d.websites fd = none) : d.sitesOf fd = 0 := by
  unfold sitesOf
  rw [List.countP_eq_zero]
  intro s hs
  have := websiteGetBySockfd_none hn s hs
  simpa using this

theorem noRefs_removeWebsite_iff (h : Refs d) (hc : d.removeWebsite fd = .ok d') :
    NoRefs d' fd ↔ d.sitesOf fd ≤ 1 := by
  obtain ⟨hn, rfl⟩ | ⟨-, hw, -, hno⟩ := removeWebsite_tabs hc
  · rw [sitesOf_of_none hn]
    exact ⟨fun _ => by omega, fun _ => h.noRefs_of_none hn⟩
  · have key := eraseP_sites d.websites fd
    rw [← hw] at key
    constructor
    · intro hr
      exact key.1 hr.websites
    · intro hle
      exact NoRefs.of_tabs (key.2 hle) fun c hlt conn hi => hno c conn hlt hi

theorem noRefs_ioError_iff (h : Refs d) (hc : d.ioError fd = .ok d') :
    NoRefs d' fd ↔ d.sitesOf fd ≤ 1 := by
  unfold Daemon.ioError at hc
  split at hc
  · exact noRefs_removeWebsite_iff h hc
  · rename_i hn
    have hn : websiteGetBySockfd d.websites fd = none := by simpa using hn
    obtain ⟨d₁, h₁, hc⟩ := bind_inv hc
    obtain ⟨d₂, h₂, hc⟩ := bind_inv hc
    obtain ⟨⟨d₃, r⟩, h₃, hc⟩ := bind_inv hc
    cases hc
    have hs := ((cleanupMsgs_shrinks _ _ _ h₁).trans (msgSwitchDestroy_tabs h₂).shrinks).trans
      (callZs_tabs h₃).shrinks
    rw [sitesOf_of_none hn]
    refine ⟨fun _ => by omega, fun _ => ?_⟩
    refine (h.shrinks hs).noRefs_of_none ?_
    rw [hs.websites]
    exact hn

/-- The counts depend on the tables only. -/
theorem Daemon.SameTabs.sitesOf (h : SameTabs d d') : d'.sitesOf fd = d.sitesOf fd := by
  unfold Daemon.sitesOf
  rw [h.websites]

theorem noRefs_switchFailed_iff (h : Refs d) (hc : d.switchFailed fd = .ok d') :
    NoRefs d' fd ↔ d.sitesOf fd ≤ 1 := by
  obtain ⟨d₁, ht, hc⟩ := switchFailed_ok hc
  rw [← ht.sitesOf]
  exact noRefs_ioError_iff (h.same ht) hc

/-! ## The callbacks -/

theorem noRefs_zsRead_iff {r : RwRes} {frames : List Frame} {fd' : ℕ} (h : Refs d)
    (hd : d.drops (.zsRead fd' r frames) = some fd) (hc : d.step (.zsRead fd' r frames) = .ok d') :
    NoRefs d' fd ↔ d.sitesOf fd ≤ 1 := by
  simp only [drops] at hd
  split at hd
  · rename_i zs hz
    split at hd
    · rename_i hcond
      simp only [Bool.and_eq_true, decide_eq_true_eq] at hcond
      obtain ⟨⟨⟨har, hrd⟩, hh⟩, ht⟩ := hcond
      simp only [Daemon.step, hz, har, hrd, Bool.and_self, if_true, zsReadReady, hh, ht] at hc
      unfold Daemon.switchRead at hc
      split at hc
      · cases hc
      · obtain ⟨⟨d₁, got⟩, h₁, hc⟩ := bind_inv hc
        obtain ⟨zs', hz', rfl⟩ := callZs_ok h₁
        have htabs := setZs_tabs d zs'
        rw [hz'] at hd
        -- with bytes there the socket has not failed
        cases got with
        | error e =>
          cases hd
          rw [← htabs.sitesOf]
          exact noRefs_switchFailed_iff (h.same htabs) hc
        | ok bytes =>
          simp only at hd hc
          split at hd
          · rename_i hb
            cases hd
            rw [if_pos hb] at hc
            rw [← htabs.sitesOf]
            exact noRefs_switchFailed_iff (h.same htabs) hc
          · cases hd
    · cases hd
  · cases hd

theorem noRefs_zsWrite_iff {fd' : ℕ} (h : Refs d) (hd : d.drops (.zsWrite fd') = some fd)
    (hc : d.step (.zsWrite fd') = .ok d') : NoRefs d' fd ↔ d.sitesOf fd ≤ 1 := by
  simp only [drops] at hd
  split at hd
  · rename_i zs hz
    split at hd
    · rename_i hcond
      simp only [Bool.and_eq_true, decide_eq_true_eq] at hcond
      obtain ⟨⟨⟨haw, hwr⟩, hh⟩, ht⟩ := hcond
      simp only [Daemon.step, hz, haw, hwr, Bool.and_self, if_true, zsWriteReady, hh, ht] at hc
      obtain ⟨⟨d₁, frame⟩, h₁, hc⟩ := bind_inv hc
      obtain ⟨⟨d₂, n⟩, h₂, hc⟩ := bind_inv hc
      obtain ⟨zs', hz', rfl⟩ := callZs_ok h₂
      rw [h₁] at hd
      simp only [hz'] at hd
      cases n with
      | ok n => cases hd
      | error e =>
        cases hd
        have htabs := (assertMsg_tabs h₁).trans (setZs_tabs d₁ zs')
        rw [← htabs.sitesOf]
        exact noRefs_switchFailed_iff (h.same htabs) hc
    · cases hd
  · cases hd

theorem setZs_switch {zs : Zs} {i : ℕ} {sw : MsgSwitch} (h : (d.setZs zs).switches i = some sw) :
    d.switches i = some sw := by
  simp only [setZs] at h
  split at h
  · exact h
  · cases h

theorem rearm_switch {b : Bool} {i : ℕ} {sw : MsgSwitch} (hr : d.rearm fd b = .ok d')
    (h : d'.switches i = some sw) : d.switches i = some sw := by
  obtain rfl | ⟨zs, -, rfl⟩ := rearm_ok hr
  · exact h
  · exact setZs_switch h

/-- The type of a msg is what it was before `msg_clr_read` and `msg_read`. -/
theorem msgGetType_read {d₁ d₂ : Daemon} {msgid size : ℕ} {n : Option (List UInt8)} {type : ℤ}
    {sw : MsgSwitch} {msg : Msg} (hsw : d.switches fd = some sw) (hmsg : sw.msgs msgid = some msg)
    (h₁ : d.assertMsg' fd (fun sw => msgClrRead sw msgid) = .ok d₁)
    (h₂ : d₁.tryMsg fd (fun sw => msgRead sw msgid size) = .ok (d₂, n))
    (ht : d₂.msgGetType fd msgid = .ok type) : type = msg.type := by
  obtain ⟨sw₀, sw₁, h₀, hf₁, hr₁⟩ := assertMsg'_ok h₁
  obtain rfl := Option.some.inj (hsw.symm.trans h₀)
  obtain ⟨-, l₁, -, -⟩ := msgClrRead_lives hf₁
  obtain ⟨m₁, hm₁, k₁⟩ := l₁.live msgid msg hmsg
  have hput₁ : (d.putSwitch fd sw₁).switches fd = some sw₁ := Function.update_self _ _ _
  unfold Daemon.msgGetType at ht
  cases hsw₂ : d₂.switches fd with
  | none => rw [hsw₂] at ht; cases ht
  | some sw₂ =>
    rw [hsw₂] at ht
    simp only at ht
    split at ht
    · cases ht
    · rename_i m₂ hm₂
      cases ht
      have hslot : sw₂.msgs msgid = some m₂ := by
        unfold msgGet at hm₂
        split_ifs at hm₂ with h0 hpos
        · simpa using hm₂
        · omega
      obtain ⟨hn, rfl, -⟩ | ⟨sw₃, sw₄, r, h₃, hf₂, -, hr₂⟩ := tryMsg_ok h₂
      · rw [hn] at hsw₂; cases hsw₂
      · have h₃' := rearm_switch hr₁ h₃
        rw [hput₁] at h₃'
        obtain rfl := Option.some.inj h₃'
        have hput₂ : (d₁.putSwitch fd sw₄).switches fd = some sw₄ := Function.update_self _ _ _
        have h₄ := rearm_switch hr₂ hsw₂
        rw [hput₂] at h₄
        obtain rfl := Option.some.inj h₄
        obtain ⟨m₃, hm₃, k₂⟩ := (msgRead_keeps hf₂).live msgid m₁ hm₁
        obtain rfl := Option.some.inj (hslot.symm.trans hm₃)
        exact k₂.type.trans k₁.type

theorem noRefs_msgRead_iff {fd' msgid : ℕ} {stack strerror : List UInt8} {k : SockRes} (h : Refs d)
    (hd : d.drops (.msgRead fd' msgid stack k strerror) = some fd)
    (hc : d.step (.msgRead fd' msgid stack k strerror) = .ok d') :
    NoRefs d' fd ↔ d.sitesOf fd ≤ 1 := by
  simp only [drops] at hd
  split at hd
  · rename_i sw hsw
    split at hd
    · rename_i msg hmsg
      split at hd
      · rename_i hcond
        cases hd
        simp only [Bool.and_eq_true, decide_eq_true_eq] at hcond
        obtain ⟨⟨har, hready⟩, htype⟩ := hcond
        simp only [Daemon.step, hsw, har, hmsg, Option.all_some, hready, Bool.and_self,
          if_true] at hc
        obtain ⟨d₁, h₁, hc⟩ := bind_inv hc
        obtain ⟨⟨d₂, n⟩, h₂, hc⟩ := bind_inv hc
        obtain ⟨type, ht, hc⟩ := bind_inv hc
        have hty : type = -2 := (msgGetType_read hsw hmsg h₁ h₂ ht).trans htype
        subst hty
        have htabs := (assertMsg'_tabs h₁).trans (tryMsg_tabs h₂)
        -- with nothing read the index is `-2`
        have hcleanup : ∀ d₃, d₂.cleanupConnection (-2) ≠ .ok d₃ := by
          intro d₃ h₃
          obtain ⟨c, _, _, _, _, he, -⟩ := cleanupConnection_ok h₃
          omega
        cases n with
        | none => exact absurd hc (hcleanup d')
        | some buf =>
          simp only at hc
          split at hc
          · exact absurd hc (hcleanup d')
          · rw [← htabs.sitesOf]
            exact noRefs_removeWebsite_iff (h.same htabs) hc
      · cases hd
    · cases hd
  · cases hd

/-- **A dead link leaves nothing behind exactly when at most one website was registered for
its socket**, after any run: when the daemon has handled the stop command or the failure of
the socket, no website and no connection refers to it. -/
theorem dead_link_iff {proxies : List (ℕ × ℤ × SockRes)} {d₀ d d' : Daemon} {as : List Callback}
    {a : Callback} {fd : ℕ} (h₀ : Daemon.start proxies .init = .ok d₀)
    (h : run Daemon.step d₀ as = .ok d) (hd : d.drops a = some fd) (hc : d.step a = .ok d') :
    NoRefs d' fd ↔ d.sitesOf fd ≤ 1 := by
  have hr : Refs d := Refs.run h₀ h
  cases a with
  | zfdRead fd' accept r₁ r₂ => cases hd
  | zfdWrite fd' r₁ r₂ => cases hd
  | msgAccept fd' msgid => cases hd
  | msgWrite fd' msgid => cases hd
  | zsRead fd' r frames => exact noRefs_zsRead_iff hr hd hc
  | zsWrite fd' => exact noRefs_zsWrite_iff hr hd hc
  | msgRead fd' msgid stack k strerror => exact noRefs_msgRead_iff hr hd hc

/-! ## Two websites on one socket -/

/-- 127.0.0.1. -/
def loopback : ℕ := inetAddr (ascii "127.0.0.1")

/-- The configuration: one address for webapps, where descriptor 3 listens. -/
def oneProxy : List (ℕ × ℤ × SockRes) := [(loopback, 7672, ⟨.ok 3, true, .bytes []⟩)]

/-- A connection comes in on the listener `l`, as descriptor `fd`. -/
def connects (l fd : ℕ) : List Callback :=
  [.zfdRead l (.ok (fd, loopback)) .wantRead .wantRead, .zsRead l .wantRead []]

/-- The webapp on `fd` starts a website: its command comes in as msg `slot`, under the id
`-slot`, and `k` answers the opening of the listener. -/
def starts (fd slot : ℕ) (url ip : String) (k : Except SockErrno ℕ) : List Callback :=
  [.zfdRead fd (.error .eagain) (.bytes [1]) .wantRead,
    .zsRead fd .wantRead [.pack ⟨-slot, -1, ascii url ++ [0] ++ ascii ip ++ [0], 0⟩],
    .msgAccept fd slot, .msgRead fd slot [] ⟨k, true, .bytes []⟩ []]

/-- The other end of `fd` closes the connection; the next callback finds that out. -/
def hangsUp (fd : ℕ) : List Callback := [.zfdRead fd (.error .eagain) (.bytes []) .wantRead]

/-- A webapp with one website hangs up. -/
def oneSite : List Callback :=
  connects 3 4 ++ starts 4 1 "http://a" "0.0.0.0" (.ok 5) ++ hangsUp 4

/-- A webapp with two hangs up. -/
def twoSites : List Callback :=
  connects 3 4 ++ starts 4 1 "http://a" "0.0.0.0" (.ok 5) ++
    starts 4 2 "http://b" "0.0.0.0" (.ok 6) ++ hangsUp 4

/-- The daemon at the start, after the callbacks, and after one more. -/
def replay (as : List Callback) (a : Callback) : Option (Daemon × Daemon × Daemon) :=
  (Daemon.start oneProxy .init).toOption.bind fun d₀ =>
    (run Daemon.step d₀ as).toOption.bind fun d => (d.step a).toOption.map fun d' => (d₀, d, d')

/-- What is read off a replay is true of the run. -/
theorem replay_map {β : Type} {as : List Callback} {a : Callback}
    {f : Daemon × Daemon × Daemon → β} {v : β} (h : (replay as a).map f = some v) :
    ∃ d₀ d d', Daemon.start oneProxy .init = .ok d₀ ∧ run Daemon.step d₀ as = .ok d ∧
      d.step a = .ok d' ∧ f (d₀, d, d') = v := by
  obtain ⟨⟨d₀, d, d'⟩, hr, hv⟩ := Option.map_eq_some_iff.1 h
  refine ⟨d₀, d, d', ?_⟩
  unfold replay at hr
  obtain ⟨x, hx, hr⟩ := Option.bind_eq_some_iff.1 hr
  obtain ⟨y, hy, hr⟩ := Option.bind_eq_some_iff.1 hr
  obtain ⟨z, hz, hr⟩ := Option.map_eq_some_iff.1 hr
  cases hr
  exact ⟨ok_of_toOption hx, ok_of_toOption hy, ok_of_toOption hz, hv⟩

theorem dead_link_one : ∃ d₀ d d', Daemon.start oneProxy .init = .ok d₀ ∧
    run Daemon.step d₀ oneSite = .ok d ∧ d.step (.zsRead 4 .wantRead []) = .ok d' ∧
    d.sitesOf 4 = 1 ∧ NoRefs d' 4 := by
  have hs : ((replay oneSite (.zsRead 4 .wantRead [])).map fun p =>
      (p.2.1.drops (.zsRead 4 .wantRead []), p.2.1.sitesOf 4)) = some (some 4, 1) := by
    decide +kernel
  obtain ⟨d₀, d, d', h₀, h, hc, hv⟩ := replay_map hs
  rw [Prod.mk.injEq] at hv
  exact ⟨d₀, d, d', h₀, h, hc, hv.2, (dead_link_iff h₀ h hv.1 hc).2 (Nat.le_of_eq hv.2)⟩

/-- The second website stays, with the number of a socket that is closed. -/
theorem dead_link_kept : ∃ d₀ d d', Daemon.start oneProxy .init = .ok d₀ ∧
    run Daemon.step d₀ twoSites = .ok d ∧ d.drops (.zsRead 4 .wantRead []) = some 4 ∧
    d.step (.zsRead 4 .wantRead []) = .ok d' ∧ (d'.zs.zsockets 4).isNone ∧ ¬NoRefs d' 4 := by
  have hs : ((replay twoSites (.zsRead 4 .wantRead [])).map fun p =>
      (p.2.1.drops (.zsRead 4 .wantRead []), p.2.2.websites.map Website.sockfd,
        (p.2.2.zs.zsockets 4).isNone)) = some (some 4, [4], true) := by
    decide +kernel
  obtain ⟨d₀, d, d', h₀, h, hc, hv⟩ := replay_map hs
  rw [Prod.mk.injEq, Prod.mk.injEq] at hv
  refine ⟨d₀, d, d', h₀, h, hv.1, hc, hv.2.2, fun hno => ?_⟩
  obtain ⟨site, hmem, he⟩ : ∃ site ∈ d'.websites, site.sockfd = 4 := by
    have hfd : (4 : ℕ) ∈ d'.websites.map Website.sockfd := by
      rw [hv.2.1]
      exact List.mem_singleton_self 4
    simpa using hfd
  exact hno.websites site hmem he

end Zimr
