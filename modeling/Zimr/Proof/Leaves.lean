import Zimr.Proof.Sound

/-!
# Connections and websites that go

A connection goes with its msg and with its socket (`SoundBut.cleanup`), a website with its connections
and its switch (`Sound.removeWebsite`).
-/

namespace Zimr

open Run Seating Board

namespace Daemon

variable {α : Type} {d d' d₁ d₂ : Daemon} {fd i c w j : ℕ} {conn : ConnData} {sw sw' : MsgSwitch} {zs : Zs}
  {k : SockCore} {x : Option ℕ}

theorem msgGet_some {m : Msg} (hm : sw.msgs j = some m) (hj : 1 ≤ j) : msgGet sw (j : ℤ) = some m := by
  unfold msgGet
  rw [if_neg (by omega), if_pos (by omega), Int.toNat_natCast]
  exact hm

/-- The first half of `cleanup_connection`. -/
theorem SoundBut.closeMsg (h : d.SoundBut x) (hconn : d.connections c = some conn)
    (hc : d.closeMsg conn = .ok d₁) : d₁.Based ∧ d₁.connections = d.connections ∧
      d₁.zs.zsockets = d.zs.zsockets ∧ ∀ free : ℕ → Prop, (∀ i, i ≠ c → (d.boardBut x).free i → free i) →
        ({ d₁.board.link c none with free } : Board).Joined := by
  have hcon := (closeMsg_tabs hc).connections
  unfold Daemon.closeMsg at hc
  split at hc
  · rename_i hn
    cases hc
    exact ⟨h.toBased, rfl, rfl, fun free hf => h.joined.unlink hconn hn hf⟩
  rename_i w hw
  obtain ⟨sw, hsw, m, hm, hopen, -⟩ := h.joined.carried c conn w hconn hw
  have hsw : d.switches w = some sw := hsw
  obtain ⟨found, h₁, hc⟩ := bind_inv hc
  have hfound : found = true := by
    have hid := (h.joined.serves w sw hsw conn.msgid).id m hm
    unfold Daemon.msgExists at h₁
    rw [hsw] at h₁
    simp only [msgGet_some hm hid.2] at h₁
    cases h₁
    rfl
  subst hfound
  obtain ⟨⟨d₂, r⟩, h₂, hc⟩ := bind_inv hc
  cases hc
  obtain ⟨hno, -⟩ | ⟨sw₀, sw', r', h₀, hf, -, hr⟩ := tryMsg_ok h₂
  · rw [hsw] at hno
    cases hno
  obtain rfl := Option.some.inj (hsw.symm.trans h₀)
  obtain ⟨hb, hbo, hz⟩ := h.toBased.lend hsw hr
  refine ⟨hb, hcon, hz, fun free hfree => ?_⟩
  obtain ⟨-, hcl⟩ | hcl := msgClose_cases hf
  · rw [hcl m hm] at hopen
    cases hopen
  have hj := (h.lent hsw).release (put_self _ _ _) hcl hconn hw hfree
  rw [put_put] at hj
  rw [hbo]
  exact hj

/-- The second half. -/
theorem Based.shut {r : Except SockErrno ℕ} (h : d.Based) (hconn : d.connections c = some conn)
    (hz : zsClose d.zs c = .ok (zs, r))
    (hs : ({ d.setZs zs with connections := Function.update d.connections c none } : Daemon).Seated False) :
    ({ d.setZs zs with connections := Function.update d.connections c none } : Daemon).Based ∧
      ({ d.setZs zs with connections := Function.update d.connections c none } : Daemon).board =
        { d.board.link c none with free := zs.Free } ∧ ∀ i, i ≠ c → d.zs.Free i → zs.Free i := by
  obtain ⟨hl, hquiet⟩ := zsClose_lapses hz
  obtain ⟨k, hk, hck⟩ := (h.seated.fits c).client conn hconn
  obtain ⟨y, -, hcore⟩ := zsClose_connect hk hck.type hz
  have hother : ∀ i, i ≠ c → zs.core i = d.zs.core i := fun i hi => by rw [hcore, Function.update_of_ne hi]
  refine ⟨⟨hs, fun i k' hn hk' ht he ha => ?_, h.ok.close hz, hl.paced h.paced⟩, ?_, fun i hi hf => ?_⟩
  · by_cases hi : i = c
    · subst hi
      obtain ⟨z, hz', rfl⟩ := of_core hk
      exact hquiet z hz' hck.type ha
    · have hn : Function.update d.connections c none i = none := hn
      rw [Function.update_of_ne hi] at hn
      exact h.still i k' hn ((hother i hi).symm.trans hk') ht he (hl.armed i ha)
  · have hb : (d.setZs zs).board = { d.board with free := zs.Free } := setZs_board fun i hi => by
      have hne : i ≠ c := by
        rintro rfl
        have hno := h.seated.webapp_none hi
        rw [show (d.seating False).connections i = d.connections i from rfl, hconn] at hno
        cases hno
      exact core_isSome (by rw [hother i hne]; exact h.seated.hosted hi)
    have hsw : (d.setZs zs).switches = d.switches := congrArg Board.switches hb
    unfold Daemon.board link
    rw [hsw]
    rfl
  · exact grows_free hl.grows (hother i hi) hf

/-- **`cleanup_connection`.** -/
theorem SoundBut.cleanup {t : ℤ} (h : d.SoundBut x) (hx : ∀ i, some i = x → (i : ℤ) = t)
    (hc : d.cleanupConnection t = .ok d') : d'.Sound := by
  have hs := (h.seated.cleanup hc).1
  obtain ⟨c, conn, d₁, zs, r, rfl, -, hconn, hm, hz, rfl⟩ := cleanupConnection_ok hc
  obtain ⟨hb, hcon, hzs, hj⟩ := h.closeMsg hconn hm
  have hconn₁ : d₁.connections c = some conn := by rw [hcon]; exact hconn
  obtain ⟨hb', hbo, hfree⟩ := hb.shut hconn₁ hz hs
  refine hb'.sound ?_
  rw [hbo]
  refine hj zs.Free fun i hi hf => hfree i hi ?_
  obtain hf | hf := hf
  · exact absurd (Int.ofNat.inj (hx i hf)) hi
  · exact Zs.Free.congr hf hzs

theorem Sound.cleanup {t : ℤ} (h : d.Sound) (hc : d.cleanupConnection t = .ok d') : d'.Sound :=
  SoundBut.cleanup h (fun i hi => by cases hi) hc

/-! ## A change of the sockets -/

/-- The sockets of clients and webapps stay open, and no other one becomes a client's. -/
theorem Sound.change (h : d.Sound) (hg : d.zs.Grows zs) (hok : ZsOK zs) (hs : (d.setZs zs).Seated False)
    (hclient : ∀ c conn, d.connections c = some conn → ∃ k, zs.core c = some k)
    (hhost : ∀ i, (d.switches i).isSome → ∃ k, zs.core i = some k)
    (hkind : ∀ i k k', zs.core i = some k → k.type = .connect → k.eventHdlr = .exsock →
      d.zs.core i = some k' → k'.type = .connect ∧ k'.eventHdlr = .exsock) : (d.setZs zs).Sound := by
  have hb : (d.setZs zs).Based := by
    refine ⟨hs, fun i k hn hk ht he ha => ?_, hok, hg.paced h.paced⟩
    have ha := hg.armed i ha
    obtain ⟨z, hz⟩ := h.ok.armed i ha
    obtain ⟨ht', he'⟩ := hkind i k z.core hk ht he (core_some hz)
    exact h.still i z.core hn (core_some hz) ht' he' ha
  refine hb.sound ?_
  rw [setZs_board fun i hi => core_isSome (hhost i hi)]
  refine h.board.refree fun c conn hconn hf => ?_
  obtain hf' | hn := hg.free c hf
  · exact hf'
  · obtain ⟨k, hk⟩ := hclient c conn hconn
    rw [core_none.2 hn] at hk
    cases hk

/-- One socket that is no client's and has no switch, or none any more. -/
theorem Sound.change_one {y : Option SockCore} (h : d.Sound) (hg : d.zs.Grows zs) (hok : ZsOK zs)
    (hs : (d.setZs zs).Seated False) (hcore : zs.core = Function.update d.zs.core fd y)
    (hn : d.connections fd = none) (hsw : d.switches fd = none)
    (hkind : ∀ k k', y = some k → k.type = .connect → k.eventHdlr = .exsock → d.zs.core fd = some k' →
      k'.type = .connect ∧ k'.eventHdlr = .exsock) : (d.setZs zs).Sound := by
  have hother : ∀ i, i ≠ fd → zs.core i = d.zs.core i := fun i hi => by rw [hcore, Function.update_of_ne hi]
  refine h.change hg hok hs (fun c conn hconn => ?_) (fun i hi => ?_) fun i k k' hk ht he hk' => ?_
  · have hne : c ≠ fd := by
      rintro rfl
      rw [hn] at hconn
      cases hconn
    obtain ⟨k, hk, -⟩ := (h.seated.fits c).client conn hconn
    exact ⟨k, (hother c hne).trans hk⟩
  · have hne : i ≠ fd := by
      rintro rfl
      rw [hsw] at hi
      cases hi
    rw [hother i hne]
    exact h.seated.hosted hi
  · by_cases hi : i = fd
    · subst hi
      rw [hcore, Function.update_self] at hk
      exact hkind k k' hk ht he hk'
    · rw [hother i hi, hk'] at hk
      cases hk
      exact ⟨ht, he⟩

theorem Seated.listen_none {L : Prop} (h : d.Seated L) (hk : d.zs.core fd = some k) (ht : k.type = .listen) :
    d.connections fd = none ∧ d.switches fd = none := by
  constructor
  · cases hconn : d.connections fd with
    | none => rfl
    | some conn =>
      obtain ⟨k', hk', hck⟩ := (h.fits fd).client conn hconn
      obtain rfl := Option.some.inj (hk.symm.trans hk')
      exact absurd (ht.symm.trans hck.type) (by decide)
  · cases hsw : d.switches fd with
    | none => rfl
    | some sw =>
      have hl : d.Linked fd := h.linked (by rw [hsw]; rfl)
      obtain ⟨k', hk', hw⟩ := hl
      obtain rfl := Option.some.inj (hk.symm.trans hk')
      exact absurd (ht.symm.trans hw.type) (by decide)

/-! ## Webapps that go -/

/-- **`msg_switch_destroy`**, when no connection has a msg of the switch. -/
theorem Sound.destroy (h : d.Sound)
    (hn : ∀ c conn, d.connections c = some conn → conn.websiteSockfd ≠ some fd)
    (hc : d.msgSwitchDestroy fd = .ok d') : d'.Sound := by
  unfold Daemon.msgSwitchDestroy at hc
  split at hc
  · cases hc
    exact h
  split at hc
  · cases hc
  rename_i sw' _
  obtain ⟨d₁, h₁, hc⟩ := bind_inv hc
  have hq : Quiet d
      { d with switches := Function.update d.switches fd none, nSelectable := sw'.nSelectable } := by
    refine ⟨rfl, rfl, rfl, fun i hi => ?_⟩
    have hi : (Function.update d.switches fd none i).isSome := hi
    by_cases he : i = fd
    · rw [he, Function.update_self] at hi
      cases hi
    · rwa [Function.update_of_ne he] at hi
  have hs : ({ d with
      switches := Function.update d.switches fd none, nSelectable := sw'.nSelectable } : Daemon).Sound := by
    refine Based.sound ⟨h.seated.quiet hq, h.still, h.ok, h.paced⟩ ?_
    exact h.board.drop (w := fd) hn
  obtain ⟨zs₁, hz₁, rfl⟩ := callZs'_ok h₁
  obtain ⟨zs₂, hz₂, rfl⟩ := callZs'_ok hc
  exact SoundBut.clrWrite (SoundBut.clrRead hs hz₁) hz₂

/-- The socket of a webapp is closed, when its switch is gone. -/
theorem Sound.closeLink {r : Except SockErrno ℕ} (h : d.Sound) (hl : d.Linked fd) (hn : d.switches fd = none)
    (hc : zsClose d.zs fd = .ok (zs, r)) : (d.setZs zs).Sound := by
  have hs := h.seated.closeLink hl hn hc
  have hno := h.seated.linked_none hl
  obtain ⟨k, hk, hw⟩ := hl
  obtain ⟨y, hy, hcore⟩ := zsClose_connect hk hw.type hc
  refine h.change_one (zsClose_lapses hc).1.grows (h.ok.close hc) hs hcore hno hn fun k₁ k₂ h₁ _ he _ => ?_
  obtain rfl | rfl := hy
  · cases h₁
    have he := hw.eventHdlr.symm.trans he
    cases he
  · cases h₁

theorem Sound.cleanupWebsite (is : List ℕ) : ∀ d d' : Daemon, d.Sound →
    cleanupWebsite is d fd = .ok d' → d'.Sound := by
  induction is with
  | nil =>
    intro d d' h hc
    cases hc
    exact h
  | cons i is ih =>
    intro d d' h hc
    obtain ⟨d₁, h₁, hc⟩ := bind_inv hc
    refine ih d₁ d' ?_ hc
    split at h₁
    · exact h.cleanup h₁
    · cases h₁
      exact h

/-- **A website goes** with its connections, and with the switch and the socket of its webapp. -/
theorem Sound.removeWebsite (h : d.Sound) (hl : d.Linked fd) (hc : d.removeWebsite fd = .ok d') : d'.Sound := by
  have hs := h.seated.removeWebsite hl False.elim hc
  unfold Daemon.removeWebsite at hc
  cases hsite : websiteGetBySockfd d.websites fd with
  | none =>
    rw [hsite] at hc
    cases hc
    exact h
  | some site =>
    rw [hsite] at hc
    obtain ⟨d₁, h₁, hc⟩ := bind_inv hc
    obtain ⟨d₂, h₂, hc⟩ := bind_inv hc
    obtain ⟨⟨d₃, r₃⟩, h₃, hc⟩ := bind_inv hc
    obtain ⟨⟨d₄, r₄⟩, h₄, hc⟩ := bind_inv hc
    cases hc
    obtain ⟨zs₃, hz₃, rfl⟩ := callZs_ok h₃
    obtain ⟨zs₄, hz₄, rfl⟩ := callZs_ok h₄
    have hs₁ := Sound.cleanupWebsite _ _ _ h h₁
    obtain ⟨-, hcl⟩ := Seated.cleanupWebsite _ _ _ h.seated h₁
    obtain ⟨hsh, hno⟩ := cleanupWebsite_shrinks _ _ _ h₁
    have hs₂ : d₂.Sound := by
      refine hs₁.destroy (fun c conn hconn => hno c (List.mem_range.2 ?_) conn hconn) h₂
      obtain ⟨k, hk, -⟩ := (hs₁.seated.fits c).client conn hconn
      exact (hs₁.seated.fits c).small k hk
    have hsw := msgSwitchDestroy_none h₂
    have hl₂ := (hcl.linked h.seated hl).quiet (msgSwitchDestroy_quiet h₂)
    have hs₃ := hs₂.closeLink hl₂ hsw hz₃
    have hsites : d₂.websites = d.websites := by rw [(msgSwitchDestroy_tabs h₂).websites, hsh.websites]
    -- the listener of the website
    have hpos : 0 < ((d₂.setZs zs₃).seating False).usesOf site.exlisnfd := by
      refine List.countP_pos_iff.2 ⟨site, ?_, by simp⟩
      show site ∈ d₂.websites
      rw [hsites]
      exact List.mem_of_find?_eq_some hsite
    obtain ⟨k, hk, ht, -⟩ := (hs₃.seated.fits site.exlisnfd).site hpos
    obtain ⟨hconn, hsw'⟩ := hs₃.seated.listen_none hk ht
    have hsw₃ : (d₂.setZs zs₃).switches fd = none := by
      cases hsw' : (d₂.setZs zs₃).switches fd with
      | none => rfl
      | some sw =>
        have hi : ((d₂.setZs zs₃).switches fd).isSome := by rw [hsw']; rfl
        have hold := (setZs_switches hi).1
        rw [hsw] at hold
        cases hold
    have hs₄ : ({ d₂.setZs zs₃ with
        websites := d₂.websites.eraseP fun w => w.sockfd = fd } : Daemon).Sound := by
      refine Based.sound ⟨hs₃.seated.eraseSite _, hs₃.still, hs₃.ok, hs₃.paced⟩ ?_
      refine hs₃.board.sites fun w sw hw hh => ?_
      obtain ⟨s, hmem, he⟩ := hh
      refine ⟨s, (List.mem_eraseP_of_neg ?_).2 hmem, he⟩
      have hne : w ≠ fd := by
        rintro rfl
        have hw : (d₂.setZs zs₃).switches w = some sw := hw
        rw [hsw₃] at hw
        cases hw
      simpa [he] using hne
    obtain ⟨z, hz, rfl⟩ := of_core hk
    have hfinal : ∃ y, (∀ k', y = some k' → k'.type = .listen) ∧
        zs₄.core = Function.update zs₃.core site.exlisnfd y := by
      obtain ⟨-, -, hcore⟩ | ⟨-, -, hcore⟩ | ⟨hty, -⟩ | ⟨hty, -⟩ := zsClose_core hz hz₄
      · refine ⟨_, ?_, hcore⟩
        rintro k' ⟨⟩
        exact ht
      · refine ⟨_, ?_, hcore⟩
        rintro k' ⟨⟩
      · exact absurd (ht.symm.trans hty) (by decide)
      · exact absurd (ht.symm.trans hty) (by decide)
    obtain ⟨y, hy, hcore⟩ := hfinal
    refine hs₄.change_one (zsClose_lapses hz₄).1.grows (hs₄.ok.close hz₄) hs hcore hconn hsw'
      fun k₁ k₂ h₁ ht₁ _ _ => ?_
    exact absurd ((hy k₁ h₁).symm.trans ht₁) (by decide)

/-- A webapp without a website has no msg of a client. -/
theorem Sound.commands (h : d.Sound) (hn : websiteGetBySockfd d.websites fd = none)
    (hsw : d.switches fd = some sw) (m : Msg) (hm : sw.msgs j = some m) : m.type < 0 := by
  by_contra ht
  obtain ⟨site, hmem, he⟩ := (h.board.serves fd sw hsw j).site m hm (by omega)
  have hno := List.find?_eq_none.1 hn site hmem
  simp [he] at hno

theorem msgGetType_neg {msgid : ℕ} {type : ℤ}
    (hneg : ∀ sw j m, d.switches fd = some sw → sw.msgs j = some m → m.type < 0)
    (h : d.msgGetType fd msgid = .ok type) : type < 0 := by
  unfold msgGetType at h
  split at h
  · cases h
  rename_i sw hsw
  split at h
  · cases h
  rename_i m hm
  cases h
  unfold msgGet at hm
  split_ifs at hm
  exacts [hneg sw _ m hsw hm, hneg sw _ m hsw hm]

theorem cleanupMsgs_commands (hneg : ∀ sw j m, d.switches fd = some sw → sw.msgs j = some m → m.type < 0)
    (ns : List ℕ) : cleanupMsgs ns d fd = .ok d' → d' = d := by
  induction ns with
  | nil =>
    intro hc
    cases hc
    rfl
  | cons n ns ih =>
    intro hc
    obtain ⟨found, -, hc⟩ := bind_inv hc
    cases found with
    | false => exact ih hc
    | true =>
      obtain ⟨type, htype, hc⟩ := bind_inv hc
      obtain ⟨d₁, h₁, hc⟩ := bind_inv hc
      have hn := msgGetType_neg hneg htype
      rw [if_neg (by omega)] at h₁
      cases h₁
      exact ih hc

theorem Sound.ioError (h : d.Sound) (hl : d.Linked fd) (hc : d.ioError fd = .ok d') : d'.Sound := by
  unfold Daemon.ioError at hc
  split at hc
  · exact h.removeWebsite hl hc
  rename_i hn
  have hn : websiteGetBySockfd d.websites fd = none := by simpa using hn
  obtain ⟨d₁, h₁, hc⟩ := bind_inv hc
  obtain ⟨d₂, h₂, hc⟩ := bind_inv hc
  obtain ⟨⟨d₃, r⟩, h₃, hc⟩ := bind_inv hc
  cases hc
  obtain ⟨zs, hz, rfl⟩ := callZs_ok h₃
  obtain rfl := cleanupMsgs_commands (fun sw j m hsw hm => h.commands hn hsw m hm) _ h₁
  have hs₂ : d₂.Sound := by
    refine h.destroy (fun c conn hconn hw => ?_) h₂
    obtain ⟨sw, hsw, m, hm, -, -, ht⟩ := h.joined.carried c conn fd hconn hw
    have := h.commands hn hsw m hm
    omega
  exact hs₂.closeLink (hl.quiet (msgSwitchDestroy_quiet h₂)) (msgSwitchDestroy_none h₂) hz

/-- What `msg_switch_failed` does before the handler. -/
theorem Sound.failed (h : d.Sound) {d₃ : Daemon} (h₁ : d.callZs' (zsClrRead d.zs fd) = .ok d₁)
    (h₂ : d₁.callZs' (zsClrWrite d₁.zs fd) = .ok d₂)
    (h₃ : d₂.assertMsg' fd (fun sw => .ok (msgSwitchFailed sw)) = .ok d₃) : d₃.Sound ∧ Quiet d d₃ := by
  have hq := ((callZs'_quiet h₁ fun _ hz => zsClrRead_core hz).trans
    (callZs'_quiet h₂ fun _ hz => zsClrWrite_core hz)).trans (assertMsg'_quiet h₃)
  obtain ⟨zs₁, hz₁, rfl⟩ := callZs'_ok h₁
  obtain ⟨zs₂, hz₂, rfl⟩ := callZs'_ok h₂
  have hs₂ := SoundBut.clrWrite (SoundBut.clrRead h hz₁) hz₂
  obtain ⟨sw, sw', hsw, hok, hr⟩ := assertMsg'_ok h₃
  cases hok
  refine ⟨(SoundBut.lend hs₂ hsw ((hs₂.lent hsw).keeps (put_self _ _ _) ?_) hr).1, hq⟩
  exact .of_eq rfl rfl rfl

theorem Sound.switchFailed (h : d.Sound) (hl : d.Linked fd) (hc : d.switchFailed fd = .ok d') : d'.Sound := by
  obtain ⟨d₁, h₁, hc⟩ := bind_inv hc
  obtain ⟨d₂, h₂, hc⟩ := bind_inv hc
  obtain ⟨d₃, h₃, hc⟩ := bind_inv hc
  obtain ⟨hs, hq⟩ := h.failed h₁ h₂ h₃
  exact hs.ioError (hl.quiet hq) hc

end Daemon

end Zimr
