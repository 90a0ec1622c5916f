import Zimr.Proof.Requests
import Zimr.Proof.Listened

/-!
# The daemon's tables through every callback

Every callback that takes no client for a listener, and reads no frame that a webapp would not send,
keeps the tables together (`Sound.step`).
-/

namespace Zimr

open Run Seating Board

namespace Daemon

variable {α : Type} {d d' d₁ d₂ : Daemon} {fd i c w j : ℕ} {conn : ConnData} {sw sw' : MsgSwitch} {zs : Zs}
  {k : SockCore} {m : Msg} {x : Option ℕ} {a : Callback}

theorem setZs_switch (h : (d.setZs zs).switches i = some sw) : d.switches i = some sw := by
  unfold setZs at h
  simp only at h
  split at h
  · exact h
  · cases h

/-! ## The data of a response -/

/-- The client of a msg in use, whoever asks. -/
theorem Sound.client (h : d.Sound) (hsw : d.switches w = some sw) (hm : sw.msgs j = some m)
    (hopen : m.status.closed = false) (ht : 0 ≤ m.type) :
    ∃ conn, d.connections m.type.toNat = some conn ∧ conn.websiteSockfd = some w ∧ conn.msgid = j :=
  (h.board.serves w sw hsw j).back m hm hopen ht

theorem Sound.active (h : d.Sound) (hsw : d.switches w = some sw)
    (ha : sw.activeReadFdSet j = true ∨ sw.activeWriteFdSet j = true) :
    ∃ m, sw.msgs j = some m ∧ m.status.connected = true ∧ m.status.closed = false :=
  (h.board.serves w sw hsw j).armed ha

/-- The socket that was written to belongs to no msg that is read from. -/
theorem SoundBut.settle (h : d.SoundBut (some c))
    (hn : ∀ w sw j m, d.switches w = some sw → sw.msgs j = some m → sw.activeReadFdSet j = true →
      0 ≤ m.type → m.type.toNat ≠ c) : d.Sound := by
  refine h.toBased.sound (h.joined.around (fun _ _ _ hh => hh) fun w sw j m conn hsw hm hr ht _ hf => ?_)
  exact hf.resolve_left fun he => hn w sw j m hsw hm hr ht (Option.some.inj he)

/-- **The data of a response goes to its client**, and its msg is not read from until the client takes
more. -/
theorem Sound.relay {type : ℤ} {buf : List UInt8} (h : d.Sound) (hsw : d.switches w = some sw)
    (hm : sw.msgs j = some m) (hopen : m.status.closed = false) (ht : m.type = type) (h0 : 0 ≤ type)
    (hr : sw.activeReadFdSet j = false) (hc : d.relay type buf = .ok d') : d'.Sound := by
  subst ht
  obtain ⟨conn, hconn, hw, hj⟩ := h.client hsw hm hopen h0
  obtain ⟨d₁, h₁, hc⟩ := bind_inv hc
  obtain ⟨zs₁, hz₁, rfl⟩ := callZs'_ok h₁
  have hs₁ := SoundBut.setWrite h (placed_conn hconn) hz₁
  obtain ⟨⟨d₂, n⟩, h₂, hc⟩ := bind_inv hc
  obtain ⟨zs₂, hz₂, rfl⟩ := callZs_ok h₂
  have hs₂ := hs₁.write (fun i hi => by cases hi) hz₂
  cases n with
  | error e =>
    refine hs₂.cleanup (fun i hi => ?_) hc
    rw [Option.some.inj hi]
    omega
  | ok n =>
    cases hc
    refine hs₂.settle fun v sv i m' hsv hm' hr' ht' he => ?_
    have hsv := setZs_switch (setZs_switch hsv)
    obtain ⟨m₁, hm₁, -, hopen'⟩ := h.active hsv (.inl hr')
    obtain rfl := Option.some.inj (hm'.symm.trans hm₁)
    obtain ⟨conn', hconn', hw', hj'⟩ := h.client hsv hm' hopen' ht'
    -- the client has one msg only
    rw [he, hconn] at hconn'
    cases hconn'
    rw [hw] at hw'
    cases hw'
    rw [hsw] at hsv
    cases hsv
    rw [← hj', hj, hr] at hr'
    cases hr'

/-! ## Commands -/

/-- The msg is a command that is in use, or gone. -/
def Command (d : Daemon) (w j : ℕ) : Prop :=
  ∀ sw m, d.switches w = some sw → sw.msgs j = some m → m.type < 0 ∧ m.status.connected = true

theorem Command.fewer (h : d.Command w j) (hs : ∀ sw, d'.switches w = some sw → d.switches w = some sw) :
    d'.Command w j := fun sw m hsw => h sw m (hs sw hsw)

theorem lend_switches {b : Bool} (h : d.Based) (hsw : d.switches w = some sw)
    (hr : (d.putSwitch w sw').rearm w b = .ok d') : d'.switches = Function.update d.switches w (some sw') :=
  congrArg Board.switches (h.lend hsw hr).2.1

theorem Command.lives {b : Bool} (hcmd : d.Command w j) (h : d.Sound) (hsw : d.switches w = some sw)
    (hl : Lives sw sw') (hr : (d.putSwitch w sw').rearm w b = .ok d') : d'.Command w j := by
  intro sw₁ m' h₁ hm'
  rw [lend_switches h.toBased hsw hr, Function.update_self] at h₁
  cases h₁
  cases hm : sw.msgs j with
  | none =>
    rw [hl.dead j hm] at hm'
    cases hm'
  | some m =>
    obtain ⟨m₁, hm₁, kept⟩ := hl.live j m hm
    obtain rfl := Option.some.inj (hm'.symm.trans hm₁)
    obtain ⟨ht, hcon⟩ := hcmd sw m hsw hm
    exact ⟨by rw [kept.type]; exact ht, kept.connected.trans hcon⟩

theorem Sound.msgClose {r : Option ℕ} (h : d.Sound) (hcmd : d.Command w j)
    (hc : d.tryMsg w (fun sw => Zimr.msgClose sw j) = .ok (d', r)) : d'.Sound := by
  obtain ⟨-, rfl, -⟩ | ⟨sw, sw', r', hsw, hok, -, hr⟩ := tryMsg_ok hc
  · exact h
  have hl := SoundBut.lent h hsw
  refine (SoundBut.lend h hsw ?_ hr).1
  obtain ⟨rfl, -⟩ | hcl := msgClose_cases hok
  · exact hl.keeps (put_self _ _ _) (.refl _)
  · exact hl.closes (put_self _ _ _) hcl fun m hm => hcmd sw m hsw hm

theorem listen_placed (hk : d.zs.core fd = some k) (ht : k.type = .listen) : d.Placed fd := by
  intro k' _ hk' ht'
  obtain rfl := Option.some.inj (hk.symm.trans hk')
  exact absurd (ht.symm.trans ht') (by decide)

/-- **`zsocket`** for a listener, when no client is taken for one. -/
theorem Sound.zsocket {addr : ℕ} {port : ℤ} {e : EventHdlr} {ssl : Bool} {kr : SockRes}
    {r : Except SockErrno ℕ} (h : d.Sound) (he : e ≠ .msgZsocket)
    (hlisten : ∀ i k, zsGetByInfo d.zs addr port = some i → d.zs.core i = some k → k.type = .listen)
    (hz : Zimr.zsocket d.zs addr port .listen e ssl kr = .ok (zs, r)) : (d.setZs zs).Sound := by
  obtain ⟨hs, -⟩ := h.seated.zsocket he hlisten hz
  have hg := zsocket_grows hz
  have hok := h.ok.zsocket hz
  obtain ⟨i, k, hi, hk, -, hcore⟩ | ⟨-, -, hcore⟩ | ⟨i, -, -, hk, hcore⟩ := zsocket_core hz
  · have ht := hlisten i k hi hk
    obtain ⟨hconn, hsw⟩ := h.seated.listen_none hk ht
    refine h.change_one hg hok hs hcore hconn hsw fun k₁ k₂ h₁ ht₁ _ _ => ?_
    cases h₁
    exact absurd (ht.symm.trans ht₁) (by decide)
  · refine h.change hg hok hs (fun c conn hconn => ?_) (fun i hi => ?_) fun i k k' hk ht he hk' => ?_
    · obtain ⟨k, hk, -⟩ := (h.seated.fits c).client conn hconn
      exact ⟨k, (congrFun hcore c).trans hk⟩
    · rw [hcore]
      exact h.seated.hosted hi
    · rw [hcore, hk'] at hk
      cases hk
      exact ⟨ht, he⟩
  · obtain ⟨hconn, hsw, -⟩ := h.seated.vacant hk
    have hsw : d.switches i = none := by simpa [seating] using hsw
    refine h.change_one hg hok hs hcore hconn hsw fun k₁ k₂ h₁ ht₁ _ _ => ?_
    cases h₁
    cases ht₁

/-- A website that is new in the list. -/
theorem Sound.addSite {site : Website} (h : d.Sound)
    (hs : ({ d with websites := d.websites ++ [site] } : Daemon).Seated False) :
    ({ d with websites := d.websites ++ [site] } : Daemon).Sound := by
  refine Based.sound ⟨hs, h.still, h.ok, h.paced⟩ ?_
  refine h.board.sites fun w sw _ hh => ?_
  obtain ⟨s, hmem, he⟩ := hh
  exact ⟨s, List.mem_append_left _ hmem, he⟩

theorem Sound.startWebsite {buf strerror text : List UInt8} {kr : SockRes} (h : d.Sound)
    (hlisten : websiteGetByFullUrl d.websites (cstr buf) (cstr (buf.drop ((cstr buf).length + 1))) = none →
      ∀ port i k, getPortFromUrl buf = .ok port →
        zsGetByInfo d.zs (inetAddr (cstr (buf.drop ((cstr buf).length + 1)))) port = some i →
        d.zs.core i = some k → k.type = .listen)
    (hc : d.startWebsite fd buf kr strerror = .ok (d', text)) :
    d'.Sound ∧ ∀ w sw, d'.switches w = some sw → d.switches w = some sw := by
  have hs := h.seated.startWebsite hlisten hc
  unfold Daemon.startWebsite at hc
  simp only at hc
  split at hc
  · cases hc
  split at hc
  · cases hc
    exact ⟨h, fun _ _ h => h⟩
  rename_i hnone
  have hnone : websiteGetByFullUrl d.websites (cstr buf) (cstr (buf.drop ((cstr buf).length + 1))) =
      none := by simpa using hnone
  obtain ⟨port, hport, hc⟩ := bind_inv hc
  obtain ⟨⟨d₁, r⟩, h₁, hc⟩ := bind_inv hc
  obtain ⟨zs, hz, rfl⟩ := callZs_ok h₁
  have hlisten := fun i k => hlisten hnone port i k hport
  have hs₁ := h.zsocket (by decide) hlisten hz
  obtain ⟨-, hnew⟩ := h.seated.zsocket (by decide) hlisten hz
  cases r with
  | error e =>
    obtain ⟨text', -, hc⟩ := bind_inv hc
    cases hc
    exact ⟨hs₁, fun _ _ => setZs_switch⟩
  | ok l =>
    obtain ⟨k, hk, ht, hn⟩ := hnew l rfl
    obtain ⟨site, hsite, hc⟩ := bind_inv hc
    obtain ⟨d₂, h₂, hc⟩ := bind_inv hc
    cases hc
    obtain ⟨zs₂, hz₂, rfl⟩ := callZs'_ok h₂
    obtain rfl := websiteAdd_exlisnfd hsite
    have hs₂ := hs₁.addSite (hs₁.seated.addSite hk ht hn)
    refine ⟨SoundBut.setRead hs₂ (listen_placed hk ht) hz₂, fun w sw hsw => ?_⟩
    exact setZs_switch (setZs_switch hsw)

theorem Sound.commandHandler {type : ℤ} {buf strerror : List UInt8} {kr : SockRes} (h : d.Sound)
    (hl : d.Linked fd) (hcmd : d.Command fd j)
    (hlisten : type = -1 →
      websiteGetByFullUrl d.websites (cstr buf) (cstr (buf.drop ((cstr buf).length + 1))) = none →
      ∀ port i k, getPortFromUrl buf = .ok port →
        zsGetByInfo d.zs (inetAddr (cstr (buf.drop ((cstr buf).length + 1)))) port = some i →
        d.zs.core i = some k → k.type = .listen)
    (hc : d.commandHandler fd j type buf kr strerror = .ok d') : d'.Sound := by
  unfold Daemon.commandHandler at hc
  split at hc
  · rename_i ht
    obtain ⟨⟨d₁, text⟩, h₁, hc⟩ := bind_inv hc
    obtain ⟨⟨d₂, n⟩, h₂, hc⟩ := bind_inv hc
    obtain ⟨⟨d₃, n'⟩, h₃, hc⟩ := bind_inv hc
    cases hc
    obtain ⟨hs₁, hsw⟩ := h.startWebsite (hlisten ht) h₁
    have hcmd₁ := hcmd.fewer fun sw => hsw fd sw
    have hs₂ : d₂.Sound := SoundBut.tryKeeps hs₁ (fun _ _ _ hok => msgWrite_keeps hok) h₂
    refine hs₂.msgClose ?_ h₃
    obtain ⟨-, rfl, -⟩ | ⟨sw, sw', r, hsw, hok, -, hr⟩ := tryMsg_ok h₂
    · exact hcmd₁
    · exact hcmd₁.lives hs₁ hsw ((lent_keeps d₁ fd sw).trans (msgWrite_keeps hok)).toLives hr
  split at hc
  · exact h.removeWebsite hl hc
  · cases hc
    exact h

/-! ## Msgs that are ready -/

/-- A msg that is read from is not armed any more, and otherwise what it was. -/
theorem Sound.taken {msgid : ℕ} {n : Option (List UInt8)} {type : ℤ} (h : d.Sound)
    (hsw : d.switches fd = some sw) (ha : sw.activeReadFdSet msgid = true)
    (h₁ : d.assertMsg' fd (fun sw => msgClrRead sw msgid) = .ok d₁)
    (h₂ : d₁.tryMsg fd (fun sw => msgRead sw msgid packDataSize) = .ok (d₂, n))
    (htype : d₂.msgGetType fd msgid = .ok type) : d₂.Sound ∧ ∃ sw₂ m, d₂.switches fd = some sw₂ ∧
      sw₂.msgs msgid = some m ∧ m.type = type ∧ m.status.connected = true ∧ m.status.closed = false ∧
      sw₂.activeReadFdSet msgid = false ∧ (0 ≤ type → d.zs.Free type.toNat) := by
  obtain ⟨m, hm, hcon, hopen⟩ := h.active hsw (.inl ha)
  have hid := (h.board.serves fd sw hsw msgid).id m hm
  obtain ⟨sw₀, sw₁, h₀, hok₁, hr₁⟩ := assertMsg'_ok h₁
  obtain rfl := Option.some.inj (hsw.symm.trans h₀)
  obtain ⟨hj₁, hoff⟩ := (SoundBut.lent h hsw).clrRead (put_self _ _ _) hok₁
  have hs₁ : d₁.Sound := (SoundBut.lend h hsw hj₁ hr₁).1
  have hsw₁ : d₁.switches fd = some sw₁ := by
    rw [lend_switches h.toBased hsw hr₁, Function.update_self]
  have hlive₁ := ((lent_keeps d fd sw).toLives.trans (msgClrRead_lives hok₁).2.1).live msgid m hm
  obtain ⟨m₁, hm₁, kept₁⟩ := hlive₁
  obtain ⟨hno, -⟩ | ⟨sw₀, sw₂, r, h₀, hok₂, -, hr₂⟩ := tryMsg_ok h₂
  · rw [hsw₁] at hno
    cases hno
  obtain rfl := Option.some.inj (hsw₁.symm.trans h₀)
  have hs₂ : d₂.Sound := SoundBut.tryKeeps hs₁ (fun _ _ _ hok => msgRead_keeps hok) h₂
  have hsw₂ : d₂.switches fd = some sw₂ := by
    rw [lend_switches hs₁.toBased hsw₁ hr₂, Function.update_self]
  have hk₂ := (lent_keeps d₁ fd sw₁).trans (msgRead_keeps hok₂)
  obtain ⟨m₂, hm₂, kept₂⟩ := hk₂.live msgid m₁ hm₁
  have kept := kept₁.trans kept₂
  have ht : m₂.type = type := by
    unfold msgGetType at htype
    simp only [hsw₂, msgGet_some hm₂ hid.2] at htype
    cases htype
    rfl
  refine ⟨hs₂, sw₂, m₂, hsw₂, hm₂, ht, kept.connected.trans hcon, kept.closed.trans hopen, ?_, fun h0 => ?_⟩
  · rw [hk₂.rd]
    exact hoff
  · rw [← ht, kept.type] at h0 ⊢
    exact (h.board.serves fd sw hsw msgid).paced m hm ha h0

/-- **A msg is read from**: a response is passed on, and a command is carried out. -/
theorem Sound.msgRead {msgid : ℕ} {stack strerror : List UInt8} {kr : SockRes} (h : d.Sound)
    (htk : d.takesClient (.msgRead fd msgid stack kr strerror) = false)
    (hc : d.step (.msgRead fd msgid stack kr strerror) = .ok d') : d'.Sound := by
  simp only [Daemon.step] at hc
  split at hc
  swap
  · cases hc
    exact h
  rename_i sw hsw
  split at hc
  swap
  · cases hc
    exact h
  rename_i hcond
  have hl : d.Linked fd := h.seated.linked (by rw [hsw]; rfl)
  obtain ⟨d₁, h₁, hc⟩ := bind_inv hc
  obtain ⟨⟨d₂, n⟩, h₂, hc⟩ := bind_inv hc
  obtain ⟨type, htype, hc⟩ := bind_inv hc
  have hq := (assertMsg'_quiet h₁).trans (tryMsg_quiet h₂)
  obtain ⟨hs₂, sw₂, m, hsw₂, hm, ht, hcon, hopen, hoff, -⟩ :=
    h.taken hsw (Bool.and_eq_true_iff.1 hcond).1 h₁ h₂ htype
  cases n with
  | none => exact hs₂.cleanup hc
  | some buf =>
    simp only at hc
    split at hc
    · exact hs₂.cleanup hc
    rename_i hbuf
    split at hc
    · rename_i hneg
      refine hs₂.commandHandler (hl.quiet hq) (fun sw m' hsw hm' => ?_) (fun ht1 hno port i k => ?_) hc
      · rw [hsw₂] at hsw
        cases hsw
        rw [hm] at hm'
        cases hm'
        exact ⟨by rw [ht]; exact hneg, hcon⟩
      · have hstart : d.starting (.msgRead fd msgid stack kr strerror) =
            some (d₂, (buf ++ stack.drop buf.length).take packDataSize) := by
          unfold starting
          simp only [hsw, hcond, if_true, h₁, h₂, htype, ht1, hbuf, ne_eq, not_false_eq_true, decide_true,
            Bool.and_self]
        exact takesClient_listen hstart htk hno
    · rename_i hneg
      exact hs₂.relay hsw₂ hm hopen ht (by omega) hoff hc

/-- **A msg is accepted** that a webapp has opened: it is a command. -/
theorem Sound.msgAcceptReady {msgid : ℕ} (h : d.Sound) (hsw : d.switches fd = some sw)
    (hm : sw.msgs msgid = some m) (hcon : m.status.connected = false)
    (hc : d.msgAcceptReady fd msgid = .ok d') : d'.Sound := by
  obtain ⟨⟨d₁, r⟩, h₁, hc⟩ := bind_inv hc
  obtain ⟨hno, -⟩ | ⟨sw₀, sw₁, r', h₀, hok₁, -, hr₁⟩ := tryMsg_ok h₁
  · rw [hsw] at hno
    cases hno
  obtain rfl := Option.some.inj (hsw.symm.trans h₀)
  obtain ⟨hj₁, hnew⟩ := (SoundBut.lent h hsw).accept (put_self _ _ _) hm hcon hok₁
  have hs₁ : d₁.Sound := (SoundBut.lend h hsw hj₁ hr₁).1
  have hsw₁ : d₁.switches fd = some sw₁ := by
    rw [lend_switches h.toBased hsw hr₁, Function.update_self]
  simp only at hc
  split at hc
  · cases hc
    exact hs₁
  obtain ⟨sw₀, sw₂, h₀, hok₂, hr₂⟩ := assertMsg'_ok hc
  obtain rfl := Option.some.inj (hsw₁.symm.trans h₀)
  have hj₁ := SoundBut.lent hs₁ hsw₁
  refine (SoundBut.lend hs₁ hsw₁ (hj₁.setRead (put_self _ _ _) (fun m' hm' => ?_) hok₂) hr₂).1
  obtain ⟨hcon', hopen, hneg⟩ := hnew m' hm'
  exact ⟨hcon', hopen, fun h0 => absurd hneg (by omega)⟩

theorem Sound.msgWriteReady {msgid : ℕ} (h : d.Sound) (hsw : d.switches fd = some sw)
    (ha : sw.activeWriteFdSet msgid = true) (hc : d.msgWriteReady fd msgid = .ok d') : d'.Sound := by
  obtain ⟨m, hm, -, hopen⟩ := h.active hsw (.inr ha)
  obtain ⟨type, htype, hc⟩ := bind_inv hc
  have ht : m.type = type := by
    unfold msgGetType at htype
    simp only [hsw, msgGet_some hm ((h.board.serves fd sw hsw msgid).id m hm).2] at htype
    cases htype
    rfl
  subst ht
  split at hc
  · cases hc
  rename_i h0
  obtain ⟨conn, hconn, -⟩ := h.client hsw hm hopen (by omega)
  obtain ⟨d₁, h₁, hc⟩ := bind_inv hc
  obtain ⟨zs, hz, rfl⟩ := callZs'_ok h₁
  have hs₁ := SoundBut.setRead h (placed_conn hconn) hz
  obtain ⟨sw₁, sw₂, hsw₁, hok, hr⟩ := assertMsg'_ok hc
  exact (SoundBut.lend hs₁ hsw₁ ((SoundBut.lent hs₁ hsw₁).clrWrite (put_self _ _ _) hok) hr).1

/-! ## Sockets that are ready -/

/-- **The client takes more**: its msg is read from again. -/
theorem Sound.exsockWrite {z : Zsocket} (h : d.Sound) (hz : d.zs.zsockets fd = some z)
    (hwr : z.status.writable = true) (hc : d.exsockWrite fd = .ok d') : d'.Sound := by
  have hfree : d.zs.Free fd := ⟨z, hz, hwr, (h.paced fd z hz).writable hwr⟩
  obtain ⟨d₁, h₁, hc⟩ := bind_inv hc
  obtain ⟨zs, hzs, rfl⟩ := callZs'_ok h₁
  have hs₁ := SoundBut.clrWrite h hzs
  obtain ⟨conn, hget, hc⟩ := bind_inv hc
  obtain ⟨c, he, -, hconn⟩ := getConn_ok hget
  obtain rfl : fd = c := by omega
  split at hc
  · cases hc
  rename_i w hw
  obtain ⟨sw, sw', hsw, hok, hr⟩ := assertMsg'_ok hc
  refine (SoundBut.lend hs₁ hsw ((SoundBut.lent hs₁ hsw).setRead (put_self _ _ _) (fun m hm => ?_) hok) hr).1
  obtain ⟨sw₀, h₀, m₀, hm₀, hopen, hcon, ht⟩ := hs₁.joined.carried fd conn w hconn hw
  obtain rfl := Option.some.inj (hsw.symm.trans h₀)
  obtain rfl := Option.some.inj (hm.symm.trans hm₀)
  refine ⟨hcon, hopen, fun _ => .inr ?_⟩
  rw [ht, Int.toNat_natCast]
  exact hfree.congr (zsClrWrite_eq hzs).1

/-- The socket of a webapp is written to: it is no client's. -/
theorem Sound.wrote {buf : List UInt8} {r : Except SockErrno ℕ} (h : d.Sound) (hl : d.Linked fd)
    (hz : Zimr.zsWrite d.zs fd buf = .ok (zs, r)) : (d.setZs zs).Sound := by
  refine (SoundBut.write h (fun i hi => by cases hi) hz).settle fun w sw j m hsw hm hr ht he => ?_
  have hsw := setZs_switch hsw
  obtain ⟨m₁, hm₁, -, hopen⟩ := h.active hsw (.inl hr)
  obtain rfl := Option.some.inj (hm.symm.trans hm₁)
  obtain ⟨conn, hconn, -⟩ := h.client hsw hm hopen ht
  rw [he, h.seated.linked_none hl] at hconn
  cases hconn

theorem Sound.switchWrite (h : d.Sound) (hl : d.Linked fd) (hc : d.switchWrite fd = .ok d') : d'.Sound := by
  obtain ⟨⟨d₁, frame⟩, h₁, hc⟩ := bind_inv hc
  have hs₁ : d₁.Sound := SoundBut.assertKeeps h (fun _ _ _ hok => msgSwitchWrite_keeps hok) h₁
  have hl₁ := hl.quiet (assertMsg_quiet h₁)
  obtain ⟨⟨d₂, n⟩, h₂, hc⟩ := bind_inv hc
  obtain ⟨zs, hz, rfl⟩ := callZs_ok h₂
  have hs₂ := hs₁.wrote hl₁ hz
  cases n with
  | error e => exact hs₂.switchFailed (hl₁.quiet (setZs_quiet (zsWrite_core hz))) hc
  | ok n =>
    cases hc
    exact hs₂

theorem Sound.switchRead {r : RwRes} {frames : List Frame} (h : d.Sound) (hl : d.Linked fd)
    (hun : ∀ zs bytes, Zimr.zsRead d.zs fd 1024 r = .ok (zs, .ok bytes) → bytes ≠ [] → ∀ sw,
      (d.setZs zs).switches fd = some sw → MsgSwitch.strayFrames frames ((d.setZs zs).lent fd sw) = false)
    (hc : d.switchRead fd r frames = .ok d') : d'.Sound := by
  unfold Daemon.switchRead at hc
  split at hc
  · cases hc
  obtain ⟨⟨d₁, got⟩, h₁, hc⟩ := bind_inv hc
  obtain ⟨zs, hz, rfl⟩ := callZs_ok h₁
  have hs₁ := SoundBut.read h hz
  have hl₁ := hl.quiet (setZs_quiet (zsRead_core hz))
  cases got with
  | error e => exact Sound.switchFailed hs₁ hl₁ hc
  | ok bytes =>
    simp only at hc
    split at hc
    · exact Sound.switchFailed hs₁ hl₁ hc
    rename_i hb
    obtain ⟨sw, sw', hsw, hok, hr⟩ := assertMsg'_ok hc
    have hstray := hun zs bytes hz hb sw hsw
    exact (SoundBut.lend hs₁ hsw
      (Joined.frames frames _ _ (SoundBut.lent hs₁ hsw) (put_self _ _ _) hstray hok) hr).1

/-! ## Connections that come -/

/-- **`zs_accept`** leaves every socket open. -/
theorem Sound.fetch {z : Zsocket} {r : Except SockErrno (Option ℕ)} (h : d.Sound)
    (hz : d.zs.zsockets fd = some z) (hc : zsAccept d.zs fd = .ok (zs, r)) : (d.setZs zs).Sound := by
  have hs := (h.seated.fetch hz hc).1
  have hk := core_some hz
  obtain ⟨rfl, -⟩ | ⟨ht, -, hcore⟩ := zsAccept_core hz hc
  · exact SoundBut.lapse h rfl (.refl _) h.ok
  · obtain ⟨hconn, hsw⟩ := h.seated.listen_none hk ht
    refine h.change_one (zsAccept_lapses hc).grows (h.ok.accept hc) hs hcore hconn hsw
      fun k₁ k₂ h₁ ht₁ _ _ => ?_
    cases h₁
    exact absurd (ht.symm.trans ht₁) (by decide)

/-- **A webapp gets its switch.** -/
theorem Sound.msgSwitchCreate {e : EventHdlr} (h : d.Sound) (hw : Waits e (d.zs.core c))
    (hn : d.connections c = none) (hfree : ∀ l e, ¬(d.seating False).Holds l c e)
    (hc : d.msgSwitchCreate c = .ok d') : d'.Sound := by
  have hs := h.seated.msgSwitchCreate hw hn hfree hc
  unfold Daemon.msgSwitchCreate at hc
  split at hc
  · cases hc
    exact h
  rename_i hcond
  have hsw : d.switches c = none := by
    rw [Bool.or_eq_true, not_or] at hcond
    simpa using hcond.1
  obtain ⟨d₁, h₁, hc⟩ := bind_inv hc
  obtain ⟨zs₁, hz₁, rfl⟩ := callZs'_ok h₁
  obtain ⟨hseat, k, hcore, hwk⟩ := h.seated.setEventHdlr hw hn hfree hz₁
  have hok : ZsOK zs₁ := by
    obtain ⟨z, hz, h'⟩ := zs_bind_ok hz₁
    cases h'
    exact h.ok.set_same (assertSock_ok hz) rfl rfl
  have hs₁ : (d.setZs zs₁).Sound := by
    refine h.change_one (zsSetEventHdlr_lapses hz₁).grows hok hseat hcore hn hsw fun k₁ k₂ h₁ _ he _ => ?_
    cases h₁
    have he := hwk.eventHdlr.symm.trans he
    cases he
  have hl₁ : (d.setZs zs₁).Linked c := ⟨k, by show zs₁.core c = _; rw [hcore, Function.update_self], hwk⟩
  obtain ⟨d₂, h₂, hc⟩ := bind_inv hc
  obtain ⟨zs₂, hz₂, rfl⟩ := callZs'_ok h₂
  have hs₂ := SoundBut.setRead hs₁ hl₁.placed hz₂
  cases hc
  have hsw₂ : ((d.setZs zs₁).setZs zs₂).switches c = none := by
    cases hsw₂ : ((d.setZs zs₁).setZs zs₂).switches c with
    | none => rfl
    | some sw =>
      rw [setZs_switch (setZs_switch hsw₂)] at hsw
      cases hsw
  have hb : ((d.setZs zs₁).setZs zs₂).Based := hs₂.toBased
  refine Based.sound ⟨hs, hb.still, hb.ok, hb.paced⟩ ?_
  exact (Sound.board hs₂).create hsw₂

theorem Sound.insockAccept {z : Zsocket} (h : d.Sound) (hz : d.zs.zsockets fd = some z)
    (hc : d.insockAccept fd = .ok d') : d'.Sound := by
  obtain ⟨⟨d₁, newfd⟩, h₁, hc⟩ := bind_inv hc
  obtain ⟨zs, hzs, rfl⟩ := callZs_ok h₁
  have hs := h.fetch hz hzs
  obtain ⟨-, hnew⟩ := h.seated.fetch hz hzs
  simp only at hc
  split at hc
  · rename_i c
    obtain ⟨-, hnone, hwait, hfree⟩ := hnew c rfl
    exact hs.msgSwitchCreate hwait hnone hfree hc
  · cases hc
    exact hs

theorem Sound.exsockAccept {z : Zsocket} (h : d.Sound) (hz : d.zs.zsockets fd = some z)
    (hh : z.eventHdlr = .exsock) (hc : d.exsockAccept fd = .ok d') : d'.Sound := by
  obtain ⟨⟨d₁, newfd⟩, h₁, hc⟩ := bind_inv hc
  obtain ⟨zs, hzs, rfl⟩ := callZs_ok h₁
  have hs := h.fetch hz hzs
  obtain ⟨-, hnew⟩ := h.seated.fetch hz hzs
  simp only at hc
  split at hc
  swap
  · cases hc
    exact hs
  rename_i c
  obtain ⟨⟨kl, hkl, htl⟩, hnone, ⟨k, hk, ht, hcl, he⟩, hfree⟩ := hnew c rfl
  split at hc
  · cases hc
  split at hc
  swap
  · cases hc
  rename_i child exlisn _ _
  obtain ⟨zs₂, hz₂, rfl⟩ := callZs'_ok hc
  have hs₂ : ((d.setZs zs).setConn c { exlisnfd := fd, addr := child.addr, isHttps := exlisn.ssl }).Sound := by
    refine Based.sound ⟨?_, fun i k hn => hs.still i k ?_, hs.ok, hs.paced⟩ ?_
    · exact hs.seated.addConn hk ⟨ht, he.trans hh, hcl⟩ hfree rfl hkl htl
    · have hn : Function.update d.connections c _ i = none := hn
      by_cases hi : i = c
      · rw [hi, Function.update_self] at hn
        cases hn
      · rwa [Function.update_of_ne hi] at hn
    · exact hs.board.addConn hnone rfl rfl
  exact SoundBut.setRead hs₂ (placed_conn (setConn_entry _ _ _)) hz₂

/-! ## The callbacks of `zfd_select` -/

/-- A connection whose close was put off is gone. -/
theorem Sound.ends (h : d.Sound) (hg : d.zs.Grows zs) (hok : ZsOK zs) (hs : (d.setZs zs).Seated False)
    (he : d.zs.Ends zs fd) : (d.setZs zs).Sound := by
  obtain hcore | ⟨k, hk, ht, hcl, hcore⟩ := he
  · refine h.change hg hok hs (fun c conn hconn => ?_) (fun i hi => ?_) fun i k k' hk ht he hk' => ?_
    · obtain ⟨k, hk, -⟩ := (h.seated.fits c).client conn hconn
      exact ⟨k, (congrFun hcore c).trans hk⟩
    · rw [hcore]
      exact h.seated.hosted hi
    · rw [hcore, hk'] at hk
      cases hk
      exact ⟨ht, he⟩
  · have hconn : d.connections fd = none := by
      cases hconn : d.connections fd with
      | none => rfl
      | some conn =>
        obtain ⟨k', hk', hck⟩ := (h.seated.fits fd).client conn hconn
        obtain rfl := Option.some.inj (hk.symm.trans hk')
        exact absurd (hcl.symm.trans hck.closed) (by decide)
    have hsw : d.switches fd = none := by
      cases hsw : d.switches fd with
      | none => rfl
      | some sw =>
        have hl : d.Linked fd := h.seated.linked (by rw [hsw]; rfl)
        obtain ⟨k', hk', hw⟩ := hl
        obtain rfl := Option.some.inj (hk.symm.trans hk')
        exact absurd (hcl.symm.trans hw.closed) (by decide)
    refine h.change_one hg hok hs hcore hconn hsw fun k₁ _ h₁ => ?_
    cases h₁

theorem Sound.zfdRead {accept : Except SockErrno (ℕ × ℕ)} {r₁ r₂ : RwRes} (h : d.Sound)
    (hc : d.callZs' (d.zs.step (.zfdRead fd accept r₁ r₂)) = .ok d') : d'.Sound := by
  have hs := h.seated.zfdRead hc
  obtain ⟨zs, hz, rfl⟩ := callZs'_ok hc
  have hg := zfdRead_grows hz
  have hok := h.ok.step _ hz
  obtain he | ⟨k, hk, hkeep⟩ := zfdRead_core hz
  · exact h.ends hg hok hs he
  -- every socket stays open
  have hopen : ∀ i k₀, d.zs.core i = some k₀ →
      ∃ k', zs.core i = some k' ∧ k'.type = k₀.type ∧ k'.eventHdlr = k₀.eventHdlr := by
    intro i k₀ hi
    by_cases hfd : i = fd
    · subst hfd
      obtain rfl := Option.some.inj (hk.symm.trans hi)
      obtain hcore | ⟨new, ha⟩ := hkeep
      · refine ⟨{ k with acceptedFd := none }, ?_, rfl, rfl⟩
        rw [hcore, Function.update_self]
      · have hne : i ≠ new := by
          rintro rfl
          rw [ha.fresh] at hk
          cases hk
        refine ⟨{ k with acceptedFd := some new }, ?_, rfl, rfl⟩
        rw [ha.core, Function.update_of_ne hne, Function.update_self]
    · obtain hcore | ⟨new, ha⟩ := hkeep
      · exact ⟨k₀, by rw [hcore, Function.update_of_ne hfd]; exact hi, rfl, rfl⟩
      · have hne : i ≠ new := by
          rintro rfl
          rw [ha.fresh] at hi
          cases hi
        exact ⟨k₀, by rw [ha.core, Function.update_of_ne hne, Function.update_of_ne hfd]; exact hi, rfl, rfl⟩
  refine h.change hg hok hs (fun c conn hconn => ?_) (fun i hi => ?_) fun i k₁ k₂ h₁ ht he h₂ => ?_
  · obtain ⟨k₀, hk₀, -⟩ := (h.seated.fits c).client conn hconn
    obtain ⟨k', hk', -⟩ := hopen c k₀ hk₀
    exact ⟨k', hk'⟩
  · obtain ⟨k₀, hk₀⟩ := h.seated.hosted hi
    obtain ⟨k', hk', -⟩ := hopen i k₀ hk₀
    exact ⟨k', hk'⟩
  · obtain ⟨k', hk', hty, hev⟩ := hopen i k₂ h₂
    obtain rfl := Option.some.inj (h₁.symm.trans hk')
    exact ⟨hty.symm.trans ht, hev.symm.trans he⟩

theorem Sound.zfdWrite {r₁ r₂ : RwRes} (h : d.Sound)
    (hc : d.callZs' (d.zs.step (.zfdWrite fd r₁ r₂)) = .ok d') : d'.Sound := by
  have hs := h.seated.zfdWrite hc
  obtain ⟨zs, hz, rfl⟩ := callZs'_ok hc
  exact h.ends (zfdWrite_grows hz) (h.ok.step _ hz) hs (zfdWrite_core hz)

end Daemon

end Zimr
