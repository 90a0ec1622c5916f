import Zimr.Proof.Leaves

/-!
# A request, step by step

`exread` keeps the tables together: an error page ends with the connection, a msg is opened for a
connection that has none, and after that only what it passes on changes.
-/

namespace Zimr

open Run Seating Board

/-- Another record of the same connection. -/
structure ConnData.Same (conn q : ConnData) : Prop where
  websiteSockfd : q.websiteSockfd = conn.websiteSockfd
  msgid : q.msgid = conn.msgid
  exlisnfd : q.exlisnfd = conn.exlisnfd

namespace Daemon

variable {α : Type} {d d' d₁ d₂ : Daemon} {fd i c w j : ℕ} {conn q : ConnData} {sw sw' : MsgSwitch}
  {zs : Zs} {x : Option ℕ}

/-! ## Calls that leave the msgs alone -/

theorem SoundBut.tryKeeps {f : MsgSwitch → Except Fault (MsgSwitch × Except Errno α)} {a : Option α}
    (h : d.SoundBut x) (hf : ∀ sw sw' r, f sw = .ok (sw', r) → Keeps sw sw')
    (hc : d.tryMsg w f = .ok (d', a)) : d'.SoundBut x := by
  obtain ⟨-, rfl, -⟩ | ⟨sw, sw', r, hsw, hok, -, hr⟩ := tryMsg_ok hc
  · exact h
  · exact (h.lend hsw ((h.lent hsw).keeps (put_self _ _ _) (hf _ _ _ hok)) hr).1

theorem SoundBut.assertKeeps {f : MsgSwitch → Except Fault (MsgSwitch × α)} {a : α} (h : d.SoundBut x)
    (hf : ∀ sw sw' r, f sw = .ok (sw', r) → Keeps sw sw') (hc : d.assertMsg w f = .ok (d', a)) :
    d'.SoundBut x := by
  obtain ⟨sw, sw', hsw, hok, hr⟩ := assertMsg_ok hc
  exact (h.lend hsw ((h.lent hsw).keeps (put_self _ _ _) (hf _ _ _ hok)) hr).1

theorem SoundBut.msgWrites (bufs : List (List UInt8)) : ∀ (d d' : Daemon) (b : Bool), d.SoundBut x →
    d.msgWrites w j bufs = .ok (d', b) → d'.SoundBut x := by
  induction bufs with
  | nil =>
    intro d d' b h hc
    cases hc
    exact h
  | cons buf bufs ih =>
    intro d d' b h hc
    obtain ⟨⟨d₁, n⟩, h₁, hc⟩ := bind_inv hc
    have hs := h.tryKeeps (fun _ _ _ hok => msgWrite_keeps hok) h₁
    cases n with
    | none =>
      cases hc
      exact hs
    | some n => exact ih d₁ d' b hs hc

theorem SoundBut.read {n : ℕ} {a : RwRes} {r : Except SockErrno (List UInt8)} (h : d.SoundBut x)
    (hz : zsRead d.zs fd n a = .ok (zs, r)) : (d.setZs zs).SoundBut x :=
  h.lapse (zsRead_core hz) (zsRead_lapses hz) (h.ok.read hz)

/-! ## The record of a connection -/

theorem Based.setConn (h : d.Based) (hc : d.Has c conn) : (d.setConn c conn).Based := by
  refine ⟨h.seated.setConn hc, fun i k hn => h.still i k ?_, h.ok, h.paced⟩
  have hn : Function.update d.connections c (some conn) i = none := hn
  by_cases he : i = c
  · rw [he, Function.update_self] at hn
    cases hn
  · rwa [Function.update_of_ne he] at hn

theorem SoundBut.setConn (h : d.SoundBut x) (hc : d.connections c = some conn) (hs : conn.Same q) :
    (d.setConn c q).SoundBut x := by
  refine ⟨h.toBased.setConn ⟨conn, hc, fun hn => ⟨hs.websiteSockfd.symm.trans hn, hs.exlisnfd⟩⟩, ?_⟩
  exact h.joined.setConn hc hs.websiteSockfd hs.msgid

theorem setConn_entry (d : Daemon) (c : ℕ) (conn : ConnData) : (d.setConn c conn).connections c = some conn :=
  Function.update_self _ _ _

/-! ## Error pages -/

theorem SoundBut.refuse {page : Page} (h : d.SoundBut x) (hx : ∀ i, some i = x → i = c)
    (hc : d.refuse c page = .ok d') : d'.Sound := by
  obtain ⟨⟨d₁, n⟩, h₁, hc⟩ := bind_inv hc
  obtain ⟨zs, hz, rfl⟩ := callZs_ok h₁
  refine (h.write hx hz).cleanup (fun i hi => ?_) hc
  rw [Option.some.inj hi]

theorem Sound.refuse {page : Page} (h : d.Sound) (hc : d.refuse c page = .ok d') : d'.Sound :=
  SoundBut.refuse h (fun i hi => by cases hi) hc

/-- There is no msg 0, so nothing is closed for a connection whose msg is not open yet. -/
theorem cleanup_unopened (hn : conn.websiteSockfd = none) (hm : q.msgid = 0)
    (hc : (d.setConn c q).cleanupConnection c = .ok d') :
    (d.setConn c conn).cleanupConnection c = .ok d' := by
  obtain ⟨c', conn₀, d₁, zs, r, he, hlt, hconn, h₁, hz, rfl⟩ := cleanupConnection_ok hc
  obtain rfl := Int.ofNat.inj he
  obtain rfl := Option.some.inj ((setConn_entry d c q).symm.trans hconn)
  have hd₁ : d₁ = d.setConn c q := by
    unfold Daemon.closeMsg at h₁
    split at h₁
    · cases h₁
      rfl
    · obtain ⟨found, hfound, h₁⟩ := bind_inv h₁
      have : found = false := by
        unfold Daemon.msgExists at hfound
        split at hfound
        · cases hfound
        · cases hfound
          rw [hm]
          rfl
      subst this
      cases h₁
      rfl
  subst hd₁
  have hget : (d.setConn c conn).getConn c = .ok conn := by
    unfold Daemon.getConn
    rw [if_neg (by omega), Int.toNat_natCast, setConn_entry]
  have hclose : (d.setConn c conn).closeMsg conn = .ok (d.setConn c conn) := by
    unfold Daemon.closeMsg
    rw [hn]
  have hz : zsClose d.zs c = .ok (zs, r) := hz
  unfold Daemon.cleanupConnection
  simp only [hget, hclose, bind, Except.bind, Int.toNat_natCast]
  have hcall : (d.setConn c conn).callZs (zsClose (d.setConn c conn).zs c) =
      .ok ((d.setConn c conn).setZs zs, r) := by
    show (d.setConn c conn).callZs (zsClose d.zs c) = _
    rw [hz]
    rfl
  rw [hcall]
  have hconns : ∀ conn : ConnData, Function.update (d.setConn c conn).connections c none =
      Function.update d.connections c none := fun conn => Function.update_idem _ _ _
  show Except.ok _ = Except.ok _
  rw [hconns q]
  show Except.ok { (d.setConn c conn).setZs zs with
    connections := Function.update (d.setConn c conn).connections c none } = _
  rw [hconns conn]
  rfl

/-- The error page for a website of another address. -/
theorem Sound.refuse_unopened {page : Page} (h : d.Sound) (hconn : d.connections c = some conn)
    (hn : conn.websiteSockfd = none) (hm : q.msgid = 0)
    (hc : (d.setConn c q).refuse c page = .ok d') : d'.Sound := by
  obtain ⟨⟨d₁, n⟩, h₁, hc⟩ := bind_inv hc
  obtain ⟨zs, hz, rfl⟩ := callZs_ok h₁
  have hs := (SoundBut.write h (fun i hi => by cases hi) hz).setConn (q := conn) hconn ⟨rfl, rfl, rfl⟩
  exact hs.cleanup (fun i hi => by rw [Option.some.inj hi]) (cleanup_unopened hn hm hc)

/-! ## The request -/

theorem Sound.exreadBody {rest : List UInt8} (h : d.Sound) (hconn : d.connections c = some conn)
    (hw : conn.websiteSockfd = some w) (hc : d.exreadBody c w conn rest = .ok d') : d'.Sound := by
  obtain ⟨⟨d₁, ok⟩, h₁, hc⟩ := bind_inv hc
  have hs : d₁.Sound := SoundBut.msgWrites _ _ _ _ h h₁
  have hconn₁ : d₁.connections c = some conn := by
    rw [(msgWrites_tabs _ _ _ _ _ _ h₁).connections]
    exact hconn
  simp only at hc
  split at hc
  · exact hs.refuse hc
  split at hc
  · obtain ⟨⟨d₂, n⟩, h₂, hc⟩ := bind_inv hc
    obtain ⟨d₃, h₃, hc⟩ := bind_inv hc
    cases hc
    have hconn₂ : d₂.connections c = some conn := by
      rw [(tryMsg_tabs h₂).connections]
      exact hconn₁
    obtain ⟨zs, hz, rfl⟩ := callZs'_ok h₃
    have hs₂ := SoundBut.tryKeeps hs (fun _ _ _ hok => msgFlush_keeps hok) h₂
    exact (hs₂.setRead (placed_conn hconn₂) hz).setConn hconn₂ ⟨rfl, rfl, rfl⟩
  · obtain ⟨d₂, h₂, hc⟩ := bind_inv hc
    cases hc
    obtain ⟨sw, sw', hsw, hok, hr⟩ := assertMsg'_ok h₂
    -- the msg is in use
    have hj : (((d₁.boardBut none).put w (some (d₁.lent w sw))).put w (some sw')).Joined := by
      refine (SoundBut.lent hs hsw).setWrite (put_self _ _ _) (fun m hm => ?_) hok
      obtain ⟨sw₀, h₀, m₀, hm₀, hopen, hcon, -⟩ := hs.joined.carried c conn w hconn₁ hw
      obtain rfl := Option.some.inj (hsw.symm.trans h₀)
      obtain rfl := Option.some.inj (hm.symm.trans hm₀)
      exact ⟨hcon, hopen⟩
    have hconn₂ : d₂.connections c = some conn := by
      rw [(assertMsg'_tabs h₂).connections]
      exact hconn₁
    exact (SoundBut.lend hs hsw hj hr).1.setConn hconn₂ ⟨rfl, rfl, rfl⟩

/-- **A msg is opened for the client.** -/
theorem Sound.msgOpen {type : ℤ} (h : d.Sound) (hconn : d.connections c = some conn)
    (hn : conn.websiteSockfd = none) (hs : d.board.Hosted w) (hw : q.websiteSockfd = some w)
    (ht : type = c)
    (hc : (d.setConn c q).assertMsg w (fun sw => Zimr.msgOpen sw type) = .ok (d₁, j)) :
    (d₁.setConn c { q with msgid := j }).Sound := by
  subst ht
  obtain ⟨sw, sw', hsw, hok, hr⟩ := assertMsg_ok hc
  have hb : (d.setConn c q).Based :=
    h.toBased.setConn ⟨conn, hconn, fun hn' => by rw [hw] at hn'; cases hn'⟩
  obtain ⟨hb₁, hbo, -⟩ := hb.lend hsw hr
  have hb₂ : (d₁.setConn c { q with msgid := j }).Based := by
    refine hb₁.setConn ⟨q, ?_, fun hn' => by rw [hw] at hn'; cases hn'⟩
    rw [(assertMsg_tabs hc).connections]
    exact setConn_entry d c q
  refine hb₂.sound ?_
  have hsw : d.switches w = some sw := hsw
  have hj := (h.board.keeps hsw (lent_keeps d w sw)).opens (put_self _ _ _) (msgOpen_opens hok) hconn hn hs
    (q := { q with msgid := j }) hw rfl
  rw [put_put] at hj
  have he : (d₁.setConn c { q with msgid := j }).board =
      (d.board.put w (some sw')).link c (some { q with msgid := j }) := by
    show d₁.board.link c _ = _
    rw [hbo]
    show ((d.board.put w (some sw')).link c (some q)).link c _ = _
    unfold Board.link
    simp only [Function.update_idem]
  rw [he]
  exact hj

theorem Sound.exreadOpen {site : Website} {type : ReqType} {buffer : List UInt8} {hdrlen : ℕ} (h : d.Sound)
    (hconn : d.connections c = some conn) (hn : conn.websiteSockfd = none) (hs : site ∈ d.websites)
    (hw : q.websiteSockfd = some site.sockfd)
    (hc : (d.setConn c q).exreadOpen c site q type buffer hdrlen = .ok d') : d'.Sound := by
  obtain ⟨⟨d₁, msgid⟩, h₁, hc⟩ := bind_inv hc
  have hs₁ := h.msgOpen hconn hn ⟨site, hs, rfl⟩ hw rfl h₁
  obtain ⟨d₂, h₂, hc⟩ := bind_inv hc
  obtain ⟨zs, hz, rfl⟩ := callZs'_ok h₂
  have hconn₁ := setConn_entry d₁ c { q with msgid }
  have hs₂ := SoundBut.setWrite hs₁ (placed_conn hconn₁) hz
  obtain ⟨postlen, -, hc⟩ := bind_inv hc
  cases postlen with
  | none => exact Sound.refuse hs₂ hc
  | some postlen =>
    obtain ⟨⟨d₃, ok⟩, h₃, hc⟩ := bind_inv hc
    have hs₃ := hs₂.setConn (q := { q with msgid, postlen }) hconn₁ ⟨rfl, rfl, rfl⟩
    have hs₄ : d₃.Sound := SoundBut.msgWrites _ _ _ _ hs₃ h₃
    have hconn₄ : d₃.connections c = some { q with msgid, postlen } := by
      rw [(msgWrites_tabs _ _ _ _ _ _ h₃).connections]
      exact setConn_entry _ c _
    simp only at hc
    split at hc
    · exact hs₄.refuse hc
    · exact hs₄.exreadBody hconn₄ hw hc

theorem Sound.exreadHeader {buffer : List UInt8} (h : d.Sound) (hconn : d.connections c = some conn)
    (hn : conn.websiteSockfd = none) (hc : d.exreadHeader c conn buffer = .ok d') : d'.Sound := by
  have hm := h.joined.blank c conn hconn hn
  unfold Daemon.exreadHeader at hc
  split at hc
  · split at hc
    · exact h.refuse hc
    · obtain ⟨zs, hz, rfl⟩ := callZs'_ok hc
      exact SoundBut.setRead h (placed_conn hconn) hz
  split at hc
  · exact h.refuse hc
  rename_i type _
  have hs : (d.setConn c { conn with requestType := some type }).Sound :=
    SoundBut.setConn h hconn ⟨rfl, rfl, rfl⟩
  have hconn₁ := setConn_entry d c { conn with requestType := some type }
  obtain ⟨url, -, hc⟩ := bind_inv hc
  cases url with
  | none => exact hs.refuse hc
  | some url =>
    simp only at hc
    split at hc
    · cases hc
    split at hc
    · exact hs.refuse hc
    rename_i site hfind
    split at hc
    · exact hs.refuse_unopened hconn₁ hn (by exact hm) hc
    · exact hs.exreadOpen hconn₁ hn (websiteFind_mem hfind) rfl hc

theorem sockfd_of_get {sites : List Website} {site : Website} (h : websiteGetBySockfd sites w = some site) :
    site.sockfd = w := by
  have := List.find?_some h
  simpa using this

theorem Sound.exread {r : RwRes} (h : d.Sound) (hc : d.exread fd r = .ok d') : d'.Sound := by
  obtain ⟨conn, h₁, hc⟩ := bind_inv hc
  obtain ⟨c, he, -, hconn⟩ := getConn_ok h₁
  obtain rfl : fd = c := by omega
  obtain ⟨⟨d₁, got⟩, h₂, hc⟩ := bind_inv hc
  obtain ⟨zs, hz, rfl⟩ := callZs_ok h₂
  have hs : (d.setConn fd { conn with buffer := some (conn.buffer.getD []) }).Sound :=
    SoundBut.setConn h hconn ⟨rfl, rfl, rfl⟩
  have hs₁ : ((d.setConn fd { conn with buffer := some (conn.buffer.getD []) }).setZs zs).Sound :=
    SoundBut.read hs hz
  have hconn₁ := setConn_entry d fd { conn with buffer := some (conn.buffer.getD []) }
  cases got with
  | error e => exact hs₁.cleanup hc
  | ok bytes =>
    simp only at hc
    split at hc
    · exact hs₁.cleanup hc
    split at hc
    · cases hc
      exact hs₁
    have hs₂ := SoundBut.setConn (q := { conn with buffer := some (conn.buffer.getD [] ++ bytes) }) hs₁ hconn₁
      ⟨rfl, rfl, rfl⟩
    have hconn₂ := setConn_entry ((d.setConn fd { conn with buffer := some (conn.buffer.getD []) }).setZs zs) fd
      { conn with buffer := some (conn.buffer.getD [] ++ bytes) }
    split at hc
    · rename_i hn
      exact Sound.exreadHeader hs₂ hconn₂ hn hc
    · rename_i w hw
      split at hc
      · exact Sound.refuse hs₂ hc
      · rename_i site hsite
        rw [sockfd_of_get hsite] at hc
        exact Sound.exreadBody hs₂ hconn₂ hw hc

end Daemon

end Zimr
