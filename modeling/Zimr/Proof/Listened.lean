import Zimr.Proof.Spares

/-!
# Listeners of connections without a website

* `Seated.step` — every callback that does not strand a client and takes no client for a listener keeps
  the sockets of the tables
* `live_listeners` — and then every connection without a website has an open listener
-/

namespace Zimr

open Run Seating

namespace Daemon

variable {d d' d₁ d₂ : Daemon} {fd : ℕ} {a : Callback}

theorem Seated.listened (h : d.Seated True) : d.Listened := by
  intro fd conn hc hn
  obtain ⟨k, hk, ht⟩ := (h.fits conn.exlisnfd).listened trivial fd conn hc hn rfl
  obtain ⟨zs, hz, rfl⟩ := of_core hk
  exact ⟨zs, hz, ht⟩

/-- The socket that `zs_get_by_info` answers is no connection. -/
theorem takesClient_listen {buf : List UInt8} (hs : d.starting a = some (d₂, buf))
    (ht : d.takesClient a = false)
    (hno : websiteGetByFullUrl d₂.websites (cstr buf) (cstr (buf.drop ((cstr buf).length + 1))) = none)
    {port : ℤ} {i : ℕ} {k : SockCore} (hport : getPortFromUrl buf = .ok port)
    (hi : zsGetByInfo d₂.zs (inetAddr (cstr (buf.drop ((cstr buf).length + 1)))) port = some i)
    (hk : d₂.zs.core i = some k) : k.type = .listen := by
  obtain ⟨zs, hz, rfl⟩ := of_core hk
  unfold takesClient at ht
  rw [hs] at ht
  simp only [hno, Option.isSome_none, Bool.false_eq_true, if_false, hport, hi, Option.bind_some, hz,
    decide_eq_false_iff_not] at ht
  show zs.type = .listen
  cases htype : zs.type with
  | listen => rfl
  | connect => exact absurd htype ht

theorem Seated.switchRead {r : RwRes} {frames : List Frame} (h : d.Seated L)
    (hst : L → ∀ zs, zsRead d.zs fd 1024 r = .ok (zs, .ok []) ∨ (∃ e, zsRead d.zs fd 1024 r = .ok (zs, .error e)) →
      d.strandsAt fd = false)
    (hc : d.switchRead fd r frames = .ok d') : d'.Seated L := by
  unfold Daemon.switchRead at hc
  split at hc
  · cases hc
  rename_i sw hsw
  have hl : d.Linked fd := h.linked (by rw [hsw]; rfl)
  obtain ⟨⟨d₁, got⟩, h₁, hc⟩ := bind_inv hc
  have hq := callZs_quiet h₁ fun _ hz => zsRead_core hz
  obtain ⟨zs, hz, rfl⟩ := callZs_ok h₁
  cases got with
  | error e =>
    exact (h.quiet hq).switchFailed (hl.quiet hq)
      (fun hL => (hq.strandsAt fd).trans (hst hL zs (Or.inr ⟨e, hz⟩))) hc
  | ok bytes =>
    simp only at hc
    split at hc
    · rename_i hb
      subst hb
      exact (h.quiet hq).switchFailed (hl.quiet hq)
        (fun hL => (hq.strandsAt fd).trans (hst hL zs (Or.inl hz))) hc
    · exact (h.quiet hq).quiet (assertMsg'_quiet hc)

theorem Seated.zsRead {r : RwRes} {frames : List Frame} (h : d.Seated L)
    (hst : L → d.strands (.zsRead fd r frames) = false) (hc : d.step (.zsRead fd r frames) = .ok d') :
    d'.Seated L := by
  simp only [Daemon.step] at hc
  split at hc
  swap
  · cases hc
    exact h
  rename_i zs hz
  split at hc
  swap
  · cases hc
    exact h
  rename_i hcond
  unfold zsReadReady at hc
  split at hc
  · exact h.insockAccept hz hc
  · rename_i hh _
    exact h.exsockAccept hz hh hc
  · obtain ⟨d₁, h₁, hc⟩ := bind_inv hc
    exact (h.quiet (callZs'_quiet h₁ fun _ hz => zsClrRead_core hz)).exread hc
  · rename_i hh ht
    refine h.switchRead (fun hL σ hσ => ?_) hc
    have hst := hst hL
    unfold strands drops at hst
    simp only [hz, hcond, hh, ht, decide_true, Bool.and_self, if_true] at hst
    rcases hσ with hσ | ⟨e, hσ⟩
    · simpa only [hσ, if_true, Option.any_some] using hst
    · simpa only [hσ, Option.any_some] using hst
  · cases hc
    exact h
  · cases hc
    exact h

theorem Seated.zsWrite (h : d.Seated L) (hst : L → d.strands (.zsWrite fd) = false)
    (hc : d.step (.zsWrite fd) = .ok d') : d'.Seated L := by
  simp only [Daemon.step] at hc
  split at hc
  swap
  · cases hc
    exact h
  rename_i zs hz
  split at hc
  swap
  · cases hc
    exact h
  rename_i hcond
  unfold zsWriteReady at hc
  split at hc
  · cases hc
  · cases hc
    exact h
  · obtain ⟨d₁, h₁, hc⟩ := bind_inv hc
    obtain ⟨conn, -, hc⟩ := bind_inv hc
    have hs₁ := h.quiet (callZs'_quiet h₁ fun _ hz => zsClrWrite_core hz)
    split at hc
    · cases hc
    · exact hs₁.quiet (assertMsg'_quiet hc)
  · rename_i ht hh
    obtain ⟨⟨d₁, frame⟩, h₁, hc⟩ := bind_inv hc
    have hl : d.Linked fd := by
      obtain ⟨sw, -, hsw, -⟩ := assertMsg_ok h₁
      exact h.linked (by rw [hsw]; rfl)
    obtain ⟨⟨d₂, n⟩, h₂, hc⟩ := bind_inv hc
    have hq := (assertMsg_quiet h₁).trans (callZs_quiet h₂ fun _ hz => zsWrite_core hz)
    obtain ⟨σ, hσ, rfl⟩ := callZs_ok h₂
    cases n with
    | ok n =>
      cases hc
      exact h.quiet hq
    | error e =>
      refine (h.quiet hq).switchFailed (hl.quiet hq) (fun hL => (hq.strandsAt fd).trans ?_) hc
      have hst := hst hL
      have hdrops : d.drops (.zsWrite fd) = some fd := by
        unfold drops
        simp only [hz, hcond, hh, ht, decide_true, Bool.and_self, if_true, h₁, hσ]
      unfold strands at hst
      simpa only [hdrops, Option.any_some] using hst

theorem Seated.commandHandler {msgid : ℕ} {type : ℤ} {buf strerror : List UInt8} {k : SockRes}
    (h : d.Seated L) (hl : d.Linked fd) (hst : L → type = -2 → d.strandsAt fd = false)
    (hlisten : type = -1 →
      websiteGetByFullUrl d.websites (cstr buf) (cstr (buf.drop ((cstr buf).length + 1))) = none →
      ∀ port i k, getPortFromUrl buf = .ok port →
        zsGetByInfo d.zs (inetAddr (cstr (buf.drop ((cstr buf).length + 1)))) port = some i →
        d.zs.core i = some k → k.type = .listen)
    (hc : d.commandHandler fd msgid type buf k strerror = .ok d') : d'.Seated L := by
  unfold Daemon.commandHandler at hc
  split at hc
  · rename_i ht
    obtain ⟨⟨d₁, text⟩, h₁, hc⟩ := bind_inv hc
    obtain ⟨⟨d₂, n⟩, h₂, hc⟩ := bind_inv hc
    obtain ⟨⟨d₃, n'⟩, h₃, hc⟩ := bind_inv hc
    cases hc
    exact ((h.startWebsite (hlisten ht) h₁).quiet (tryMsg_quiet h₂)).quiet (tryMsg_quiet h₃)
  split at hc
  · rename_i ht
    exact h.removeWebsite hl (fun hL => hst hL ht) hc
  · cases hc
    exact h

theorem Seated.msgRead {msgid : ℕ} {stack strerror : List UInt8} {k : SockRes} (h : d.Seated L)
    (hst : L → d.strands (.msgRead fd msgid stack k strerror) = false)
    (htk : d.takesClient (.msgRead fd msgid stack k strerror) = false)
    (hc : d.step (.msgRead fd msgid stack k strerror) = .ok d') : d'.Seated L := by
  simp only [Daemon.step] at hc
  split at hc
  swap
  · cases hc
    exact h
  rename_i sw hsw
  split at hc
  swap
  · cases hc
    exact h
  rename_i hcond
  have hl : d.Linked fd := h.linked (by rw [hsw]; rfl)
  obtain ⟨d₁, h₁, hc⟩ := bind_inv hc
  obtain ⟨⟨d₂, n⟩, h₂, hc⟩ := bind_inv hc
  obtain ⟨type, htype, hc⟩ := bind_inv hc
  have hq := (assertMsg'_quiet h₁).trans (tryMsg_quiet h₂)
  have hs := h.quiet hq
  cases n with
  | none => exact (hs.cleanup hc).1
  | some buf =>
    simp only at hc
    split at hc
    · exact (hs.cleanup hc).1
    rename_i hbuf
    split at hc
    swap
    · exact hs.relay hc
    refine hs.commandHandler (hl.quiet hq) (fun hL ht => (hq.strandsAt fd).trans ?_)
      (fun ht hno port i k' => ?_) hc
    · -- the stop command
      have hst := hst hL
      obtain ⟨sw₀, sw₁, h₀, hf₁, -⟩ := assertMsg'_ok h₁
      obtain rfl := Option.some.inj (hsw.symm.trans h₀)
      obtain ⟨msg, hmsg⟩ := Option.isSome_iff_exists.1 (msgClrRead_lives hf₁).1
      have hmsg : sw.msgs msgid = some msg := hmsg
      have hty : msg.type = -2 := (msgGetType_read hsw hmsg h₁ h₂ htype).symm.trans ht
      have hdrops : d.drops (.msgRead fd msgid stack k strerror) = some fd := by
        rw [hmsg, Option.all_some] at hcond
        unfold drops
        simp only [hsw, hmsg, hcond, hty, decide_true, Bool.and_self, if_true]
      unfold strands at hst
      simpa only [hdrops, Option.any_some] using hst
    · have hstart : d.starting (.msgRead fd msgid stack k strerror) =
          some (d₂, (buf ++ stack.drop buf.length).take packDataSize) := by
        unfold starting
        simp only [hsw, hcond, if_true, h₁, h₂, htype, ht, hbuf, ne_eq, not_false_eq_true, decide_true,
          Bool.and_self]
      exact takesClient_listen hstart htk hno

theorem Seated.msgAcceptReady {msgid : ℕ} (h : d.Seated L) (hc : d.msgAcceptReady fd msgid = .ok d') :
    d'.Seated L := by
  obtain ⟨⟨d₁, r⟩, h₁, hc⟩ := bind_inv hc
  have hs₁ := h.quiet (tryMsg_quiet h₁)
  simp only at hc
  split at hc
  · cases hc
    exact hs₁
  · exact hs₁.quiet (assertMsg'_quiet hc)

theorem Seated.msgWriteReady {msgid : ℕ} (h : d.Seated L) (hc : d.msgWriteReady fd msgid = .ok d') :
    d'.Seated L := by
  obtain ⟨type, -, hc⟩ := bind_inv hc
  split at hc
  · cases hc
  · obtain ⟨d₁, h₁, hc⟩ := bind_inv hc
    exact (h.quiet (callZs'_quiet h₁ fun _ hz => zsSetRead_core hz)).quiet (assertMsg'_quiet hc)

/-- **Every callback** that does neither keeps the sockets of the tables. -/
theorem Seated.step (h : d.Seated L) (hst : L → d.strands a = false) (htk : d.takesClient a = false)
    (hc : d.step a = .ok d') : d'.Seated L := by
  cases a with
  | zfdRead fd accept r₁ r₂ => exact h.zfdRead hc
  | zfdWrite fd r₁ r₂ => exact h.zfdWrite hc
  | zsRead fd r frames => exact h.zsRead hst hc
  | zsWrite fd => exact h.zsWrite hst hc
  | msgAccept fd msgid =>
    simp only [Daemon.step] at hc
    split at hc
    · split at hc
      · exact h.msgAcceptReady hc
      · cases hc
        exact h
    · cases hc
      exact h
  | msgRead fd msgid stack k strerror => exact h.msgRead hst htk hc
  | msgWrite fd msgid =>
    simp only [Daemon.step] at hc
    split at hc
    · split at hc
      · exact h.msgWriteReady hc
      · cases hc
        exact h
    · cases hc
      exact h

/-! ## Runs -/

theorem Seated.init (L : Prop) : Daemon.init.Seated L := by
  refine ⟨fun i => ⟨?_, ?_, ?_, ?_, ?_, ?_⟩, ?_, ?_⟩
  · exact fun k hk => by cases hk
  · exact fun conn hc => by cases hc
  · exact fun hw => by cases hw
  · exact fun h0 => absurd h0 (Nat.lt_irrefl 0)
  · exact fun k hk => by cases hk
  · exact fun _ c conn hc => by cases hc
  · rintro l c e ⟨k, hk, -⟩
    cases hk
  · rintro l l' c e e' ⟨k, hk, -⟩
    cases hk

theorem Seated.start (proxies : List (ℕ × ℤ × SockRes)) : ∀ d d' : Daemon, d.Seated L →
    d.websites = [] → Daemon.start proxies d = .ok d' → d'.Seated L := by
  induction proxies with
  | nil =>
    intro d d' h _ hc
    cases hc
    exact h
  | cons p proxies ih =>
    intro d d' h hw hc
    obtain ⟨addr, portno, k⟩ := p
    simp only [Daemon.start] at hc
    obtain ⟨⟨d₁, sockfd⟩, h₁, hc⟩ := bind_inv hc
    obtain ⟨zs, hz, rfl⟩ := callZs_ok h₁
    cases sockfd with
    | error e => cases hc
    | ok sockfd =>
      obtain ⟨d₂, h₂, hc⟩ := bind_inv hc
      have hq := callZs'_quiet h₂ fun _ hz => zsSetRead_core hz
      refine ih d₂ d' (Seated.quiet ?_ hq) (hq.websites.trans hw) hc
      obtain ⟨i, k', -, hk, -, hcore⟩ | ⟨e, he, -⟩ | ⟨i, -, hlt, hk, hcore⟩ := zsocket_core hz
      · refine setZs_seated hcore ((h.reach zs).put_same hk rfl rfl rfl (fun _ _ h => h) (fun _ h0 => ?_)
          fun _ hle => ?_)
        · exact Int.lt_add_one_of_le (Int.le_of_lt h0)
        · exact Int.le_trans hle (Int.le_of_lt (Int.lt_succ k'.nOpen))
      · cases he
      · exact setZs_seated hcore ((h.reach zs).put_new hk hlt (fun _ => ⟨by decide, Int.one_pos⟩) rfl)

/-- A run in which no callback strands a client or takes one for a listener. -/
def Hosting (d : Daemon) (a : Callback) : Prop := d.strands a = false ∧ d.takesClient a = false

theorem Seated.run {proxies : List (ℕ × ℤ × SockRes)} {as : List Callback} {d₀ : Daemon}
    (h₀ : Daemon.start proxies .init = .ok d₀) (ha : Along Daemon.step Hosting d₀ as)
    (h : Run.run Daemon.step d₀ as = .ok d) : d.Seated True :=
  run_inv (C := Hosting) (fun _ _ _ hs hC hc => Seated.step hs (fun _ => hC.1) hC.2 hc) as d₀ d
    (Seated.start proxies _ _ (Seated.init True) rfl h₀) ha h

/-! ## The address of the listener -/

theorem Seated.spares_exread {r : RwRes} (h : d.Seated True) : Spares .nullDeref (d.exread fd r) :=
  Held.exread (.inl rfl) fun _ conn hconn hn => by
    obtain ⟨k, hk, -⟩ := (h.fits conn.exlisnfd).listened trivial fd conn hconn hn rfl
    exact Option.isSome_iff_exists.2 ⟨k, hk⟩

theorem Seated.spares_exsockRead {r : RwRes} (h : d.Seated True) : Spares .nullDeref (d.exsockRead fd r) :=
  (spares_callZs' (.inl rfl) _).bind fun _ h₁ =>
    (h.quiet (callZs'_quiet h₁ fun _ hz => zsClrRead_core hz)).spares_exread

end Daemon

open Daemon

/-- **Live connections keep a live listener**, in every run in which no callback takes away the last
website of a listener while a client of it has none yet, or takes a connection for a listener. -/
theorem live_listeners {proxies : List (ℕ × ℤ × SockRes)} {as : List Callback} {d₀ d : Daemon}
    (h₀ : Daemon.start proxies .init = .ok d₀)
    (ha : Along Daemon.step (fun d a => d.strands a = false ∧ d.takesClient a = false) d₀ as)
    (h : run Daemon.step d₀ as = .ok d) :
    d.Listened ∧ ∀ fd r, d.exsockRead fd r ≠ .error .nullDeref :=
  have hs := Seated.run h₀ ha h
  ⟨hs.listened, fun _ _ => hs.spares_exsockRead⟩

/-- A webapp with one website, and a client that has sent nothing. -/
def waitingRun : List Callback :=
  connects 3 4 ++ starts 4 1 "http://a" "0.0.0.0" (.ok 5) ++ connects 5 6

theorem live_listeners_waiting : ∃ d₀ d, Daemon.start oneProxy .init = .ok d₀ ∧
    run Daemon.step d₀ waitingRun = .ok d ∧ (d.connections 6).isSome ∧ d.Listened ∧
      ∀ fd r, d.exsockRead fd r ≠ .error .nullDeref := by
  have hs : ((replay waitingRun (.zsWrite 6)).map fun p =>
      (decide (Along Daemon.step (fun d a => d.strands a = false ∧ d.takesClient a = false) p.1 waitingRun),
        (p.2.1.connections 6).isSome)) = some (true, true) := by
    decide +kernel
  obtain ⟨d₀, d, d', h₀, h, -, hv⟩ := replay_map hs
  rw [Prod.mk.injEq, decide_eq_true_eq] at hv
  exact ⟨d₀, d, h₀, h, hv.2, live_listeners h₀ hv.1 h⟩

/-- Then the webapp hangs up, and the client sends its request. -/
def strandedRun : List Callback :=
  waitingRun ++ hangsUp 4 ++ [.zsRead 4 .wantRead [],
    .zfdRead 6 (.error .eagain) (.bytes (ascii "GET / HTTP/1.1\r\nHost: a\r\n\r\n")) .wantRead]

/-- The listener is gone, and `exread` follows `NULL`. -/
theorem listener_lost : ∃ d₀ d, Daemon.start oneProxy .init = .ok d₀ ∧
    run Daemon.step d₀ strandedRun = .ok d ∧ ¬d.Listened ∧ d.exsockRead 6 .wantRead = .error .nullDeref := by
  have hs : ((replay strandedRun (.zsWrite 6)).map fun p =>
      ((p.2.1.connections 6).map fun conn => (conn.websiteSockfd, conn.exlisnfd),
        (p.2.1.zs.zsockets 5).isNone, failure (p.2.1.exsockRead 6 .wantRead))) =
      some (some (none, 5), true, some .nullDeref) := by
    decide +kernel
  obtain ⟨d₀, d, d', h₀, h, -, hv⟩ := replay_map hs
  rw [Prod.mk.injEq, Prod.mk.injEq] at hv
  obtain ⟨hconn, hnone, hfail⟩ := hv
  refine ⟨d₀, d, h₀, h, fun hl => ?_, error_of_failure hfail⟩
  obtain ⟨conn, hc, he⟩ := Option.map_eq_some_iff.1 hconn
  rw [Prod.mk.injEq] at he
  obtain ⟨zs, hz, -⟩ := hl 6 conn hc he.1
  rw [he.2, Option.isNone_iff_eq_none.1 hnone] at hz
  cases hz

end Zimr
