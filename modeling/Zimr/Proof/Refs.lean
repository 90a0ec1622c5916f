import Zimr.Lib.Run
import Zimr.Spec.Zimrd

/-!
# What the daemon's tables refer to

A connection names the socket of its website by number. `Refs` says that a website with
that socket is registered; every callback keeps it, whatever the sockets and the switches
do.
-/

namespace Zimr

open Run

/-- A website is registered for the socket of every connection that has one. -/
def Refs (d : Daemon) : Prop :=
  ∀ c conn w, c < fdSetSize → d.connections c = some conn → conn.websiteSockfd = some w →
    ∃ site ∈ d.websites, site.sockfd = w

namespace Daemon

variable {α : Type} {d d' : Daemon} {fd w c : ℕ} {conn : ConnData}

/-- The tables of the daemon itself are left alone. -/
structure SameTabs (d d' : Daemon) : Prop where
  websites : d'.websites = d.websites
  connections : d'.connections = d.connections

theorem SameTabs.refl (d : Daemon) : SameTabs d d := ⟨rfl, rfl⟩

theorem SameTabs.trans {d₁ d₂ : Daemon} (h₁ : SameTabs d d₁) (h₂ : SameTabs d₁ d₂) :
    SameTabs d d₂ :=
  ⟨h₂.websites.trans h₁.websites, h₂.connections.trans h₁.connections⟩

theorem setZs_tabs (d : Daemon) (zs : Zs) : SameTabs d (d.setZs zs) := ⟨rfl, rfl⟩

/-! ## The layers below -/

theorem callZs_ok {r : Except ZsFault (Zs × α)} {a : α} (h : d.callZs r = .ok (d', a)) :
    ∃ zs, r = .ok (zs, a) ∧ d' = d.setZs zs := by
  unfold callZs at h
  split at h
  · cases h; exact ⟨_, rfl, rfl⟩
  · cases h

theorem callZs'_ok {r : Except ZsFault Zs} (h : d.callZs' r = .ok d') :
    ∃ zs, r = .ok zs ∧ d' = d.setZs zs := by
  unfold callZs' at h
  split at h
  · cases h; exact ⟨_, rfl, rfl⟩
  · cases h

theorem rearm_ok {b : Bool} (h : d.rearm fd b = .ok d') :
    d' = d ∨ ∃ zs, (zsSetWrite d.zs fd = .ok zs ∨ zsClrWrite d.zs fd = .ok zs) ∧ d' = d.setZs zs := by
  unfold rearm at h
  split at h
  · cases h; exact Or.inl rfl
  · obtain ⟨zs, hz, rfl⟩ := callZs'_ok h
    right
    split at hz
    · exact ⟨zs, Or.inl hz, rfl⟩
    · exact ⟨zs, Or.inr hz, rfl⟩

/-- The switch with what a call is handed. -/
def lent (d : Daemon) (fd : ℕ) (sw : MsgSwitch) : MsgSwitch :=
  { sw with nSelectable := d.nSelectable, writeArmed := d.zs.activeWrite fd }

/-- The daemon with what it hands back. -/
def putSwitch (d : Daemon) (fd : ℕ) (sw : MsgSwitch) : Daemon :=
  { d with switches := Function.update d.switches fd (some sw), nSelectable := sw.nSelectable }

theorem callMsg_ok {sw : MsgSwitch} {f : MsgSwitch → Except Fault (MsgSwitch × α)} {a : α}
    (h : d.callMsg fd sw f = .ok (d', a)) :
    ∃ sw', f (d.lent fd sw) = .ok (sw', a) ∧ (d.putSwitch fd sw').rearm fd sw'.writeArmed = .ok d' := by
  unfold callMsg at h
  split at h
  · cases h
  · rename_i sw' a' hf
    obtain ⟨d₁, h₁, h⟩ := bind_inv h
    cases h
    exact ⟨sw', hf, h₁⟩

theorem assertMsg_ok {f : MsgSwitch → Except Fault (MsgSwitch × α)} {a : α}
    (h : d.assertMsg fd f = .ok (d', a)) :
    ∃ sw sw', d.switches fd = some sw ∧ f (d.lent fd sw) = .ok (sw', a) ∧
      (d.putSwitch fd sw').rearm fd sw'.writeArmed = .ok d' := by
  unfold assertMsg at h
  split at h
  · cases h
  · rename_i sw hsw
    obtain ⟨sw', hf, hr⟩ := callMsg_ok h
    exact ⟨sw, sw', hsw, hf, hr⟩

theorem assertMsg'_ok {f : MsgSwitch → Except Fault MsgSwitch} (h : d.assertMsg' fd f = .ok d') :
    ∃ sw sw', d.switches fd = some sw ∧ f (d.lent fd sw) = .ok sw' ∧
      (d.putSwitch fd sw').rearm fd sw'.writeArmed = .ok d' := by
  obtain ⟨⟨d₁, u⟩, h₁, h⟩ := bind_inv h
  cases h
  obtain ⟨sw, sw', hsw, hf, hr⟩ := assertMsg_ok h₁
  cases hc : f (d.lent fd sw) with
  | error e => rw [hc] at hf; cases hf
  | ok sw₁ => rw [hc] at hf; cases hf; exact ⟨sw, sw', hsw, hc, hr⟩

theorem tryMsg_ok {f : MsgSwitch → Except Fault (MsgSwitch × Except Errno α)} {a : Option α}
    (h : d.tryMsg fd f = .ok (d', a)) :
    (d.switches fd = none ∧ d' = d ∧ a = none) ∨
      ∃ sw sw' r, d.switches fd = some sw ∧ f (d.lent fd sw) = .ok (sw', r) ∧ a = r.toOption ∧
        (d.putSwitch fd sw').rearm fd sw'.writeArmed = .ok d' := by
  unfold tryMsg at h
  split at h
  · rename_i hsw
    cases h; exact Or.inl ⟨hsw, rfl, rfl⟩
  · rename_i sw hsw
    obtain ⟨sw', hf, hr⟩ := callMsg_ok h
    cases hc : f (d.lent fd sw) with
    | error e => rw [hc] at hf; cases hf
    | ok p =>
      rw [hc] at hf
      cases hf
      exact Or.inr ⟨sw, p.1, p.2, hsw, hc, rfl, hr⟩

theorem callZs_tabs {r : Except ZsFault (Zs × α)} {a : α} (h : d.callZs r = .ok (d', a)) :
    SameTabs d d' := by
  obtain ⟨zs, -, rfl⟩ := callZs_ok h
  exact setZs_tabs d zs

theorem callZs'_tabs {r : Except ZsFault Zs} (h : d.callZs' r = .ok d') : SameTabs d d' := by
  obtain ⟨zs, -, rfl⟩ := callZs'_ok h
  exact setZs_tabs d zs

theorem rearm_tabs {b : Bool} (h : d.rearm fd b = .ok d') : SameTabs d d' := by
  obtain rfl | ⟨zs, -, rfl⟩ := rearm_ok h
  · exact SameTabs.refl _
  · exact setZs_tabs d zs

theorem putSwitch_tabs (d : Daemon) (fd : ℕ) (sw : MsgSwitch) : SameTabs d (d.putSwitch fd sw) :=
  ⟨rfl, rfl⟩

theorem assertMsg_tabs {f : MsgSwitch → Except Fault (MsgSwitch × α)} {a : α}
    (h : d.assertMsg fd f = .ok (d', a)) : SameTabs d d' := by
  obtain ⟨sw, sw', -, -, hr⟩ := assertMsg_ok h
  exact (putSwitch_tabs d fd sw').trans (rearm_tabs hr)

theorem assertMsg'_tabs {f : MsgSwitch → Except Fault MsgSwitch} (h : d.assertMsg' fd f = .ok d') :
    SameTabs d d' := by
  obtain ⟨sw, sw', -, -, hr⟩ := assertMsg'_ok h
  exact (putSwitch_tabs d fd sw').trans (rearm_tabs hr)

theorem tryMsg_tabs {f : MsgSwitch → Except Fault (MsgSwitch × Except Errno α)} {a : Option α}
    (h : d.tryMsg fd f = .ok (d', a)) : SameTabs d d' := by
  obtain ⟨-, rfl, -⟩ | ⟨sw, sw', r, -, -, -, hr⟩ := tryMsg_ok h
  · exact SameTabs.refl _
  · exact (putSwitch_tabs d fd sw').trans (rearm_tabs hr)

theorem msgSwitchCreate_tabs (h : d.msgSwitchCreate fd = .ok d') : SameTabs d d' := by
  unfold Daemon.msgSwitchCreate at h
  split at h
  · cases h; exact SameTabs.refl _
  · obtain ⟨d₁, h₁, h⟩ := bind_inv h
    obtain ⟨d₂, h₂, h⟩ := bind_inv h
    cases h
    have ht := (callZs'_tabs h₁).trans (callZs'_tabs h₂)
    exact ⟨ht.websites, ht.connections⟩

theorem msgSwitchDestroy_tabs (h : d.msgSwitchDestroy fd = .ok d') : SameTabs d d' := by
  unfold Daemon.msgSwitchDestroy at h
  split at h
  · cases h; exact SameTabs.refl _
  · split at h
    · cases h
    · obtain ⟨d₁, h₁, h⟩ := bind_inv h
      have ht := (callZs'_tabs h₁).trans (callZs'_tabs h)
      exact ⟨ht.websites, ht.connections⟩

theorem msgWrites_tabs (w msgid : ℕ) (bufs : List (List UInt8)) :
    ∀ (d d' : Daemon) (b : Bool), d.msgWrites w msgid bufs = .ok (d', b) → SameTabs d d' := by
  induction bufs with
  | nil => intro d d' b h; cases h; exact SameTabs.refl _
  | cons buf bufs ih =>
    intro d d' b h
    obtain ⟨⟨d₁, n⟩, h₁, h⟩ := bind_inv h
    have ht := tryMsg_tabs h₁
    cases n with
    | none => cases h; exact ht
    | some n => exact ht.trans (ih d₁ d' b h)

theorem closeMsg_tabs (h : d.closeMsg conn = .ok d') : SameTabs d d' := by
  unfold closeMsg at h
  split at h
  · cases h; exact SameTabs.refl _
  · obtain ⟨found, -, h⟩ := bind_inv h
    cases found with
    | true =>
      obtain ⟨⟨d₁, r⟩, h₁, h⟩ := bind_inv h
      cases h
      exact tryMsg_tabs h₁
    | false => cases h; exact SameTabs.refl _

/-! ## Connections that go away -/

theorem getConn_ok {t : ℤ} (h : d.getConn t = .ok conn) :
    ∃ c : ℕ, t = c ∧ c < fdSetSize ∧ d.connections c = some conn := by
  unfold getConn at h
  split at h
  · cases h
  · rename_i ht
    cases hc : d.connections t.toNat with
    | none => rw [hc] at h; cases h
    | some conn' =>
      rw [hc] at h
      cases h
      exact ⟨t.toNat, by omega, by omega, hc⟩

/-- **What `cleanup_connection` does.** -/
theorem cleanupConnection_ok {t : ℤ} (h : d.cleanupConnection t = .ok d') :
    ∃ (c : ℕ) (conn : ConnData) (d₁ : Daemon) (zs : Zs) (r : Except SockErrno ℕ),
      t = c ∧ c < fdSetSize ∧ d.connections c = some conn ∧ d.closeMsg conn = .ok d₁ ∧
      zsClose d₁.zs c = .ok (zs, r) ∧
      d' = { d₁.setZs zs with connections := Function.update d₁.connections c none } := by
  obtain ⟨conn, h₁, h⟩ := bind_inv h
  obtain ⟨c, rfl, hlt, hc⟩ := getConn_ok h₁
  obtain ⟨d₁, h₂, h⟩ := bind_inv h
  obtain ⟨⟨d₂, r⟩, h₃, h⟩ := bind_inv h
  obtain ⟨zs, hz, rfl⟩ := callZs_ok h₃
  cases h
  exact ⟨c, conn, d₁, zs, r, rfl, hlt, hc, h₂, hz, rfl⟩

/-- The websites stay and no connection is new. -/
structure Shrinks (d d' : Daemon) : Prop where
  websites : d'.websites = d.websites
  connections : ∀ i, d'.connections i = d.connections i ∨ d'.connections i = none

theorem SameTabs.shrinks (h : SameTabs d d') : Shrinks d d' :=
  ⟨h.websites, fun i => Or.inl (by rw [h.connections])⟩

theorem Shrinks.trans {d₁ d₂ : Daemon} (h₁ : Shrinks d d₁) (h₂ : Shrinks d₁ d₂) : Shrinks d d₂ := by
  refine ⟨h₂.websites.trans h₁.websites, fun i => ?_⟩
  rcases h₂.connections i with h | h
  · rw [h]; exact h₁.connections i
  · exact Or.inr h

theorem Shrinks.some {i : ℕ} (h : Shrinks d d') (hi : d'.connections i = some conn) :
    d.connections i = some conn := by
  rcases h.connections i with he | he
  · rw [← he]; exact hi
  · rw [he] at hi; cases hi

theorem cleanupConnection_shrinks {t : ℤ} (h : d.cleanupConnection t = .ok d') :
    Shrinks d d' ∧ d'.connections t.toNat = none := by
  obtain ⟨c, conn, d₁, zs, r, rfl, -, -, h₂, -, rfl⟩ := cleanupConnection_ok h
  have ht := closeMsg_tabs h₂
  refine ⟨⟨ht.websites, fun i => ?_⟩, ?_⟩
  · by_cases hi : i = c
    · exact Or.inr (by simp [hi])
    · left
      simp only [Function.update_of_ne hi]
      rw [ht.connections]
  · simp

theorem cleanupWebsite_shrinks (is : List ℕ) : ∀ (d d' : Daemon),
    cleanupWebsite is d fd = .ok d' → Shrinks d d' ∧
      ∀ i ∈ is, ∀ conn, d'.connections i = some conn → conn.websiteSockfd ≠ some fd := by
  induction is with
  | nil => intro d d' h; cases h; exact ⟨(SameTabs.refl _).shrinks, by simp⟩
  | cons i is ih =>
    intro d d' h
    obtain ⟨d₁, h₁, h⟩ := bind_inv h
    obtain ⟨hs, hno⟩ := ih d₁ d' h
    -- after its turn the entry does not refer to the socket
    have hi : Shrinks d d₁ ∧ ∀ conn, d₁.connections i = some conn →
        conn.websiteSockfd ≠ some fd := by
      split at h₁
      · obtain ⟨hs₁, hn⟩ := cleanupConnection_shrinks h₁
        refine ⟨hs₁, fun conn hc => ?_⟩
        rw [Int.toNat_natCast] at hn
        rw [hn] at hc
        cases hc
      · rename_i hany
        cases h₁
        refine ⟨(SameTabs.refl _).shrinks, fun conn hc hw => hany ?_⟩
        rw [hc]
        simpa using hw
    refine ⟨hi.1.trans hs, fun j hj conn hc => ?_⟩
    rcases List.mem_cons.1 hj with rfl | hj
    · exact hi.2 conn (hs.some hc)
    · exact hno j hj conn hc

/-- **What `remove_website` does to the tables.** -/
theorem removeWebsite_tabs (h : d.removeWebsite fd = .ok d') :
    (websiteGetBySockfd d.websites fd = none ∧ d' = d) ∨
      ((websiteGetBySockfd d.websites fd).isSome ∧
        d'.websites = d.websites.eraseP (fun site => site.sockfd = fd) ∧
        (∀ i conn, d'.connections i = some conn → d.connections i = some conn) ∧
        ∀ i conn, i < fdSetSize → d'.connections i = some conn → conn.websiteSockfd ≠ some fd) := by
  unfold removeWebsite at h
  split at h
  · rename_i hn
    cases h; exact Or.inl ⟨hn, rfl⟩
  · rename_i site hsite
    obtain ⟨d₁, h₁, h⟩ := bind_inv h
    obtain ⟨d₂, h₂, h⟩ := bind_inv h
    obtain ⟨⟨d₃, r₃⟩, h₃, h⟩ := bind_inv h
    obtain ⟨⟨d₄, r₄⟩, h₄, h⟩ := bind_inv h
    cases h
    obtain ⟨hs, hno⟩ := cleanupWebsite_shrinks _ _ _ h₁
    have ht := ((msgSwitchDestroy_tabs h₂).trans (callZs_tabs h₃)).trans (callZs_tabs h₄)
    refine Or.inr ⟨by rw [hsite]; rfl, ?_, fun i conn hi => ?_, fun i conn hlt hi => ?_⟩
    · show d₄.websites.eraseP _ = _
      rw [ht.websites, hs.websites]
    · refine hs.some ?_
      rw [← ht.connections]
      exact hi
    · refine hno i (List.mem_range.2 hlt) conn ?_
      rw [← ht.connections]
      exact hi

theorem cleanupMsgs_shrinks (ns : List ℕ) : ∀ (d d' : Daemon),
    cleanupMsgs ns d fd = .ok d' → Shrinks d d' := by
  induction ns with
  | nil => intro d d' h; cases h; exact (SameTabs.refl _).shrinks
  | cons n ns ih =>
    intro d d' h
    obtain ⟨found, -, h⟩ := bind_inv h
    cases found with
    | false => exact ih d d' h
    | true =>
      obtain ⟨type, -, h⟩ := bind_inv h
      obtain ⟨d₁, h₁, h⟩ := bind_inv h
      refine Shrinks.trans ?_ (ih d₁ d' h)
      split at h₁
      · exact (cleanupConnection_shrinks h₁).1
      · cases h₁; exact (SameTabs.refl _).shrinks

end Daemon

/-! ## Every callback keeps `Refs` -/

section Refs

open Daemon

variable {d d' : Daemon} {fd w c : ℕ} {conn : ConnData}

theorem Refs.shrinks (h : Refs d) (hs : Shrinks d d') : Refs d' := by
  intro c conn w hlt hc hw
  rw [hs.websites]
  exact h c conn w hlt (hs.some hc) hw

theorem Refs.same (h : Refs d) (hs : SameTabs d d') : Refs d' := h.shrinks hs.shrinks

theorem Refs.setConn (h : Refs d)
    (hw : ∀ w, conn.websiteSockfd = some w → ∃ site ∈ d.websites, site.sockfd = w) :
    Refs (d.setConn c conn) := by
  intro i conn' w hlt hi hw'
  by_cases he : i = c
  · subst he
    simp only [Daemon.setConn, Function.update_self] at hi
    cases hi
    exact hw w hw'
  · simp only [Daemon.setConn, Function.update_of_ne he] at hi
    exact h i conn' w hlt hi hw'

theorem Refs.removeWebsite (h : Refs d) (hc : d.removeWebsite fd = .ok d') : Refs d' := by
  obtain ⟨-, rfl⟩ | ⟨-, hw, hold, hno⟩ := removeWebsite_tabs hc
  · exact h
  · intro c conn w hlt hi hw'
    obtain ⟨site, hmem, hsite⟩ := h c conn w hlt (hold c conn hi) hw'
    refine ⟨site, ?_, hsite⟩
    rw [hw]
    -- another website is erased
    refine (List.mem_eraseP_of_neg ?_).2 hmem
    have : w ≠ fd := by
      rintro rfl
      exact hno c conn hlt hi hw'
    simpa [hsite] using this

theorem Refs.startWebsite {buf strerror : List UInt8} {k : SockRes} {text : List UInt8} (h : Refs d)
    (hc : d.startWebsite fd buf k strerror = .ok (d', text)) : Refs d' := by
  unfold Daemon.startWebsite at hc
  simp only at hc
  split at hc
  · cases hc
  · split at hc
    · cases hc; exact h
    · obtain ⟨port, -, hc⟩ := bind_inv hc
      obtain ⟨⟨d₁, r⟩, h₁, hc⟩ := bind_inv hc
      have hd₁ : Refs d₁ := h.same (callZs_tabs h₁)
      cases r with
      | error e =>
        obtain ⟨text', -, hc⟩ := bind_inv hc
        cases hc; exact hd₁
      | ok exlisnfd =>
        obtain ⟨site, -, hc⟩ := bind_inv hc
        obtain ⟨d₂, h₂, hc⟩ := bind_inv hc
        cases hc
        refine Refs.same ?_ (callZs'_tabs h₂)
        intro c conn w hlt hi hw
        obtain ⟨s, hs, he⟩ := hd₁ c conn w hlt hi hw
        exact ⟨s, List.mem_append_left _ hs, he⟩

theorem Refs.commandHandler {msgid : ℕ} {type : ℤ} {buf strerror : List UInt8} {k : SockRes}
    (h : Refs d) (hc : d.commandHandler fd msgid type buf k strerror = .ok d') : Refs d' := by
  unfold Daemon.commandHandler at hc
  split at hc
  · obtain ⟨⟨d₁, text⟩, h₁, hc⟩ := bind_inv hc
    obtain ⟨⟨d₂, n⟩, h₂, hc⟩ := bind_inv hc
    obtain ⟨⟨d₃, n'⟩, h₃, hc⟩ := bind_inv hc
    cases hc
    exact ((h.startWebsite h₁).same (tryMsg_tabs h₂)).same (tryMsg_tabs h₃)
  · split at hc
    · exact h.removeWebsite hc
    · cases hc; exact h

theorem Refs.cleanup {t : ℤ} (h : Refs d) (hc : d.cleanupConnection t = .ok d') : Refs d' :=
  h.shrinks (cleanupConnection_shrinks hc).1

theorem Refs.refuse {page : Page} (h : Refs d) (hc : d.refuse fd page = .ok d') : Refs d' := by
  obtain ⟨⟨d₁, n⟩, h₁, hc⟩ := bind_inv hc
  exact (h.same (callZs_tabs h₁)).cleanup hc

theorem Refs.exreadBody {rest : List UInt8} (h : Refs d)
    (hw : ∀ w, conn.websiteSockfd = some w → ∃ site ∈ d.websites, site.sockfd = w)
    (hc : d.exreadBody fd w conn rest = .ok d') : Refs d' := by
  obtain ⟨⟨d₁, ok⟩, h₁, hc⟩ := bind_inv hc
  have ht := msgWrites_tabs _ _ _ _ _ _ h₁
  have hd₁ := h.same ht
  simp only at hc
  split at hc
  · exact hd₁.refuse hc
  · split at hc
    · obtain ⟨⟨d₂, n⟩, h₂, hc⟩ := bind_inv hc
      obtain ⟨d₃, h₃, hc⟩ := bind_inv hc
      cases hc
      have ht' := (ht.trans (tryMsg_tabs h₂)).trans (callZs'_tabs h₃)
      refine (h.same ht').setConn ?_
      rw [ht'.websites]
      exact hw
    · obtain ⟨d₂, h₂, hc⟩ := bind_inv hc
      cases hc
      have ht' := ht.trans (assertMsg'_tabs h₂)
      refine (h.same ht').setConn ?_
      rw [ht'.websites]
      exact hw

theorem Refs.exreadOpen {site : Website} {type : ReqType} {buffer : List UInt8} {hdrlen : ℕ}
    (h : Refs d) (hw : ∀ w, conn.websiteSockfd = some w → ∃ site ∈ d.websites, site.sockfd = w)
    (hc : d.exreadOpen fd site conn type buffer hdrlen = .ok d') : Refs d' := by
  obtain ⟨⟨d₁, msgid⟩, h₁, hc⟩ := bind_inv hc
  have ht := assertMsg_tabs h₁
  obtain ⟨d₂, h₂, hc⟩ := bind_inv hc
  have ht₂ := callZs'_tabs h₂
  have hsites : d₂.websites = d.websites := by
    rw [ht₂.websites]
    exact ht.websites
  have hd₂ : Refs d₂ := by
    refine Refs.same ((h.same ht).setConn ?_) ht₂
    rw [ht.websites]
    exact hw
  obtain ⟨postlen, -, hc⟩ := bind_inv hc
  cases postlen with
  | none => exact hd₂.refuse hc
  | some postlen =>
    obtain ⟨⟨d₃, ok⟩, h₃, hc⟩ := bind_inv hc
    have ht₃ := msgWrites_tabs _ _ _ _ _ _ h₃
    have hd₃ : Refs d₃ := by
      refine Refs.same (hd₂.setConn ?_) ht₃
      rw [hsites]
      exact hw
    simp only at hc
    split at hc
    · exact hd₃.refuse hc
    · refine hd₃.exreadBody ?_ hc
      rw [ht₃.websites]
      show ∀ w, _ → ∃ site ∈ d₂.websites, _
      rw [hsites]
      exact hw

/-- `website_find` returns a registered website. -/
theorem websiteFind_mem {sites : List Website} {url protocol ip : List UInt8} {site : Website}
    (h : websiteFind sites url protocol ip = some site) : site ∈ sites := by
  have key : ∀ (l : List Website) (best : ℕ × Option Website),
      (∀ s, best.2 = some s → s ∈ sites) → (∀ s ∈ l, s ∈ sites) →
      ∀ s, (l.foldl (websiteFindStep url protocol ip) best).2 = some s → s ∈ sites := by
    intro l
    induction l with
    | nil => intro best hb _; exact hb
    | cons a l ih =>
      intro best hb hl
      refine ih _ (fun s hs => ?_) fun s hs => hl s (List.mem_cons_of_mem _ hs)
      unfold websiteFindStep at hs
      split at hs
      · cases hs; exact hl _ List.mem_cons_self
      · exact hb s hs
  exact key sites (0, none) (by simp) (fun _ h => h) site h

theorem Refs.exreadHeader {buffer : List UInt8} (h : Refs d) (hn : conn.websiteSockfd = none)
    (hc : d.exreadHeader fd conn buffer = .ok d') : Refs d' := by
  unfold Daemon.exreadHeader at hc
  split at hc
  · split at hc
    · exact h.refuse hc
    · exact h.same (callZs'_tabs hc)
  · split at hc
    · exact h.refuse hc
    · rename_i type _
      have h₁ : Refs (d.setConn fd { conn with requestType := some type }) :=
        h.setConn fun w hw => by rw [hn] at hw; cases hw
      obtain ⟨url, -, hc⟩ := bind_inv hc
      cases url with
      | none => exact h₁.refuse hc
      | some url =>
        simp only at hc
        split at hc
        · cases hc
        · split at hc
          · exact h₁.refuse hc
          · rename_i site hfind
            have hw : ∀ w, some site.sockfd = some w → ∃ s ∈ d.websites, s.sockfd = w := by
              intro w hw
              exact ⟨site, websiteFind_mem hfind, Option.some.inj hw⟩
            have h₂ : Refs ((d.setConn fd { conn with requestType := some type }).setConn fd
                { conn with
                  requestType := some type, websiteSockfd := some site.sockfd }) :=
              h₁.setConn hw
            split at hc
            · exact h₂.refuse hc
            · exact h₂.exreadOpen hw hc

theorem Refs.exread {r : RwRes} (h : Refs d) (hc : d.exread fd r = .ok d') : Refs d' := by
  obtain ⟨conn, h₁, hc⟩ := bind_inv hc
  obtain ⟨c, he, hlt, hconn⟩ := getConn_ok h₁
  obtain rfl : fd = c := by omega
  have href : ∀ w, conn.websiteSockfd = some w → ∃ site ∈ d.websites, site.sockfd = w :=
    fun w hw => h fd conn w hlt hconn hw
  obtain ⟨⟨d₁, got⟩, h₂, hc⟩ := bind_inv hc
  have ht := callZs_tabs h₂
  have hd₁ : Refs d₁ := by
    refine Refs.same ?_ ht
    exact h.setConn href
  have hsites : d₁.websites = d.websites := ht.websites
  cases got with
  | error e => exact hd₁.cleanup hc
  | ok bytes =>
    simp only at hc
    split at hc
    · exact hd₁.cleanup hc
    · split at hc
      · cases hc; exact hd₁
      · have hd₂ : Refs (d₁.setConn fd
            { conn with buffer := some (conn.buffer.getD [] ++ bytes) }) := by
          refine hd₁.setConn ?_
          rw [hsites]
          exact href
        split at hc
        · rename_i hn
          exact hd₂.exreadHeader (by exact hn) hc
        · split at hc
          · exact hd₂.refuse hc
          · refine hd₂.exreadBody ?_ hc
            show ∀ w, _ → ∃ site ∈ d₁.websites, _
            rw [hsites]
            exact href

theorem Refs.ioError (h : Refs d) (hc : d.ioError fd = .ok d') : Refs d' := by
  unfold Daemon.ioError at hc
  split at hc
  · exact h.removeWebsite hc
  · obtain ⟨d₁, h₁, hc⟩ := bind_inv hc
    obtain ⟨d₂, h₂, hc⟩ := bind_inv hc
    obtain ⟨⟨d₃, r⟩, h₃, hc⟩ := bind_inv hc
    cases hc
    exact ((h.shrinks (cleanupMsgs_shrinks _ _ _ h₁)).same (msgSwitchDestroy_tabs h₂)).same
      (callZs_tabs h₃)

/-- What comes before the handler in `msg_switch_failed`. -/
theorem switchFailed_ok (h : d.switchFailed fd = .ok d') :
    ∃ d₁, SameTabs d d₁ ∧ d₁.ioError fd = .ok d' := by
  obtain ⟨d₁, h₁, h⟩ := bind_inv h
  obtain ⟨d₂, h₂, h⟩ := bind_inv h
  obtain ⟨d₃, h₃, h⟩ := bind_inv h
  exact ⟨d₃, ((callZs'_tabs h₁).trans (callZs'_tabs h₂)).trans (assertMsg'_tabs h₃), h⟩

theorem Refs.switchFailed (h : Refs d) (hc : d.switchFailed fd = .ok d') : Refs d' := by
  obtain ⟨d₁, ht, hc⟩ := switchFailed_ok hc
  exact (h.same ht).ioError hc

theorem Refs.switchRead {r : RwRes} {frames : List Frame} (h : Refs d)
    (hc : d.switchRead fd r frames = .ok d') : Refs d' := by
  unfold Daemon.switchRead at hc
  split at hc
  · cases hc
  · obtain ⟨⟨d₁, got⟩, h₁, hc⟩ := bind_inv hc
    have hd₁ := h.same (callZs_tabs h₁)
    cases got with
    | error e => exact hd₁.switchFailed hc
    | ok bytes =>
      simp only at hc
      split at hc
      · exact hd₁.switchFailed hc
      · exact hd₁.same (assertMsg'_tabs hc)

theorem Refs.switchWrite (h : Refs d) (hc : d.switchWrite fd = .ok d') : Refs d' := by
  obtain ⟨⟨d₁, frame⟩, h₁, hc⟩ := bind_inv hc
  obtain ⟨⟨d₂, n⟩, h₂, hc⟩ := bind_inv hc
  have hd₂ := (h.same (assertMsg_tabs h₁)).same (callZs_tabs h₂)
  cases n with
  | error e => exact hd₂.switchFailed hc
  | ok n => cases hc; exact hd₂

theorem Refs.msgAcceptReady {msgid : ℕ} (h : Refs d) (hc : d.msgAcceptReady fd msgid = .ok d') :
    Refs d' := by
  obtain ⟨⟨d₁, r⟩, h₁, hc⟩ := bind_inv hc
  have hd₁ := h.same (tryMsg_tabs h₁)
  simp only at hc
  split at hc
  · cases hc; exact hd₁
  · exact hd₁.same (assertMsg'_tabs hc)

theorem Refs.relay {type : ℤ} {buf : List UInt8} (h : Refs d) (hc : d.relay type buf = .ok d') :
    Refs d' := by
  obtain ⟨d₁, h₁, hc⟩ := bind_inv hc
  obtain ⟨⟨d₂, n⟩, h₂, hc⟩ := bind_inv hc
  have hd₂ := (h.same (callZs'_tabs h₁)).same (callZs_tabs h₂)
  cases n with
  | error e => exact hd₂.cleanup hc
  | ok n => cases hc; exact hd₂

theorem Refs.msgReadReady {msgid : ℕ} {stack strerror : List UInt8} {k : SockRes} (h : Refs d)
    (hc : d.msgReadReady fd msgid stack k strerror = .ok d') : Refs d' := by
  obtain ⟨d₁, h₁, hc⟩ := bind_inv hc
  obtain ⟨⟨d₂, n⟩, h₂, hc⟩ := bind_inv hc
  have hd₂ := (h.same (assertMsg'_tabs h₁)).same (tryMsg_tabs h₂)
  obtain ⟨type, -, hc⟩ := bind_inv hc
  cases n with
  | none => exact hd₂.cleanup hc
  | some buf =>
    simp only at hc
    split at hc
    · exact hd₂.cleanup hc
    · split at hc
      · exact hd₂.commandHandler hc
      · exact hd₂.relay hc

theorem Refs.msgWriteReady {msgid : ℕ} (h : Refs d) (hc : d.msgWriteReady fd msgid = .ok d') :
    Refs d' := by
  obtain ⟨type, -, hc⟩ := bind_inv hc
  split at hc
  · cases hc
  · obtain ⟨d₁, h₁, hc⟩ := bind_inv hc
    exact (h.same (callZs'_tabs h₁)).same (assertMsg'_tabs hc)

theorem Refs.insockAccept (h : Refs d) (hc : d.insockAccept fd = .ok d') : Refs d' := by
  obtain ⟨⟨d₁, newfd⟩, h₁, hc⟩ := bind_inv hc
  have hd₁ := h.same (callZs_tabs h₁)
  simp only at hc
  split at hc
  · exact hd₁.same (msgSwitchCreate_tabs hc)
  · cases hc; exact hd₁

theorem Refs.exsockAccept (h : Refs d) (hc : d.exsockAccept fd = .ok d') : Refs d' := by
  obtain ⟨⟨d₁, newfd⟩, h₁, hc⟩ := bind_inv hc
  have hd₁ := h.same (callZs_tabs h₁)
  simp only at hc
  split at hc
  · split at hc
    · cases hc
    · split at hc
      · refine Refs.same (hd₁.setConn ?_) (callZs'_tabs hc)
        intro w hw
        cases hw
      · cases hc
  · cases hc; exact hd₁

theorem Refs.zsReadReady {zs : Zsocket} {r : RwRes} {frames : List Frame} (h : Refs d)
    (hc : d.zsReadReady fd zs r frames = .ok d') : Refs d' := by
  unfold Daemon.zsReadReady at hc
  split at hc
  · exact h.insockAccept hc
  · exact h.exsockAccept hc
  · obtain ⟨d₁, h₁, hc⟩ := bind_inv hc
    exact (h.same (callZs'_tabs h₁)).exread hc
  · exact h.switchRead hc
  · cases hc; exact h
  · cases hc; exact h

theorem Refs.zsWriteReady {zs : Zsocket} (h : Refs d) (hc : d.zsWriteReady fd zs = .ok d') :
    Refs d' := by
  unfold Daemon.zsWriteReady at hc
  split at hc
  · cases hc
  · cases hc; exact h
  · obtain ⟨d₁, h₁, hc⟩ := bind_inv hc
    obtain ⟨conn, -, hc⟩ := bind_inv hc
    have hd₁ := h.same (callZs'_tabs h₁)
    split at hc
    · cases hc
    · exact hd₁.same (assertMsg'_tabs hc)
  · exact h.switchWrite hc

theorem Refs.step {a : Callback} (h : Refs d) (hc : d.step a = .ok d') : Refs d' := by
  cases a with
  | zfdRead fd accept r₁ r₂ => exact h.same (callZs'_tabs hc)
  | zfdWrite fd r₁ r₂ => exact h.same (callZs'_tabs hc)
  | zsRead fd r frames =>
    simp only [Daemon.step] at hc
    split at hc
    · split at hc
      · exact h.zsReadReady hc
      · cases hc; exact h
    · cases hc; exact h
  | zsWrite fd =>
    simp only [Daemon.step] at hc
    split at hc
    · split at hc
      · exact h.zsWriteReady hc
      · cases hc; exact h
    · cases hc; exact h
  | msgAccept fd msgid =>
    simp only [Daemon.step] at hc
    split at hc
    · split at hc
      · exact h.msgAcceptReady hc
      · cases hc; exact h
    · cases hc; exact h
  | msgRead fd msgid stack k strerror =>
    simp only [Daemon.step] at hc
    split at hc
    · split at hc
      · exact h.msgReadReady hc
      · cases hc; exact h
    · cases hc; exact h
  | msgWrite fd msgid =>
    simp only [Daemon.step] at hc
    split at hc
    · split at hc
      · exact h.msgWriteReady hc
      · cases hc; exact h
    · cases hc; exact h

theorem start_tabs (proxies : List (ℕ × ℤ × SockRes)) : ∀ (d d' : Daemon),
    Daemon.start proxies d = .ok d' → SameTabs d d' := by
  induction proxies with
  | nil => intro d d' h; cases h; exact SameTabs.refl _
  | cons p proxies ih =>
    intro d d' h
    obtain ⟨addr, portno, k⟩ := p
    simp only [Daemon.start] at h
    obtain ⟨⟨d₁, sockfd⟩, h₁, h⟩ := bind_inv h
    cases sockfd with
    | error e => cases h
    | ok sockfd =>
      obtain ⟨d₂, h₂, h⟩ := bind_inv h
      exact ((callZs_tabs h₁).trans (callZs'_tabs h₂)).trans (ih d₂ d' h)

/-- **Every state of the daemon.** -/
theorem Refs.run {proxies : List (ℕ × ℤ × SockRes)} {d₀ : Daemon} {as : List Callback}
    (h₀ : Daemon.start proxies .init = .ok d₀) (h : Run.run Daemon.step d₀ as = .ok d) : Refs d := by
  have hinit : Refs d₀ := by
    refine Refs.same ?_ (start_tabs proxies _ _ h₀)
    intro c conn w _ hc _
    cases hc
  refine run_inv (C := fun _ _ => True) (fun s a s' hs _ hstep => hs.step hstep) as d₀ d hinit ?_ h
  exact Along.of_forall (P := fun _ => True) fun _ _ => trivial

end Refs

end Zimr
