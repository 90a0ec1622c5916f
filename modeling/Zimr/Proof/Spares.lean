import Zimr.Proof.Seated
import Zimr.Proof.Cstr

/-!
# Calls that do not follow `NULL`

Most of the daemon's functions follow neither the address of a listener nor an entry of `connections`.
The ones that do are spared the fault when the entry is there.
-/

namespace Zimr

open Run

/-- The daemon itself follows a `NULL`. -/
def DFault.Null (e : DFault) : Prop := e = .nullDeref ∨ e = .nullConn

namespace Daemon

variable {α β : Type} {d d' d₁ : Daemon} {fd w msgid : ℕ} {conn : ConnData} {e : DFault} {x : Except DFault α}

/-- The call does not fail with `e`. -/
def Spares (e : DFault) (x : Except DFault α) : Prop := x ≠ .error e

theorem Spares.bind {f : α → Except DFault β} (hx : Spares e x) (hf : ∀ a, x = .ok a → Spares e (f a)) :
    Spares e (x >>= f) := by
  cases x with
  | error e' =>
    intro h
    exact hx (congrArg Except.error (Except.error.inj h))
  | ok a => exact hf a rfl

theorem spares_ok (a : α) : Spares e (.ok a) := fun h => by cases h

theorem spares_error {e' : DFault} (he : e.Null) (h₁ : e' ≠ .nullDeref) (h₂ : e' ≠ .nullConn) :
    Spares e (.error e' : Except DFault α) := by
  rintro ⟨⟩
  exact he.elim h₁ h₂

/-! ## The layers below -/

section Layers

variable (he : e.Null)

include he

theorem spares_callZs (r : Except ZsFault (Zs × α)) : Spares e (d.callZs r) := by
  unfold callZs
  split
  · exact spares_ok _
  · exact spares_error he (by rintro ⟨⟩) (by rintro ⟨⟩)

theorem spares_callZs' (r : Except ZsFault Zs) : Spares e (d.callZs' r) := by
  unfold callZs'
  split
  · exact spares_ok _
  · exact spares_error he (by rintro ⟨⟩) (by rintro ⟨⟩)

theorem spares_rearm (b : Bool) : Spares e (d.rearm fd b) := by
  unfold rearm
  split
  · exact spares_ok _
  · exact spares_callZs' he _

theorem spares_callMsg (sw : MsgSwitch) (f : MsgSwitch → Except Fault (MsgSwitch × α)) :
    Spares e (d.callMsg fd sw f) := by
  unfold callMsg
  split
  · exact spares_error he (by rintro ⟨⟩) (by rintro ⟨⟩)
  · exact (spares_rearm he _).bind fun _ _ => spares_ok _

theorem spares_assertMsg (f : MsgSwitch → Except Fault (MsgSwitch × α)) : Spares e (d.assertMsg fd f) := by
  unfold assertMsg
  split
  · exact spares_error he (by decide) (by decide)
  · exact spares_callMsg he _ _

theorem spares_assertMsg' (f : MsgSwitch → Except Fault MsgSwitch) : Spares e (d.assertMsg' fd f) :=
  (spares_assertMsg he _).bind fun _ _ => spares_ok _

theorem spares_tryMsg (f : MsgSwitch → Except Fault (MsgSwitch × Except Errno α)) :
    Spares e (d.tryMsg fd f) := by
  unfold tryMsg
  split
  · exact spares_ok _
  · exact spares_callMsg he _ _

theorem spares_msgExists : Spares e (d.msgExists fd msgid) := by
  unfold msgExists
  split
  · exact spares_error he (by decide) (by decide)
  · exact spares_ok _

theorem spares_closeMsg : Spares e (d.closeMsg conn) := by
  unfold closeMsg
  split
  · exact spares_ok _
  · refine (spares_msgExists he).bind fun found _ => ?_
    split
    · exact (spares_tryMsg he _).bind fun _ _ => spares_ok _
    · exact spares_ok _

theorem spares_msgWrites (bufs : List (List UInt8)) : ∀ d : Daemon, Spares e (d.msgWrites w msgid bufs) := by
  induction bufs with
  | nil => exact fun d => spares_ok _
  | cons buf bufs ih =>
    intro d
    refine (spares_tryMsg he _).bind fun p _ => ?_
    obtain ⟨d₁, n⟩ := p
    cases n with
    | none => exact spares_ok _
    | some n => exact ih d₁

end Layers

/-! ## Connections -/

/-- Either it is not asked for, or the entry of `t` is there; a negative `t` is no index. -/
def Held (e : DFault) (d : Daemon) (t : ℤ) : Prop :=
  e = .nullDeref ∨ e = .nullConn ∧ (t < 0 ∨ (d.connections t.toNat).isSome)

variable {t : ℤ}

theorem Held.null (h : Held e d t) : e.Null := h.imp_right And.left

theorem Held.tabs (h : Held e d t) (hs : SameTabs d d') : Held e d' t := by
  unfold Held
  rw [hs.connections]
  exact h

theorem Held.setConn (h : Held e d t) (c : ℕ) (conn : ConnData) : Held e (d.setConn c conn) t := by
  refine h.imp_right fun ⟨he, ht⟩ => ⟨he, ht.imp_right fun hs => ?_⟩
  show (Function.update d.connections c (some conn) t.toNat).isSome
  by_cases hi : t.toNat = c
  · rw [hi, Function.update_self]
    rfl
  · rwa [Function.update_of_ne hi]

theorem Held.getConn (h : Held e d t) : Spares e (d.getConn t) := by
  unfold Daemon.getConn
  split
  · exact spares_error h.null (by decide) (by decide)
  rename_i hcond
  obtain rfl | ⟨rfl, ht⟩ := h
  · intro h
    split at h <;> cases h
  · obtain ht | ht := ht
    · omega
    · obtain ⟨conn, hconn⟩ := Option.isSome_iff_exists.1 ht
      rw [hconn]
      exact spares_ok _

theorem Held.cleanup (h : Held e d t) : Spares e (d.cleanupConnection t) :=
  h.getConn.bind fun _ _ => (spares_closeMsg h.null).bind fun _ _ =>
    (spares_callZs h.null _).bind fun _ _ => spares_ok _

theorem Held.refuse {page : Page} (h : Held e d fd) : Spares e (d.refuse fd page) :=
  (spares_callZs h.null _).bind fun _ h₁ => (h.tabs (callZs_tabs h₁)).cleanup

/-! ## A request -/

theorem Held.exreadBody {rest : List UInt8} (h : Held e d fd) : Spares e (d.exreadBody fd w conn rest) := by
  refine (spares_msgWrites h.null _ _).bind fun p h₁ => ?_
  obtain ⟨d₁, ok⟩ := p
  simp only
  split
  · exact (h.tabs (msgWrites_tabs _ _ _ _ _ _ h₁)).refuse
  split
  · exact (spares_tryMsg h.null _).bind fun _ _ => (spares_callZs' h.null _).bind fun _ _ => spares_ok _
  · exact (spares_assertMsg' h.null _).bind fun _ _ => spares_ok _

theorem Held.exreadOpen {site : Website} {type : ReqType} {buffer : List UInt8} {hdrlen : ℕ} (h : Held e d fd) :
    Spares e (d.exreadOpen fd site conn type buffer hdrlen) := by
  refine (spares_assertMsg h.null _).bind fun p h₁ => (spares_callZs' h.null _).bind fun d₂ h₂ => Spares.bind ?_
    fun postlen _ => ?_
  · unfold requestPostlen
    split
    · split
      · exact spares_ok _
      · split
        · exact spares_error h.null (by decide) (by decide)
        · exact spares_ok _
    · exact spares_ok _
  have h₁ := h.tabs (assertMsg_tabs h₁)
  have h₂ : Held e d₂ fd := (h₁.setConn fd _).tabs (callZs'_tabs h₂)
  cases postlen with
  | none => exact h₂.refuse
  | some postlen =>
    refine (spares_msgWrites h.null _ _).bind fun p h₃ => ?_
    obtain ⟨d₃, ok⟩ := p
    have h₃ : Held e d₃ fd := (h₂.setConn fd _).tabs (msgWrites_tabs _ _ _ _ _ _ h₃)
    simp only
    split
    · exact h₃.refuse
    · exact h₃.exreadBody

/-- Behind the `Host: ` that is found there is a space. -/
theorem spares_getUrl (he : e.Null) (raw : List UInt8) (size : ℕ) :
    Spares e (getUrlFromHttpHeader raw size) := by
  unfold getUrlFromHttpHeader
  split
  · exact spares_ok _
  rename_i i hi
  simp only
  split
  · exact spares_error he (by decide) (by decide)
  rename_i hroom
  split
  · exact spares_ok _
  split
  · rename_i hsp
    exfalso
    obtain ⟨-, hpre, -, hz⟩ := strnstr_spec hi
    obtain ⟨t, ht⟩ := hpre
    have hhost : ascii "Host: " = ascii "Host:" ++ [32] := by decide
    have hlen : (ascii "Host:").length = 5 := by decide
    have hsplit : raw = (raw.take i ++ ascii "Host:") ++ [32] ++ t := by
      rw [List.append_assoc _ (ascii "Host:"), ← hhost, List.append_assoc, ht, List.take_append_drop]
    have hzero : ∀ c ∈ raw.take i ++ ascii "Host:", c ≠ 0 := by
      intro c hc
      rcases List.mem_append.1 hc with hc | hc
      · exact hz c hc
      · rintro rfl
        exact absurd hc (by decide)
    have hone : ∀ c ∈ ([32] : List UInt8), c ≠ 0 := by
      intro c hc
      rw [List.mem_singleton.1 hc]
      decide
    obtain ⟨j, -, hj⟩ := strnstr_exists (List.cons_ne_nil 32 []) _ t (size - 1) hzero hone (by
      have := List.length_take_le i raw
      rw [List.length_append, hlen, List.length_singleton]
      omega)
    have hspace : ascii " " = [32] := by decide
    rw [hspace, hsplit, hj] at hsp
    cases hsp
  · split
    · exact spares_error he (by decide) (by decide)
    · exact spares_ok _

/-- `exread` follows the entry of the connection, and the address of the listener while there is no
website. -/
theorem Held.exread {r : RwRes} (h : Held e d fd)
    (hl : e = .nullDeref → ∀ conn, d.connections fd = some conn → conn.websiteSockfd = none →
      (d.zs.core conn.exlisnfd).isSome) : Spares e (d.exread fd r) := by
  refine h.getConn.bind fun conn hconn => (spares_callZs h.null _).bind fun p hp => ?_
  obtain ⟨d₁, got⟩ := p
  obtain ⟨c, hc, -, hconn⟩ := getConn_ok hconn
  obtain rfl : fd = c := by omega
  have hq := callZs_quiet hp fun _ hz => zsRead_core hz
  have h₁ : Held e d₁ fd := (h.setConn fd _).tabs (callZs_tabs hp)
  cases got with
  | error e => exact h₁.cleanup
  | ok bytes =>
    simp only
    split
    · exact h₁.cleanup
    split
    · exact spares_ok _
    have h₂ : Held e (d₁.setConn fd { conn with buffer := some (conn.buffer.getD [] ++ bytes) }) fd :=
      h₁.setConn fd _
    split
    · -- the lookup
      rename_i hn
      unfold Daemon.exreadHeader
      split
      · split
        · exact h₂.refuse
        · exact spares_callZs' h.null _
      split
      · exact h₂.refuse
      have h₃ := h₂.setConn fd
      refine (spares_getUrl h.null _ _).bind fun url _ => ?_
      split
      · exact (h₃ _).refuse
      split
      · rename_i hnone
        obtain rfl | ⟨rfl, -⟩ := h
        · have hcore := hl rfl conn hconn hn
          have hnone : d₁.zs.core conn.exlisnfd = none := core_none.2 hnone
          rw [hq.core] at hnone
          have hnone : d.zs.core conn.exlisnfd = none := hnone
          rw [hnone] at hcore
          cases hcore
        · exact fun h => by cases h
      · split
        · exact (h₃ _).refuse
        · simp only
          split
          · exact ((h₃ _).setConn fd _).refuse
          · exact ((h₃ _).setConn fd _).exreadOpen
    · split
      · exact h₂.refuse
      · exact h₂.exreadBody

end Daemon

end Zimr
