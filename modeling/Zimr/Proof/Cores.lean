import Zimr.Proof.Sockets

/-!
# What a socket is for the daemon

Of a socket the daemon relies on its type, its handler, its uses, whether it is still to be closed
and which descriptor it has accepted (`SockCore`). Reading and writing leave that alone; a callback
of `zfd_select` ends a close that was put off (`Zs.Ends`) or accepts (`Zs.Accepts`).
-/

namespace Zimr

variable {σ σ' σ₁ σ₂ : Zs} {fd : ℕ} {zs zs' : Zsocket}

structure SockCore where
  type : ZsType
  eventHdlr : EventHdlr
  nOpen : ℤ
  closed : Bool
  acceptedFd : Option ℕ
  deriving DecidableEq

def Zsocket.core (zs : Zsocket) : SockCore :=
  ⟨zs.type, zs.eventHdlr, zs.nOpen, zs.status.closed, zs.acceptedFd⟩

def Zs.core (σ : Zs) (fd : ℕ) : Option SockCore := (σ.zsockets fd).map Zsocket.core

theorem core_some (h : σ.zsockets fd = some zs) : σ.core fd = some zs.core := by
  unfold Zs.core
  rw [h]
  rfl

theorem of_core {k : SockCore} (h : σ.core fd = some k) :
    ∃ zs, σ.zsockets fd = some zs ∧ zs.core = k := Option.map_eq_some_iff.1 h

theorem core_eq (h : σ'.zsockets = σ.zsockets) : σ'.core = σ.core := by
  unfold Zs.core
  rw [h]

theorem core_none : σ.core fd = none ↔ σ.zsockets fd = none := Option.map_eq_none_iff

theorem core_update {x : Option Zsocket} (h : σ'.zsockets = Function.update σ.zsockets fd x) :
    σ'.core = Function.update σ.core fd (x.map Zsocket.core) := by
  funext i
  unfold Zs.core
  rw [h]
  by_cases hi : i = fd
  · rw [hi, Function.update_self, Function.update_self]
  · rw [Function.update_of_ne hi, Function.update_of_ne hi]

theorem set_core (σ : Zs) (fd : ℕ) (zs : Zsocket) :
    (σ.set fd zs).core = Function.update σ.core fd (some zs.core) :=
  core_update (x := some zs) rfl

theorem set_core_same (hz : σ.core fd = some zs'.core) : (σ.set fd zs').core = σ.core := by
  rw [set_core, ← hz, Function.update_eq_self]

theorem countUp_core (σ : Zs) (b : Bool) : (σ.countUp b).core = σ.core := rfl

theorem countDown_core (σ : Zs) (b : Bool) : (σ.countDown b).core = σ.core := rfl

theorem Zsocket.Same.core (h : zs.Same zs') : zs'.core = zs.core := by
  unfold Zsocket.core
  rw [h.type, h.eventHdlr, h.nOpen, h.closed, h.acceptedFd]

/-! ## The interest -/

theorem zsUpdateFdState_core (hc : zsUpdateFdState σ fd = .ok σ') : σ'.core = σ.core := by
  obtain ⟨z, rfl, -⟩ := zsUpdateFdState_eq hc
  rfl

theorem zsSetRead_core (hc : zsSetRead σ fd = .ok σ') : σ'.core = σ.core := by
  obtain ⟨zs, -, hc⟩ := zs_bind_ok hc
  exact (zsUpdateFdState_core hc :)

theorem zsSetWrite_core (hc : zsSetWrite σ fd = .ok σ') : σ'.core = σ.core := by
  obtain ⟨zs, -, hc⟩ := zs_bind_ok hc
  exact (zsUpdateFdState_core hc :)

theorem zsClrRead_core (hc : zsClrRead σ fd = .ok σ') : σ'.core = σ.core := core_eq (zsClrRead_eq hc).1

theorem zsClrWrite_core (hc : zsClrWrite σ fd = .ok σ') : σ'.core = σ.core :=
  core_eq (zsClrWrite_eq hc).1

theorem zsSetEventHdlr_core {h : EventHdlr} (hc : zsSetEventHdlr σ fd h = .ok σ') :
    ∃ k, σ.core fd = some k ∧ σ'.core = Function.update σ.core fd (some { k with eventHdlr := h }) := by
  obtain ⟨zs, hz, hc⟩ := zs_bind_ok hc
  cases hc
  exact ⟨zs.core, core_some (assertSock_ok hz), set_core σ fd _⟩

/-! ## Closing -/

theorem zsShut_core (hc : zsShut σ fd = .ok σ') : σ'.core = Function.update σ.core fd none := by
  obtain ⟨σ₁, h₁, hc⟩ := zs_bind_ok hc
  obtain ⟨σ₂, h₂, hc⟩ := zs_bind_ok hc
  cases hc
  have hcore : ({ σ₂ with zsockets := Function.update σ₂.zsockets fd none } : Zs).core =
      Function.update σ₂.core fd none := core_update (x := none) rfl
  rw [hcore, zsClrWrite_core h₂, zsClrRead_core h₁]
  rfl

/-- **`zs_close`** of a socket that is open. -/
theorem zsClose_core {r : Except SockErrno ℕ} (hz : σ.zsockets fd = some zs)
    (hc : zsClose σ fd = .ok (σ', r)) :
    (zs.type = .listen ∧ 0 < zs.nOpen - 1 ∧
      σ'.core = Function.update σ.core fd (some { zs.core with nOpen := zs.nOpen - 1 })) ∨
    (zs.type = .listen ∧ ¬0 < zs.nOpen - 1 ∧ σ'.core = Function.update σ.core fd none) ∨
    (zs.type = .connect ∧ zs.status.writing = true ∧
      σ'.core = Function.update σ.core fd (some { zs.core with closed := true })) ∨
    (zs.type = .connect ∧ zs.status.writing = false ∧ σ'.core = Function.update σ.core fd none) := by
  obtain ⟨hn, -⟩ | ⟨p, hp, -, hcases⟩ := zsClose_cases hc
  · rw [hn] at hz
    cases hz
  rw [hp] at hz
  cases hz
  obtain ⟨ht, hn, rfl⟩ | ⟨ht, hn, hs⟩ | ⟨ht, hw, σ₁, σ₂, h₁, h₂, rfl⟩ | ⟨ht, hw, hs⟩ := hcases
  · exact .inl ⟨ht, hn, set_core σ fd _⟩
  · refine .inr (.inl ⟨ht, hn, ?_⟩)
    rw [zsShut_core hs, set_core, Function.update_idem]
  · refine .inr (.inr (.inl ⟨ht, hw, ?_⟩))
    rw [set_core, zsClrWrite_core h₂, zsClrRead_core h₁]
    rfl
  · exact .inr (.inr (.inr ⟨ht, hw, zsShut_core hs⟩))

/-! ## Reading and writing -/

/-- Nothing changes, or a connection whose close was put off is gone. -/
def Zs.Ends (σ σ' : Zs) (fd : ℕ) : Prop :=
  σ'.core = σ.core ∨ ∃ k, σ.core fd = some k ∧ k.type = .connect ∧ k.closed = true ∧
    σ'.core = Function.update σ.core fd none

theorem zsReader_core {r : RwRes} (hc : zsReader σ fd r = .ok σ') : σ'.core = σ.core := by
  obtain ⟨zs, zs', hz, hs, -, hσ⟩ := zsReader_cases hc
  have hk := core_some hz
  rw [← hs.core] at hk
  obtain rfl | rfl := hσ
  · exact set_core_same hk
  · exact set_core_same hk

/-- The end of a write. -/
theorem zsWritten_core (hk : σ.core fd = some zs.core) (ht : zs.type = .connect)
    (hc : zsWritten σ fd zs = .ok σ') : σ.Ends σ' fd := by
  unfold zsWritten at hc
  -- the record that is closed, if one is
  obtain ⟨σ₁, zs₁, hσ₁, hzs₁⟩ : ∃ σ₁ zs₁, σ₁ = (σ.countUp (σ.activeWrite fd && !zs.status.writable)).set
      fd zs₁ ∧ zs₁ = { zs with
        write.buffer := none, status.writable := true, status.writing := false } := ⟨_, _, rfl, rfl⟩
  have hcore : σ₁.core = σ.core := by
    rw [hσ₁]
    exact set_core_same (by rw [countUp_core, hk, hzs₁]; rfl)
  simp only [← hzs₁, ← hσ₁] at hc
  split at hc
  · rename_i hcl
    obtain ⟨⟨σ₂, res⟩, h₂, hc⟩ := zs_bind_ok hc
    cases hc
    have hz₁ : σ₁.zsockets fd = some zs₁ := by rw [hσ₁]; exact Function.update_self _ _ _
    have ht₁ : zs₁.type = .connect := by rw [hzs₁]; exact ht
    refine .inr ⟨zs.core, hk, ht, hcl, ?_⟩
    rw [← hcore]
    obtain ⟨hl, -⟩ | ⟨hl, -⟩ | ⟨-, hw, -⟩ | ⟨-, -, h⟩ := zsClose_core hz₁ h₂
    · exact absurd (hl.symm.trans ht₁) (by decide)
    · exact absurd (hl.symm.trans ht₁) (by decide)
    · rw [hzs₁] at hw
      cases hw
    · exact h
  · cases hc
    exact .inl hcore

theorem zsWriter_core {r : RwRes} {k : SockCore} (hk : σ.core fd = some k) (ht : k.type = .connect)
    (hc : zsWriter σ fd r = .ok σ') : σ.Ends σ' fd := by
  obtain ⟨zs, zs', hz, hs, hσ⟩ := zsWriter_cases hc
  have hzk := core_some hz
  obtain rfl : zs.core = k := Option.some.inj (hzk.symm.trans hk)
  rw [← hs.core] at hzk
  obtain rfl | ⟨-, -, hσ⟩ := hσ
  · exact .inl (set_core_same hzk)
  · exact zsWritten_core hzk (hs.type.trans ht) hσ

theorem zsRefill_core {r : RwRes} (hc : zsRefill σ fd r = .ok σ') : σ'.core = σ.core := by
  obtain ⟨zs, h₁, hc⟩ := zs_bind_ok hc
  have hk := core_some (get_ok h₁)
  split at hc
  · obtain ⟨σ₁, h₂, hc⟩ := zs_bind_ok hc
    obtain ⟨z, hz, hc⟩ := zs_bind_ok hc
    have h₁ : σ₁.core = σ.core := by
      rw [zsReader_core h₂]
      exact set_core_same hk
    have hk₁ := core_some (get_ok hz)
    rw [zsUpdateFdState_core hc, ← h₁]
    exact set_core_same hk₁
  · cases hc
    rfl

theorem zsRead_core {n : ℕ} {a : RwRes} {r : Except SockErrno (List UInt8)}
    (hc : zsRead σ fd n a = .ok (σ', r)) : σ'.core = σ.core := by
  obtain ⟨rfl, -⟩ | ⟨zs, zs', hz, -, -, -, hs, -, hc⟩ := zsRead_cases hc
  · rfl
  · have hk := core_some hz
    rw [← hs.core] at hk
    rw [zsRefill_core hc]
    exact set_core_same hk

theorem zsWrite_core {buf : List UInt8} {r : Except SockErrno ℕ}
    (hc : zsWrite σ fd buf = .ok (σ', r)) : σ'.core = σ.core := by
  obtain ⟨zs, hz, ⟨rfl, -⟩ | ⟨-, -, -, -, zs', -, -, hc, hcases⟩⟩ := zsWrite_cases hc
  · rfl
  · have hk : zs'.core = zs.core := by
      obtain ⟨-, -, rfl⟩ | ⟨-, -, rfl⟩ := hcases
      · rfl
      · rfl
    rw [zsUpdateFdState_core hc]
    exact set_core_same (by rw [hk]; exact core_some hz)

theorem zsConnecter_core {r : RwRes} (hc : zsConnecter σ fd r = .ok σ') : σ'.core = σ.core := by
  obtain ⟨zs, h₁, hc⟩ := zs_bind_ok hc
  have hk := core_some (get_ok h₁)
  simp only at hc
  split at hc
  · cases r with
    | wantRead => cases hc; exact set_core_same hk
    | wantWrite => cases hc; exact set_core_same hk
    | fail k e => cases hc; exact set_core_same hk
    | bytes bs => cases hc; exact set_core_same hk
  · cases hc
    exact set_core_same hk

theorem zsAccepter_core (hc : zsAccepter σ fd = .ok σ') : σ'.core = σ.core := by
  obtain ⟨zs, h₁, hc⟩ := zs_bind_ok hc
  split at hc
  · cases hc
  obtain ⟨p, hp, hc⟩ := zs_bind_ok hc
  have hk := core_some (get_ok hp)
  obtain ⟨σ₁, h₂, hc⟩ := zs_bind_ok hc
  rw [zsUpdateFdState_core hc]
  have hset : ((σ.countUp (σ.activeRead zs.nOpen.toNat && !p.status.readable)).set zs.nOpen.toNat
      { p with status.readable := true, status.accepting := false }).core = σ.core :=
    set_core_same hk
  split at h₂
  · obtain ⟨z, hz, h₂⟩ := zs_bind_ok h₂
    cases h₂
    have hk₁ := core_some (get_ok hz)
    rw [← hset]
    exact set_core_same hk₁
  · cases h₂
    exact hset

/-! ## The callbacks of `zfd_select` -/

theorem Zs.Ends.congr {σ₀ : Zs} (h₀ : σ₁.core = σ₀.core) (h : σ₁.Ends σ₂ fd) (h₂ : σ'.core = σ₂.core) :
    σ₀.Ends σ' fd := by
  unfold Zs.Ends at h ⊢
  rw [h₂, ← h₀]
  exact h

theorem zsUnconnected_core {r : RwRes} (hk : σ.core fd = some zs.core)
    (hc : zsUnconnected σ fd zs r = .ok σ') : σ'.core = σ.core := by
  unfold zsUnconnected at hc
  split at hc
  · rw [zsConnecter_core hc]
    exact set_core_same hk
  · rw [zsAccepter_core hc]
    exact set_core_same hk

theorem zsInternalWrite_core {r₁ r₂ : RwRes} (hc : zsInternalWrite σ fd r₁ r₂ = .ok σ') :
    σ.Ends σ' fd := by
  obtain ⟨zs, h₁, hc⟩ := zs_bind_ok hc
  obtain ⟨hz, ht⟩ := getConnect_ok h₁
  have hk := core_some hz
  split at hc
  · obtain ⟨σ₁, h₁, hc⟩ := zs_bind_ok hc
    have hends : σ.Ends σ₁ fd := by
      split at h₁
      · have hset : (σ.set fd { zs with status.wantWriteFromWrite := false }).core = σ.core :=
          set_core_same hk
        exact (zsWriter_core (by rw [hset]; exact hk) ht h₁).congr hset rfl
      · cases h₁
        exact .inl rfl
    split at hc
    · cases hc
      exact hends
    · rename_i z hz₁
      obtain ⟨σ₂, h₂, hc⟩ := zs_bind_ok hc
      have hk₁ := core_some hz₁
      have h₂ : σ₂.core = σ₁.core := by
        split at h₂
        · rw [zsReader_core h₂]
          exact set_core_same hk₁
        · cases h₂
          rfl
      exact hends.congr rfl ((zsUpdateFdState_core hc).trans h₂)
  · obtain ⟨σ₁, h₁, hc⟩ := zs_bind_ok hc
    left
    rw [zsUpdateFdState_core hc, zsUnconnected_core ?_ h₁]
    rw [hk]
    split <;> rfl

theorem zsInternalRead_core {r₁ r₂ : RwRes} (hc : zsInternalRead σ fd r₁ r₂ = .ok σ') :
    σ.Ends σ' fd := by
  obtain ⟨zs, h₁, hc⟩ := zs_bind_ok hc
  obtain ⟨hz, ht⟩ := getConnect_ok h₁
  have hk := core_some hz
  split at hc
  · obtain ⟨σ₁, h₁, hc⟩ := zs_bind_ok hc
    have hk' : σ.core fd = some zs.startRead.core := by rw [zs.startRead_same.core]; exact hk
    have hσ₁ : σ₁.core = σ.core := by
      split at h₁
      · rw [zsReader_core h₁]
        exact set_core_same hk'
      · cases h₁
        exact set_core_same hk'
    obtain ⟨z, hz₁, hc⟩ := zs_bind_ok hc
    have hk₁ := core_some (get_ok hz₁)
    obtain ⟨σ₂, h₂, hc⟩ := zs_bind_ok hc
    have hends : σ.Ends σ₂ fd := by
      split at h₂
      · have hset : (σ₁.set fd { z with status.wantReadFromWrite := false }).core = σ.core := by
          rw [← hσ₁]
          exact set_core_same hk₁
        exact (zsWriter_core (by rw [hset]; exact hk) ht h₂).congr hset rfl
      · cases h₂
        exact .inl hσ₁
    split at hc
    · cases hc
      exact hends
    · exact hends.congr rfl (zsUpdateFdState_core hc)
  · obtain ⟨σ₁, h₁, hc⟩ := zs_bind_ok hc
    left
    rw [zsUpdateFdState_core hc, zsUnconnected_core ?_ h₁]
    rw [hk]
    split <;> rfl

/-- A connection comes in as `new`, or none. -/
structure Zs.Accepts (σ σ' : Zs) (fd : ℕ) (k : SockCore) (new : ℕ) : Prop where
  fresh : σ.core new = none
  small : new < fdSetSize
  core : σ'.core = Function.update (Function.update σ.core fd (some { k with acceptedFd := some new }))
    new (some ⟨.connect, k.eventHdlr, fd, false, none⟩)

theorem zsInternalAccept_core {a : Except SockErrno (ℕ × ℕ)} (hc : zsInternalAccept σ fd a = .ok σ') :
    ∃ k, σ.core fd = some k ∧
      (σ'.core = Function.update σ.core fd (some { k with acceptedFd := none }) ∨
        ∃ new, σ.Accepts σ' fd k new) := by
  obtain ⟨zs, h₁, hc⟩ := zs_bind_ok hc
  have hk := core_some (get_ok h₁)
  refine ⟨zs.core, hk, ?_⟩
  cases a with
  | error e =>
    left
    rw [zsUpdateFdState_core hc]
    exact set_core σ fd _
  | ok new =>
    right
    obtain ⟨σ₁, h₁, hc⟩ := zs_bind_ok hc
    obtain ⟨hlt, hnone, rfl⟩ := zsTypeInit_cases h₁
    have hne : new.1 ≠ fd := by
      rintro rfl
      simp only [Zs.set, Function.update_self, reduceCtorEq] at hnone
    obtain ⟨child, h₂, hc⟩ := zs_bind_ok hc
    obtain ⟨σ₂, h₃, hc⟩ := zs_bind_ok hc
    obtain ⟨σ₃, h₄, h₅⟩ := zs_bind_ok hc
    have hchild := get_ok h₂
    simp only [Zs.set, Function.update_of_ne hne, Function.update_self, Option.some.injEq] at hchild
    subst hchild
    have h₄ : σ₃.core = σ₂.core := by
      split at h₄
      · exact zsUpdateFdState_core h₄
      · cases h₄
        rfl
    refine ⟨new.1, ⟨?_, hlt, ?_⟩⟩
    · simp only [Zs.set, Function.update_of_ne hne] at hnone
      exact core_none.2 hnone
    · -- the two records
      rw [zsUpdateFdState_core h₅, h₄, zsAccepter_core h₃, set_core, set_core, set_core, set_core]
      funext i
      by_cases hi : i = new.1
      · rw [hi, Function.update_self, Function.update_self]
        rfl
      · rw [Function.update_of_ne hi, Function.update_of_ne hi]
        by_cases hf : i = fd
        · rw [hf, Function.update_self, Function.update_self]
          rfl
        · rw [Function.update_of_ne hf, Function.update_of_ne hi, Function.update_of_ne hf,
            Function.update_of_ne hf]

/-- **A callback of `zfd_select` that reads.** -/
theorem zfdRead_core {a : Except SockErrno (ℕ × ℕ)} {r₁ r₂ : RwRes}
    (hc : σ.step (.zfdRead fd a r₁ r₂) = .ok σ') : σ.Ends σ' fd ∨
      ∃ k, σ.core fd = some k ∧
        (σ'.core = Function.update σ.core fd (some { k with acceptedFd := none }) ∨
          ∃ new, σ.Accepts σ' fd k new) := by
  simp only [Zs.step] at hc
  split at hc
  · split at hc
    · exact .inr (zsInternalAccept_core hc)
    · exact .inl (zsInternalRead_core hc)
    · cases hc
  · cases hc
    exact .inl (.inl rfl)

theorem zfdWrite_core {r₁ r₂ : RwRes} (hc : σ.step (.zfdWrite fd r₁ r₂) = .ok σ') : σ.Ends σ' fd := by
  simp only [Zs.step] at hc
  split at hc
  · split at hc
    · exact zsInternalWrite_core hc
    · cases hc
  · cases hc
    exact .inl rfl

/-! ## Opening -/

/-- **`zsocket`** for a listener: one more use of a socket that is there, or a new one. -/
theorem zsocket_core {addr : ℕ} {portno : ℤ} {hdlr : EventHdlr} {ssl : Bool} {k : SockRes}
    {r : Except SockErrno ℕ} (hc : zsocket σ addr portno .listen hdlr ssl k = .ok (σ', r)) :
    (∃ i c, zsGetByInfo σ addr portno = some i ∧ σ.core i = some c ∧ r = .ok i ∧
      σ'.core = Function.update σ.core i (some { c with nOpen := c.nOpen + 1 })) ∨
    (∃ e, r = .error e ∧ σ'.core = σ.core) ∨
    ∃ i, r = .ok i ∧ i < fdSetSize ∧ σ.core i = none ∧
      σ'.core = Function.update σ.core i (some ⟨.listen, hdlr, 1, false, none⟩) := by
  unfold zsocket at hc
  simp only [if_true] at hc
  split at hc
  · rename_i i hi
    obtain ⟨p, hp, hc⟩ := zs_bind_ok hc
    cases hc
    exact .inl ⟨i, p.core, hi, core_some (get_ok hp), rfl, set_core σ i _⟩
  · split at hc
    · cases hc
      exact .inr (.inl ⟨_, rfl, rfl⟩)
    · rename_i i _
      split at hc
      · cases hc
        exact .inr (.inl ⟨_, rfl, rfl⟩)
      · obtain ⟨σ₁, h₁, hc⟩ := zs_bind_ok hc
        obtain ⟨hlt, hnone, rfl⟩ := zsTypeInit_cases h₁
        cases hc
        exact .inr (.inr ⟨i, rfl, hlt, core_none.2 hnone, set_core σ i _⟩)

/-- **`zs_accept`** hands out what has been accepted. -/
theorem zsAccept_core {r : Except SockErrno (Option ℕ)} (hz : σ.zsockets fd = some zs)
    (hc : zsAccept σ fd = .ok (σ', r)) :
    (σ' = σ ∧ ∃ e, r = .error e) ∨ (zs.type = .listen ∧ r = .ok zs.acceptedFd ∧
      σ'.core = Function.update σ.core fd (some { zs.core with acceptedFd := none })) := by
  unfold zsAccept at hc
  rw [hz] at hc
  simp only at hc
  split at hc
  · cases hc
    exact .inl ⟨rfl, _, rfl⟩
  split at hc
  · cases hc
    exact .inl ⟨rfl, _, rfl⟩
  rename_i ht
  split at hc
  · cases hc
    exact .inl ⟨rfl, _, rfl⟩
  obtain ⟨σ₁, h₁, hc⟩ := zs_bind_ok hc
  split at hc
  · cases hc
  cases hc
  refine .inr ⟨by simpa using ht, rfl, ?_⟩
  rw [set_core, zsUpdateFdState_core h₁, set_core, countDown_core, Function.update_idem]
  rfl

end Zimr
