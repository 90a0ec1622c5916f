import Mathlib.Algebra.BigOperators.Fin
import Zimr.Lib.Run
import Zimr.Proof.FdHash
import Zimr.Spec.Zsocket

/-!
# The ready counter of `zsocket.c`

`ZsOK` is the invariant: only open sockets are armed, `active_hash` lists the armed ones,
and `n_selectable` counts the sockets that are armed and ready, once for each direction.
Every function keeps it (`ZsOK.step`), so it holds in every run (`zs_counter_exact`).
-/

namespace Zimr

open Run

variable {σ σ' : Zs} {fd : ℕ} {zs zs' : Zsocket}

/-! ## What is counted -/

/-- The socket is open, read-armed and `READABLE`. -/
def Zs.readReady (σ : Zs) (fd : ℕ) : Bool :=
  ((σ.zsockets fd).map fun zs => σ.activeRead fd && zs.status.readable).getD false

/-- The socket is open, write-armed and `WRITABLE`. -/
def Zs.writeReady (σ : Zs) (fd : ℕ) : Bool :=
  ((σ.zsockets fd).map fun zs => σ.activeWrite fd && zs.status.writable).getD false

/-- What one socket adds to the counter. -/
def Zs.weight (σ : Zs) (fd : ℕ) : ℕ := (σ.readReady fd).toNat + (σ.writeReady fd).toNat

/-- The invariant. -/
structure ZsOK (σ : Zs) : Prop where
  fds : ∀ fd zs, σ.zsockets fd = some zs → fd < fdSetSize
  armed : ∀ fd, σ.activeRead fd = true ∨ σ.activeWrite fd = true → ∃ zs, σ.zsockets fd = some zs
  listed : ∃ l, σ.activeHash.Lists l ∧
    ∀ fd, fd ∈ l ↔ σ.activeRead fd = true ∨ σ.activeWrite fd = true
  count : σ.nSelectable = ∑ fd ∈ Finset.range fdSetSize, (σ.weight fd : ℤ)

theorem ZsOK.init : ZsOK zsInit where
  fds := by rintro _ _ ⟨⟩
  armed := by rintro _ (h | h) <;> cases h
  listed := ⟨[], fdHashInit_lists, fun fd => by simp [zsInit]⟩
  count := (Finset.sum_eq_zero fun _ _ => rfl).symm

/-- The registration with `zfd` plays no part. -/
theorem ZsOK.zfd (h : ZsOK σ) (z : Zfd) : ZsOK { σ with zfd := z } :=
  ⟨h.fds, h.armed, h.listed, h.count⟩

/-- The counter follows the one socket that is touched. -/
theorem ZsOK.count_touch (h : ZsOK σ) (hfd : fd < fdSetSize)
    (hother : ∀ i, i ≠ fd → σ'.weight i = σ.weight i)
    (hn : σ'.nSelectable = σ.nSelectable - σ.weight fd + σ'.weight fd) :
    σ'.nSelectable = ∑ i ∈ Finset.range fdSetSize, (σ'.weight i : ℤ) := by
  have hmem : fd ∈ Finset.range fdSetSize := Finset.mem_range.2 hfd
  have hrest : ∑ i ∈ (Finset.range fdSetSize).erase fd, (σ'.weight i : ℤ) =
      ∑ i ∈ (Finset.range fdSetSize).erase fd, (σ.weight i : ℤ) :=
    Finset.sum_congr rfl fun i hi => by rw [hother i (Finset.ne_of_mem_erase hi)]
  have hc := h.count
  rw [← Finset.add_sum_erase _ _ hmem] at hc
  rw [← Finset.add_sum_erase _ _ hmem, hrest]
  omega

theorem Zs.weight_some (h : σ.zsockets fd = some zs) : σ.weight fd =
    (σ.activeRead fd && zs.status.readable).toNat +
      (σ.activeWrite fd && zs.status.writable).toNat := by
  unfold Zs.weight Zs.readReady Zs.writeReady
  rw [h]
  rfl

theorem Zs.weight_none (h : σ.zsockets fd = none) : σ.weight fd = 0 := by
  unfold Zs.weight Zs.readReady Zs.writeReady
  rw [h]
  rfl

theorem Zs.weight_congr (hz : σ'.zsockets fd = σ.zsockets fd)
    (hr : σ'.activeRead fd = σ.activeRead fd) (hw : σ'.activeWrite fd = σ.activeWrite fd) :
    σ'.weight fd = σ.weight fd := by
  unfold Zs.weight Zs.readReady Zs.writeReady
  rw [hz, hr, hw]

@[simp] theorem Zs.set_zsockets : (σ.set fd zs).zsockets = Function.update σ.zsockets fd (some zs) := rfl

@[simp] theorem Zs.set_activeRead : (σ.set fd zs).activeRead = σ.activeRead := rfl

@[simp] theorem Zs.set_activeWrite : (σ.set fd zs).activeWrite = σ.activeWrite := rfl

@[simp] theorem Zs.countUp_zsockets (b : Bool) : (σ.countUp b).zsockets = σ.zsockets := rfl

@[simp] theorem Zs.countUp_activeRead (b : Bool) : (σ.countUp b).activeRead = σ.activeRead := rfl

@[simp] theorem Zs.countUp_activeWrite (b : Bool) : (σ.countUp b).activeWrite = σ.activeWrite := rfl

@[simp] theorem Zs.countUp_nSelectable (b : Bool) :
    (σ.countUp b).nSelectable = σ.nSelectable + b.toNat := by
  cases b <;> simp [Zs.countUp]

@[simp] theorem Zs.countDown_zsockets (b : Bool) : (σ.countDown b).zsockets = σ.zsockets := rfl

@[simp] theorem Zs.countDown_activeRead (b : Bool) : (σ.countDown b).activeRead = σ.activeRead := rfl

@[simp] theorem Zs.countDown_activeWrite (b : Bool) :
    (σ.countDown b).activeWrite = σ.activeWrite := rfl

@[simp] theorem Zs.countDown_nSelectable (b : Bool) :
    (σ.countDown b).nSelectable = σ.nSelectable - b.toNat := by
  cases b <;> simp [Zs.countDown]

/-- A socket's record changes, and the counter with its readiness. -/
theorem ZsOK.set (h : ZsOK σ) (hz : σ.zsockets fd = some zs) (n : ℤ)
    (hn : n = σ.nSelectable
      - ((σ.activeRead fd && zs.status.readable).toNat
        + (σ.activeWrite fd && zs.status.writable).toNat : ℕ)
      + ((σ.activeRead fd && zs'.status.readable).toNat
        + (σ.activeWrite fd && zs'.status.writable).toNat : ℕ)) :
    ZsOK ({ σ with nSelectable := n }.set fd zs') := by
  have hsock : ∀ i, i ≠ fd →
      ({ σ with nSelectable := n }.set fd zs').zsockets i = σ.zsockets i :=
    fun i hi => Function.update_of_ne hi _ _
  have hself : ({ σ with nSelectable := n }.set fd zs').zsockets fd = some zs' :=
    Function.update_self _ _ _
  refine ⟨fun i z hi => ?_, fun i hi => ?_, h.listed, ?_⟩
  · by_cases he : i = fd
    · rw [he]; exact h.fds _ _ hz
    · rw [hsock i he] at hi; exact h.fds _ _ hi
  · by_cases he : i = fd
    · exact ⟨zs', by rw [he]; exact hself⟩
    · rw [hsock i he]; exact h.armed i hi
  · refine h.count_touch (h.fds _ _ hz) (fun i hi => Zs.weight_congr (hsock i hi) rfl rfl) ?_
    rw [Zs.weight_some hz, Zs.weight_some hself]
    exact hn

/-- A socket's record changes, its readiness does not. -/
theorem ZsOK.set_same (h : ZsOK σ) (hz : σ.zsockets fd = some zs)
    (hr : zs'.status.readable = zs.status.readable)
    (hw : zs'.status.writable = zs.status.writable) : ZsOK (σ.set fd zs') := by
  have hset : ZsOK ({ σ with nSelectable := σ.nSelectable }.set fd zs') := by
    refine h.set hz σ.nSelectable ?_
    rw [hr, hw]
    omega
  exact hset

/-- A function that ends with a bind has run its parts. -/
theorem zs_bind_ok {α β : Type} {x : Except ZsFault α} {f : α → Except ZsFault β} {b : β}
    (h : (x >>= f) = .ok b) : ∃ a, x = .ok a ∧ f a = .ok b := by
  cases x with
  | ok a => exact ⟨a, rfl, h⟩
  | error e => cases h

theorem assertSock_ok (h : σ.assertSock fd = .ok zs) : σ.zsockets fd = some zs := by
  unfold Zs.assertSock at h
  cases hz : σ.zsockets fd with
  | none => rw [hz] at h; cases h
  | some z => rw [hz] at h; cases h; rfl

theorem get_ok (h : σ.get fd = .ok zs) : σ.zsockets fd = some zs := by
  unfold Zs.get at h
  cases hz : σ.zsockets fd with
  | none => rw [hz] at h; cases h
  | some z => rw [hz] at h; cases h; rfl

theorem getConnect_ok (h : σ.getConnect fd = .ok zs) :
    σ.zsockets fd = some zs ∧ zs.type = .connect := by
  obtain ⟨z, h₁, h⟩ := zs_bind_ok h
  split at h
  · cases h; exact ⟨get_ok h₁, ‹_›⟩
  · cases h

/-! ## The interest in a socket -/

/-- **`zs_update_fd_state`** changes the registration alone. -/
theorem zsUpdateFdState_eq (hc : zsUpdateFdState σ fd = .ok σ') :
    ∃ z, σ' = { σ with zfd := z } ∧ ∃ zs, σ.zsockets fd = some zs := by
  obtain ⟨zs, h₁, hc⟩ := zs_bind_ok hc
  cases ht : zs.type with
  | connect => simp only [ht] at hc; cases hc; exact ⟨_, rfl, zs, assertSock_ok h₁⟩
  | listen => simp only [ht] at hc; cases hc; exact ⟨_, rfl, zs, assertSock_ok h₁⟩

theorem ZsOK.update (h : ZsOK σ) (hc : zsUpdateFdState σ fd = .ok σ') : ZsOK σ' := by
  obtain ⟨z, rfl, -⟩ := zsUpdateFdState_eq hc
  exact h.zfd z

/-- The interest in one socket changes, and with it the counter and the list. -/
theorem ZsOK.arm (h : ZsOK σ) (hz : σ.zsockets fd = some zs) {rd wr : ℕ → Bool} {hash : FdHash}
    (hrd : ∀ i, i ≠ fd → rd i = σ.activeRead i) (hwr : ∀ i, i ≠ fd → wr i = σ.activeWrite i)
    (hl : ∀ l, σ.activeHash.Lists l → (∀ i, i ∈ l ↔ σ.activeRead i = true ∨ σ.activeWrite i = true) →
      ∃ l', hash.Lists l' ∧ ∀ i, i ∈ l' ↔ rd i = true ∨ wr i = true) {n : ℤ}
    (hn : n = σ.nSelectable
      - ((σ.activeRead fd && zs.status.readable).toNat
        + (σ.activeWrite fd && zs.status.writable).toNat : ℕ)
      + ((rd fd && zs.status.readable).toNat + (wr fd && zs.status.writable).toNat : ℕ)) :
    ZsOK { σ with activeRead := rd, activeWrite := wr, activeHash := hash, nSelectable := n } := by
  refine ⟨h.fds, fun i hi => ?_, ?_, ?_⟩
  · by_cases he : i = fd
    · exact ⟨zs, by rw [he]; exact hz⟩
    · simp only [hrd i he, hwr i he] at hi; exact h.armed i hi
  · obtain ⟨l, hlist, hmem⟩ := h.listed
    exact hl l hlist hmem
  · refine h.count_touch (h.fds _ _ hz)
      (fun i hi => Zs.weight_congr rfl (hrd i hi) (hwr i hi)) ?_
    have hself : ({ σ with
        activeRead := rd, activeWrite := wr, activeHash := hash, nSelectable := n } : Zs).zsockets
          fd = some zs := hz
    rw [Zs.weight_some hz, Zs.weight_some hself]
    exact hn

/-- The list after a socket is armed. -/
theorem FdHash.Lists.add_mem {hash : FdHash} {l : List ℕ} {P Q : ℕ → Prop} (h : hash.Lists l)
    (hm : ∀ i, i ∈ l ↔ P i) (hQ : Q fd) (hPQ : ∀ i, i ≠ fd → (Q i ↔ P i)) :
    ∃ l', (fdHashAdd hash fd).Lists l' ∧ ∀ i, i ∈ l' ↔ Q i := by
  refine ⟨_, fdHashAdd_lists h fd, fun i => ?_⟩
  by_cases hf : fd ∈ l
  · rw [if_pos hf]
    by_cases he : i = fd
    · rw [he]; exact ⟨fun _ => hQ, fun _ => hf⟩
    · rw [hPQ i he]; exact hm i
  · rw [if_neg hf, List.mem_append, List.mem_singleton]
    by_cases he : i = fd
    · rw [he]; exact ⟨fun _ => hQ, fun _ => Or.inr rfl⟩
    · rw [hPQ i he, ← hm i]; simp [he]

/-- The list after a socket is disarmed in one direction: `keep` says that the other one is
still armed. -/
theorem FdHash.Lists.remove_mem {hash : FdHash} {l : List ℕ} {P Q : ℕ → Prop} {keep : Bool}
    (h : hash.Lists l) (hm : ∀ i, i ∈ l ↔ P i) (hQ : Q fd ↔ keep = true)
    (hP : keep = true → P fd) (hPQ : ∀ i, i ≠ fd → (Q i ↔ P i)) :
    ∃ l', (if !keep then fdHashRemove hash fd else hash).Lists l' ∧ ∀ i, i ∈ l' ↔ Q i := by
  cases keep with
  | true =>
    refine ⟨l, h, fun i => ?_⟩
    by_cases he : i = fd
    · rw [he, hm]; exact ⟨fun _ => hQ.2 rfl, fun _ => hP rfl⟩
    · rw [hPQ i he]; exact hm i
  | false =>
    refine ⟨_, fdHashRemove_lists h fd, fun i => ?_⟩
    rw [h.nodup.mem_erase_iff]
    by_cases he : i = fd
    · rw [he, hQ]; simp
    · rw [hPQ i he, ← hm i]; simp [he]

theorem ZsOK.setRead (h : ZsOK σ) (hc : zsSetRead σ fd = .ok σ') : ZsOK σ' := by
  obtain ⟨zs, h₁, hc⟩ := zs_bind_ok hc
  have hz := assertSock_ok h₁
  refine ZsOK.update (h.arm hz (fun i hi => Function.update_of_ne hi _ _) (fun _ _ => rfl) ?_ ?_) hc
  · intro l hl hm
    refine hl.add_mem hm (Or.inl (Function.update_self _ _ _)) fun i hi => ?_
    rw [Function.update_of_ne hi]
    rfl
  · simp only [Function.update_self, Zs.countUp_nSelectable, Zs.countUp_activeRead]
    cases σ.activeRead fd <;> cases zs.status.readable <;> simp

theorem ZsOK.setWrite (h : ZsOK σ) (hc : zsSetWrite σ fd = .ok σ') : ZsOK σ' := by
  obtain ⟨zs, h₁, hc⟩ := zs_bind_ok hc
  have hz := assertSock_ok h₁
  refine ZsOK.update (h.arm hz (fun _ _ => rfl) (fun i hi => Function.update_of_ne hi _ _) ?_ ?_) hc
  · intro l hl hm
    refine hl.add_mem hm (Or.inr (Function.update_self _ _ _)) fun i hi => ?_
    rw [Function.update_of_ne hi]
    rfl
  · simp only [Function.update_self, Zs.countUp_nSelectable, Zs.countUp_activeWrite]
    cases σ.activeWrite fd <;> cases zs.status.writable <;> simp
    omega

theorem ZsOK.clrRead (h : ZsOK σ) (hc : zsClrRead σ fd = .ok σ') : ZsOK σ' := by
  obtain ⟨zs, h₁, hc⟩ := zs_bind_ok hc
  have hz := assertSock_ok h₁
  refine ZsOK.update (h.arm hz (fun i hi => Function.update_of_ne hi _ _) (fun _ _ => rfl) ?_ ?_) hc
  · intro l hl hm
    refine hl.remove_mem hm ?_ (fun hk => Or.inr hk) fun i hi => ?_
    · simp
    · rw [Function.update_of_ne hi]
      rfl
  · simp only [Function.update_self, Zs.countDown_nSelectable, Zs.countDown_activeRead]
    cases σ.activeRead fd <;> cases zs.status.readable <;> simp
    omega

theorem ZsOK.clrWrite (h : ZsOK σ) (hc : zsClrWrite σ fd = .ok σ') : ZsOK σ' := by
  obtain ⟨zs, h₁, hc⟩ := zs_bind_ok hc
  have hz := assertSock_ok h₁
  refine ZsOK.update (h.arm hz (fun _ _ => rfl) (fun i hi => Function.update_of_ne hi _ _) ?_ ?_) hc
  · intro l hl hm
    refine hl.remove_mem hm ?_ (fun hk => Or.inl hk) fun i hi => ?_
    · simp
    · rw [Function.update_of_ne hi]
      rfl
  · simp only [Function.update_self, Zs.countDown_nSelectable, Zs.countDown_activeWrite]
    cases σ.activeWrite fd <;> cases zs.status.writable <;> simp
    omega

theorem zsClrRead_eq (hc : zsClrRead σ fd = .ok σ') : σ'.zsockets = σ.zsockets ∧
    σ'.activeRead = Function.update σ.activeRead fd false ∧ σ'.activeWrite = σ.activeWrite := by
  obtain ⟨zs, h₁, hc⟩ := zs_bind_ok hc
  obtain ⟨z, rfl, -⟩ := zsUpdateFdState_eq hc
  exact ⟨rfl, rfl, rfl⟩

theorem zsClrWrite_eq (hc : zsClrWrite σ fd = .ok σ') : σ'.zsockets = σ.zsockets ∧
    σ'.activeRead = σ.activeRead ∧ σ'.activeWrite = Function.update σ.activeWrite fd false := by
  obtain ⟨zs, h₁, hc⟩ := zs_bind_ok hc
  obtain ⟨z, rfl, -⟩ := zsUpdateFdState_eq hc
  exact ⟨rfl, rfl, rfl⟩

/-! ## Closing -/

/-- A socket that is not armed is dropped. -/
theorem ZsOK.drop (h : ZsOK σ) (hr : σ.activeRead fd = false) (hw : σ.activeWrite fd = false) :
    ZsOK { σ with zsockets := Function.update σ.zsockets fd none } := by
  have hne : ∀ i, σ.activeRead i = true ∨ σ.activeWrite i = true → i ≠ fd := by
    rintro i hi rfl
    rw [hr, hw] at hi
    simp at hi
  have hweight : ∀ i, Zs.weight { σ with zsockets := Function.update σ.zsockets fd none } i =
      σ.weight i := by
    intro i
    by_cases he : i = fd
    · subst he
      rw [Zs.weight_none (Function.update_self _ _ _)]
      cases hz : σ.zsockets i with
      | none => rw [Zs.weight_none hz]
      | some zs => rw [Zs.weight_some hz, hr, hw]; rfl
    · exact Zs.weight_congr (Function.update_of_ne he _ _) rfl rfl
  refine ⟨fun i zs hi => ?_, fun i hi => ?_, h.listed, ?_⟩
  · by_cases he : i = fd
    · simp only [he, Function.update_self] at hi; cases hi
    · simp only [Function.update_of_ne he] at hi; exact h.fds _ _ hi
  · simp only [Function.update_of_ne (hne i hi)]
    exact h.armed i hi
  · have hc := h.count
    simp only [← hweight] at hc
    exact hc

theorem ZsOK.shut (h : ZsOK σ) (hc : zsShut σ fd = .ok σ') : ZsOK σ' := by
  obtain ⟨σ₁, h₁, hc⟩ := zs_bind_ok hc
  obtain ⟨σ₂, h₂, hc⟩ := zs_bind_ok hc
  cases hc
  have hr := (zsClrRead_eq h₁).2.1
  have hw := (zsClrWrite_eq h₂).2
  refine ((h.zfd _).clrRead h₁ |>.clrWrite h₂).drop ?_ ?_
  · rw [hw.1, hr, Function.update_self]
  · rw [hw.2, Function.update_self]

/-- **What `zs_close` can do.** -/
theorem zsClose_cases {r : Except SockErrno ℕ} (hc : zsClose σ fd = .ok (σ', r)) :
    (σ.zsockets fd = none ∧ σ' = σ ∧ r = .error .ebadf) ∨
      ∃ p, σ.zsockets fd = some p ∧ r = .ok 0 ∧
        ((p.type = .listen ∧ 0 < p.nOpen - 1 ∧ σ' = σ.set fd { p with nOpen := p.nOpen - 1 }) ∨
          (p.type = .listen ∧ ¬0 < p.nOpen - 1 ∧
            zsShut (σ.set fd { p with nOpen := p.nOpen - 1 }) fd = .ok σ') ∨
          (p.type = .connect ∧ p.status.writing = true ∧
            ∃ σ₁ σ₂, zsClrRead σ fd = .ok σ₁ ∧ zsClrWrite σ₁ fd = .ok σ₂ ∧
              σ' = σ₂.set fd { p with status.closed := true }) ∨
          (p.type = .connect ∧ p.status.writing = false ∧ zsShut σ fd = .ok σ')) := by
  unfold zsClose at hc
  cases hz : σ.zsockets fd with
  | none => rw [hz] at hc; cases hc; exact Or.inl ⟨rfl, rfl, rfl⟩
  | some p =>
    rw [hz] at hc
    refine Or.inr ⟨p, rfl, ?_⟩
    simp only at hc
    split at hc <;> rename_i ht <;> split_ifs at hc with hif
    · cases hc; exact ⟨rfl, Or.inl ⟨ht, hif, rfl⟩⟩
    · obtain ⟨σ₂, h₂, hc⟩ := zs_bind_ok hc
      cases hc; exact ⟨rfl, Or.inr (Or.inl ⟨ht, hif, h₂⟩)⟩
    · obtain ⟨σ₁, h₁, hc⟩ := zs_bind_ok hc
      obtain ⟨σ₂, h₂, hc⟩ := zs_bind_ok hc
      cases hc; exact ⟨rfl, Or.inr (Or.inr (Or.inl ⟨ht, hif, σ₁, σ₂, h₁, h₂, rfl⟩))⟩
    · obtain ⟨σ₂, h₂, hc⟩ := zs_bind_ok hc
      cases hc
      exact ⟨rfl, Or.inr (Or.inr (Or.inr ⟨ht, Bool.eq_false_iff.2 hif, h₂⟩))⟩

theorem ZsOK.close {r : Except SockErrno ℕ} (h : ZsOK σ) (hc : zsClose σ fd = .ok (σ', r)) :
    ZsOK σ' := by
  obtain ⟨-, rfl, -⟩ | ⟨p, hz, -, ⟨-, -, rfl⟩ | ⟨-, -, h₂⟩ | ⟨-, -, σ₁, σ₂, h₁, h₂, rfl⟩ | ⟨-, -, h₂⟩⟩ :=
    zsClose_cases hc
  · exact h
  · exact h.set_same hz rfl rfl
  · have h₁ : ZsOK (σ.set fd { p with nOpen := p.nOpen - 1 }) := h.set_same hz rfl rfl
    exact h₁.shut h₂
  · -- the close waits for the write
    have hz₂ : σ₂.zsockets fd = some p := by
      rw [(zsClrWrite_eq h₂).1, (zsClrRead_eq h₁).1]; exact hz
    exact ((h.clrRead h₁).clrWrite h₂).set_same hz₂ rfl rfl
  · exact h.shut h₂

/-! ## The callbacks -/

/-- A direction of a socket becomes ready, and is counted if it was not and is armed. -/
theorem ZsOK.becomes_writable (h : ZsOK σ) (hz : σ.zsockets fd = some zs)
    (hr : zs'.status.readable = zs.status.readable) (hw : zs'.status.writable = true) :
    ZsOK ((σ.countUp (σ.activeWrite fd && !zs.status.writable)).set fd zs') := by
  refine h.set hz _ ?_
  rw [hr, hw]
  cases σ.activeWrite fd <;> cases zs.status.writable <;> simp
  omega

theorem ZsOK.becomes_readable (h : ZsOK σ) (hz : σ.zsockets fd = some zs)
    (hr : zs'.status.readable = true) (hw : zs'.status.writable = zs.status.writable) :
    ZsOK ((σ.countUp (σ.activeRead fd && !zs.status.readable)).set fd zs') := by
  refine h.set hz _ ?_
  rw [hr, hw]
  cases σ.activeRead fd <;> cases zs.status.readable <;> simp

/-- What the reader and the writer leave alone until they are done. -/
structure Zsocket.Same (zs zs' : Zsocket) : Prop where
  type : zs'.type = zs.type
  addr : zs'.addr = zs.addr
  portno : zs'.portno = zs.portno
  eventHdlr : zs'.eventHdlr = zs.eventHdlr
  ssl : zs'.ssl = zs.ssl
  nOpen : zs'.nOpen = zs.nOpen
  acceptedFd : zs'.acceptedFd = zs.acceptedFd
  connected : zs'.status.connected = zs.status.connected
  connecting : zs'.status.connecting = zs.status.connecting
  readable : zs'.status.readable = zs.status.readable
  writable : zs'.status.writable = zs.status.writable
  writing : zs'.status.writing = zs.status.writing
  closed : zs'.status.closed = zs.status.closed

theorem Zsocket.accepted_same (zs : Zsocket) : Zsocket.Same zs zs.accepted := by
  unfold Zsocket.accepted
  split_ifs <;> constructor <;> rfl

theorem Zsocket.accepted_want (zs : Zsocket) :
    zs.accepted.status.wantReadFromWrite = zs.status.wantReadFromWrite := by
  unfold Zsocket.accepted
  split_ifs <;> rfl

/-- **What `zs_writer` can do.** -/
theorem zsWriter_cases {r : RwRes} (hc : zsWriter σ fd r = .ok σ') :
    ∃ zs zs', σ.zsockets fd = some zs ∧ Zsocket.Same zs zs' ∧
      (σ' = σ.set fd zs' ∨
        (zs.finishes r = true ∧ zs'.status = zs.status ∧ zsWritten σ fd zs' = .ok σ')) := by
  obtain ⟨zs, h₁, hc⟩ := zs_bind_ok hc
  refine ⟨zs, ?_⟩
  have hz := get_ok h₁
  cases r with
  | wantRead =>
    simp only at hc
    split at hc <;> cases hc <;> exact ⟨_, hz, by constructor <;> rfl, Or.inl rfl⟩
  | wantWrite => cases hc; exact ⟨_, hz, by constructor <;> rfl, Or.inl rfl⟩
  | fail k e =>
    simp only at hc
    split at hc
    · cases hc
      refine ⟨_, hz, ?_, Or.inl rfl⟩
      have hs := Zsocket.accepted_same { zs with write.rwErrno := some (if zs.ssl then .eproto else e) }
      exact ⟨hs.1, hs.2, hs.3, hs.4, hs.5, hs.6, hs.7, hs.8, hs.9, hs.10, hs.11, hs.12, hs.13⟩
    · rename_i hacc
      refine ⟨_, hz, ?_, Or.inr ⟨?_, ?_, hc⟩⟩
      · constructor <;> rfl
      · unfold Zsocket.finishes
        rw [Bool.eq_false_iff.2 hacc]
        rfl
      · rfl
  | bytes bs =>
    simp only at hc
    split at hc
    · cases hc; exact ⟨_, hz, Zsocket.accepted_same zs, Or.inl rfl⟩
    · rename_i hacc
      split at hc
      · cases hc; exact ⟨_, hz, by constructor <;> rfl, Or.inl rfl⟩
      · rename_i hdone
        refine ⟨_, hz, ?_, Or.inr ⟨?_, ?_, hc⟩⟩
        · constructor <;> rfl
        · unfold Zsocket.finishes
          rw [Bool.eq_false_iff.2 hacc]
          simp only [Bool.and_eq_true, decide_eq_true_eq, not_and, not_not] at hdone
          simp only [Bool.not_false, Bool.true_and, Bool.or_eq_true, List.isEmpty_iff,
            decide_eq_true_eq]
          rcases Nat.eq_zero_or_pos bs.length with h0 | hpos
          · exact Or.inl (List.length_eq_zero_iff.1 h0)
          · right
            by_cases hn : 0 < min bs.length (zs.write.used - zs.write.pos)
            · have := hdone hn; omega
            · omega
        · rfl

/-- **What `zs_reader` can do.** -/
theorem zsReader_cases {r : RwRes} (hc : zsReader σ fd r = .ok σ') :
    ∃ zs zs', σ.zsockets fd = some zs ∧ Zsocket.Same zs zs' ∧
      zs'.status.wantReadFromWrite = zs.status.wantReadFromWrite ∧
      (σ' = σ.set fd zs' ∨ σ' = zsGot σ fd zs') := by
  obtain ⟨zs, h₁, hc⟩ := zs_bind_ok hc
  refine ⟨zs, ?_⟩
  have hz := get_ok h₁
  cases r with
  | wantRead => cases hc; exact ⟨_, hz, by constructor <;> rfl, by rfl, Or.inl rfl⟩
  | wantWrite =>
    simp only at hc
    split at hc <;> cases hc <;> exact ⟨_, hz, by constructor <;> rfl, by rfl, Or.inl rfl⟩
  | fail k e =>
    simp only at hc
    split at hc
    · cases hc
      refine ⟨_, hz, ?_, by exact Zsocket.accepted_want _, Or.inl rfl⟩
      have hs := Zsocket.accepted_same { zs with read.rwErrno := some (if zs.ssl then .eproto else e) }
      exact ⟨hs.1, hs.2, hs.3, hs.4, hs.5, hs.6, hs.7, hs.8, hs.9, hs.10, hs.11, hs.12, hs.13⟩
    · split at hc <;> cases hc <;> exact ⟨_, hz, by constructor <;> rfl, by rfl, Or.inr rfl⟩
  | bytes bs =>
    simp only at hc
    split at hc
    · cases hc; exact ⟨_, hz, Zsocket.accepted_same zs, Zsocket.accepted_want zs, Or.inl rfl⟩
    · split at hc
      · cases hc; exact ⟨_, hz, by constructor <;> rfl, by rfl, Or.inr rfl⟩
      · split at hc
        · cases hc
        · cases hc; exact ⟨_, hz, by constructor <;> rfl, by rfl, Or.inr rfl⟩

theorem ZsOK.connecter {r : RwRes} (h : ZsOK σ) (hc : zsConnecter σ fd r = .ok σ') : ZsOK σ' := by
  obtain ⟨zs, h₁, hc⟩ := zs_bind_ok hc
  have hz := get_ok h₁
  simp only at hc
  split at hc
  · cases r with
    | wantRead => cases hc; exact h.set_same hz rfl rfl
    | wantWrite => cases hc; exact h.set_same hz rfl rfl
    | fail k e => cases hc; exact h.becomes_writable hz rfl rfl
    | bytes bs => cases hc; exact h.becomes_writable hz rfl rfl
  · cases hc; exact h.becomes_writable hz rfl rfl

theorem ZsOK.written (h : ZsOK σ) (hz : σ.zsockets fd = some zs) (hs : Zsocket.Same zs zs')
    (hc : zsWritten σ fd zs' = .ok σ') : ZsOK σ' := by
  unfold zsWritten at hc
  have h₁ : ZsOK ((σ.countUp (σ.activeWrite fd && !zs.status.writable)).set fd { zs' with
      write.buffer := none, status.writable := true, status.writing := false }) :=
    h.becomes_writable hz hs.readable rfl
  rw [← hs.writable] at h₁
  simp only at hc
  split at hc
  · obtain ⟨⟨σ₂, r⟩, h₂, hc⟩ := zs_bind_ok hc
    cases hc; exact h₁.close h₂
  · cases hc; exact h₁

theorem ZsOK.writer {r : RwRes} (h : ZsOK σ) (hc : zsWriter σ fd r = .ok σ') : ZsOK σ' := by
  obtain ⟨zs, zs', hz, hs, rfl | ⟨-, -, hc⟩⟩ := zsWriter_cases hc
  · exact h.set_same hz hs.readable hs.writable
  · exact h.written hz hs hc

theorem ZsOK.reader {r : RwRes} (h : ZsOK σ) (hc : zsReader σ fd r = .ok σ') : ZsOK σ' := by
  obtain ⟨zs, zs', hz, hs, -, rfl | rfl⟩ := zsReader_cases hc
  · exact h.set_same hz hs.readable hs.writable
  · have h₁ : ZsOK ((σ.countUp (σ.activeRead fd && !zs.status.readable)).set fd { zs' with
        status.readable := true, status.reading := false }) :=
      h.becomes_readable hz rfl hs.writable
    rw [← hs.readable] at h₁
    exact h₁

theorem ZsOK.accepter (h : ZsOK σ) (hc : zsAccepter σ fd = .ok σ') : ZsOK σ' := by
  obtain ⟨zs, -, hc⟩ := zs_bind_ok hc
  split at hc
  · cases hc
  obtain ⟨p, hp, hc⟩ := zs_bind_ok hc
  -- the parent has a connection to hand out
  have h₁ : ZsOK ((σ.countUp (σ.activeRead zs.nOpen.toNat && !p.status.readable)).set zs.nOpen.toNat { p with
      status.readable := true, status.accepting := false }) :=
    h.becomes_readable (get_ok hp) rfl rfl
  obtain ⟨σ₂, h₂, hc⟩ := zs_bind_ok hc
  refine ZsOK.update ?_ hc
  split at h₂
  · -- the child is connected
    obtain ⟨zs, hz, h₂⟩ := zs_bind_ok h₂
    cases h₂
    exact h₁.becomes_writable (get_ok hz) rfl rfl
  · cases h₂; exact h₁

/-- A new socket is neither readable nor writable. -/
theorem ZsOK.insert (h : ZsOK σ) (hfd : fd < fdSetSize) (hz : σ.zsockets fd = none)
    (hr : zs.status.readable = false) (hw : zs.status.writable = false) : ZsOK (σ.set fd zs) := by
  have hself : (σ.set fd zs).zsockets fd = some zs := Function.update_self _ _ _
  have hother : ∀ i, i ≠ fd → (σ.set fd zs).zsockets i = σ.zsockets i :=
    fun i hi => Function.update_of_ne hi _ _
  refine ⟨fun i z hi => ?_, fun i hi => ?_, h.listed, ?_⟩
  · by_cases he : i = fd
    · rw [he]; exact hfd
    · rw [hother i he] at hi; exact h.fds _ _ hi
  · by_cases he : i = fd
    · exact ⟨zs, by rw [he]; exact hself⟩
    · rw [hother i he]; exact h.armed i hi
  · refine h.count_touch hfd (fun i hi => Zs.weight_congr (hother i hi) rfl rfl) ?_
    rw [Zs.weight_none hz, Zs.weight_some hself, hr, hw]
    simp only [Bool.and_false, Bool.toNat_false]
    show σ.nSelectable = _
    omega

/-- **What `zs_type_init` can do.** -/
theorem zsTypeInit_cases {type : ZsType} {addr : ℕ} {portno : ℤ} {hdlr : EventHdlr} {ssl : Bool}
    (hc : zsTypeInit σ fd type addr portno hdlr ssl = .ok σ') :
    fd < fdSetSize ∧ σ.zsockets fd = none ∧ σ' = σ.set fd
      { type, addr, portno, eventHdlr := hdlr, ssl, nOpen := if type = .listen then 1 else -1 } := by
  unfold zsTypeInit at hc
  split at hc
  · cases hc
  · rename_i hfd
    split at hc
    · cases hc
    · rename_i hz
      cases hc
      exact ⟨not_le.1 hfd, by simpa using hz, rfl⟩

theorem ZsOK.typeInit {type : ZsType} {addr : ℕ} {portno : ℤ} {hdlr : EventHdlr} {ssl : Bool}
    (h : ZsOK σ) (hc : zsTypeInit σ fd type addr portno hdlr ssl = .ok σ') : ZsOK σ' := by
  obtain ⟨hfd, hz, rfl⟩ := zsTypeInit_cases hc
  exact h.insert hfd hz rfl rfl

theorem ZsOK.internalAccept {a : Except SockErrno (ℕ × ℕ)} (h : ZsOK σ)
    (hc : zsInternalAccept σ fd a = .ok σ') : ZsOK σ' := by
  obtain ⟨zs, h₁, hc⟩ := zs_bind_ok hc
  have hz := get_ok h₁
  cases a with
  | error e =>
    have h₂ : ZsOK (σ.set fd { zs with
      status.accepting := false, acceptedFd := none, acceptedErrno := some e }) :=
      h.set_same hz rfl rfl
    exact h₂.update hc
  | ok new =>
    have h₂ : ZsOK (σ.set fd { zs with status.accepting := true }) := h.set_same hz rfl rfl
    obtain ⟨σ₃, h₃, hc⟩ := zs_bind_ok hc
    have hne : new.1 ≠ fd := by
      rintro rfl
      have := (zsTypeInit_cases h₃).2.1
      simp at this
    have hz₃ : σ₃.zsockets fd = some { zs with status.accepting := true } := by
      obtain ⟨-, -, rfl⟩ := zsTypeInit_cases h₃
      simp [hne.symm]
    have h₄ : ZsOK (σ₃.set fd { zs with status.accepting := true, acceptedFd := some new.1 }) :=
      (h₂.typeInit h₃).set_same hz₃ rfl rfl
    obtain ⟨child, h₅, hc⟩ := zs_bind_ok hc
    obtain ⟨σ₆, h₆, hc⟩ := zs_bind_ok hc
    have h₅ : ZsOK ((σ₃.set fd { zs with
        status.accepting := true, acceptedFd := some new.1 }).set new.1
          { child with nOpen := fd }) := h₄.set_same (get_ok h₅) rfl rfl
    have hok := h₅.accepter h₆
    obtain ⟨σ₇, h₇, hc⟩ := zs_bind_ok hc
    refine ZsOK.update ?_ hc
    split at h₇
    · exact hok.update h₇
    · cases h₇; exact hok

theorem ZsOK.unconnected {r : RwRes} (h : ZsOK σ) (hz : σ.zsockets fd = some zs)
    (hs : Zsocket.Same zs zs') (hc : zsUnconnected σ fd zs' r = .ok σ') : ZsOK σ' := by
  have h₁ : ZsOK (σ.set fd zs') := h.set_same hz hs.readable hs.writable
  unfold zsUnconnected at hc
  split at hc
  · exact h₁.connecter hc
  · exact h₁.accepter hc

/-- The record with which the connecter or the accepter is called. -/
theorem Zsocket.Same.ite {b : Bool} {z₁ z₂ : Zsocket} (h₁ : Zsocket.Same zs z₁)
    (h₂ : Zsocket.Same zs z₂) : Zsocket.Same zs (if b then z₁ else z₂) := by
  cases b
  · exact h₂
  · exact h₁

theorem ZsOK.internalWrite {r₁ r₂ : RwRes} (h : ZsOK σ)
    (hc : zsInternalWrite σ fd r₁ r₂ = .ok σ') : ZsOK σ' := by
  obtain ⟨zs, h₁, hc⟩ := zs_bind_ok hc
  have hz := (getConnect_ok h₁).1
  split at hc
  · obtain ⟨σ₁, h₁, hc⟩ := zs_bind_ok hc
    have hok : ZsOK σ₁ := by
      split at h₁
      · have h₂ : ZsOK (σ.set fd { zs with status.wantWriteFromWrite := false }) :=
          h.set_same hz rfl rfl
        exact h₂.writer h₁
      · cases h₁; exact h
    cases hz₁ : σ₁.zsockets fd with
    | none => rw [hz₁] at hc; cases hc; exact hok
    | some z =>
      rw [hz₁] at hc
      obtain ⟨σ₂, h₂, hc⟩ := zs_bind_ok hc
      refine ZsOK.update ?_ hc
      split at h₂
      · have h₃ : ZsOK (σ₁.set fd { z with status.wantWriteFromRead := false }) :=
          hok.set_same hz₁ rfl rfl
        exact h₃.reader h₂
      · cases h₂; exact hok
  · obtain ⟨σ₁, h₁, hc⟩ := zs_bind_ok hc
    exact (h.unconnected hz (Zsocket.Same.ite (by constructor <;> rfl) (by constructor <;> rfl))
      h₁).update hc

theorem Zsocket.startRead_same (zs : Zsocket) : Zsocket.Same zs zs.startRead := by
  unfold Zsocket.startRead
  exact Zsocket.Same.ite (by constructor <;> rfl) (by constructor <;> rfl)

theorem ZsOK.internalRead {r₁ r₂ : RwRes} (h : ZsOK σ)
    (hc : zsInternalRead σ fd r₁ r₂ = .ok σ') : ZsOK σ' := by
  obtain ⟨zs, h₁, hc⟩ := zs_bind_ok hc
  have hz := (getConnect_ok h₁).1
  split at hc
  · have hs := zs.startRead_same
    obtain ⟨σ₁, h₁, hc⟩ := zs_bind_ok hc
    have hok : ZsOK σ₁ := by
      split at h₁
      · have h₂ : ZsOK (σ.set fd { zs.startRead with status.wantReadFromRead := false }) :=
          h.set_same hz hs.readable hs.writable
        exact h₂.reader h₁
      · cases h₁; exact h.set_same hz hs.readable hs.writable
    obtain ⟨z, hz₁, hc⟩ := zs_bind_ok hc
    obtain ⟨σ₂, h₂, hc⟩ := zs_bind_ok hc
    have hok₂ : ZsOK σ₂ := by
      split at h₂
      · have h₃ : ZsOK (σ₁.set fd { z with status.wantReadFromWrite := false }) :=
          hok.set_same (get_ok hz₁) rfl rfl
        exact h₃.writer h₂
      · cases h₂; exact hok
    cases hz₂ : σ₂.zsockets fd with
    | none => rw [hz₂] at hc; cases hc; exact hok₂
    | some _ => rw [hz₂] at hc; exact hok₂.update hc
  · obtain ⟨σ₁, h₁, hc⟩ := zs_bind_ok hc
    exact (h.unconnected hz (Zsocket.Same.ite (by constructor <;> rfl) (by constructor <;> rfl))
      h₁).update hc

/-! ## The calls -/

theorem ZsOK.zsocket {addr : ℕ} {portno : ℤ} {type : ZsType} {hdlr : EventHdlr} {ssl : Bool}
    {k : SockRes} {r : Except SockErrno ℕ} (h : ZsOK σ)
    (hc : Zimr.zsocket σ addr portno type hdlr ssl k = .ok (σ', r)) : ZsOK σ' := by
  unfold Zimr.zsocket at hc
  simp only at hc
  split at hc
  · -- one more user of a socket that is there
    obtain ⟨p, hp, hc⟩ := zs_bind_ok hc
    cases hc; exact h.set_same (get_ok hp) rfl rfl
  · split at hc
    · cases hc; exact h
    · split at hc
      · cases hc; exact h
      · obtain ⟨σ₁, h₁, hc⟩ := zs_bind_ok hc
        have hok := h.typeInit h₁
        split at hc
        · cases hc; exact hok
        · obtain ⟨zs, hz, hc⟩ := zs_bind_ok hc
          obtain ⟨σ₂, h₂, hc⟩ := zs_bind_ok hc
          obtain ⟨σ₃, h₃, hc⟩ := zs_bind_ok hc
          cases hc
          exact ZsOK.update (ZsOK.connecter (hok.set_same (get_ok hz) (by rfl) (by rfl)) h₂) h₃

theorem ZsOK.accept {r : Except SockErrno (Option ℕ)} (h : ZsOK σ)
    (hc : zsAccept σ fd = .ok (σ', r)) : ZsOK σ' := by
  unfold zsAccept at hc
  cases hz : σ.zsockets fd with
  | none => rw [hz] at hc; cases hc; exact h
  | some zs =>
    rw [hz] at hc
    simp only at hc
    split at hc
    · cases hc; exact h
    split at hc
    · cases hc; exact h
    split at hc
    · cases hc; exact h
    obtain ⟨σ₁, h₁, hc⟩ := zs_bind_ok hc
    have hok : ZsOK ((σ.countDown (σ.activeRead fd && zs.status.readable)).set fd
        { zs with status.readable := false }) := by
      refine h.set hz _ ?_
      cases σ.activeRead fd <;> cases zs.status.readable <;> simp
      omega
    have hz₁ : σ₁.zsockets fd = some { zs with status.readable := false } := by
      obtain ⟨z, rfl, -⟩ := zsUpdateFdState_eq h₁
      simp
    split at hc
    · cases hc
    · cases hc; exact (hok.update h₁).set_same hz₁ rfl rfl

theorem ZsOK.refill {r : RwRes} (h : ZsOK σ) (hc : zsRefill σ fd r = .ok σ') : ZsOK σ' := by
  obtain ⟨zs, h₁, hc⟩ := zs_bind_ok hc
  have hz := get_ok h₁
  split at hc
  · have hok : ZsOK ((σ.countDown (σ.activeRead fd && zs.status.readable)).set fd
        { zs with read.pos := 0, read.used := 0, status.readable := false }) := by
      refine h.set hz _ ?_
      cases σ.activeRead fd <;> cases zs.status.readable <;> simp
      omega
    obtain ⟨σ₁, h₁, hc⟩ := zs_bind_ok hc
    obtain ⟨z, hz₁, hc⟩ := zs_bind_ok hc
    refine ZsOK.update ?_ hc
    exact (hok.reader h₁).set_same (get_ok hz₁) rfl rfl
  · cases hc; exact h

/-- **What `zs_read` can do.** -/
theorem zsRead_cases {n : ℕ} {a : RwRes} {r : Except SockErrno (List UInt8)}
    (hc : zsRead σ fd n a = .ok (σ', r)) :
    (σ' = σ ∧ (r = .error .ebadf ∨ r = .error .eagain)) ∨
      ∃ zs zs', σ.zsockets fd = some zs ∧ zs.type = .connect ∧ zs.status.closed = false ∧
        zs.status.readable = true ∧ Zsocket.Same zs zs' ∧ zs'.status = zs.status ∧
        zsRefill (σ.set fd zs') fd a = .ok σ' := by
  unfold zsRead at hc
  cases hz : σ.zsockets fd with
  | none => rw [hz] at hc; cases hc; exact Or.inl ⟨rfl, Or.inl rfl⟩
  | some zs =>
    rw [hz] at hc
    simp only at hc
    have hself : σ.set fd zs = σ := by
      unfold Zs.set
      rw [Function.update_eq_self_iff.2 hz.symm]
    split at hc
    · cases hc; exact Or.inl ⟨rfl, Or.inl rfl⟩
    rename_i ht
    simp only [Bool.or_eq_true, decide_eq_true_eq, not_or, not_not, Bool.not_eq_true] at ht
    split at hc
    · cases hc; exact Or.inl ⟨rfl, Or.inr rfl⟩
    rename_i hr
    simp only [Bool.not_eq_true', Bool.not_eq_false] at hr
    refine Or.inr ⟨zs, ?_⟩
    split at hc
    · obtain ⟨σ₁, h₁, hc⟩ := zs_bind_ok hc
      cases hc
      exact ⟨zs, rfl, ht.1, ht.2, hr, by constructor <;> rfl, rfl, by rw [hself]; exact h₁⟩
    · split at hc
      · split at hc
        · cases hc
        · obtain ⟨σ₁, h₁, hc⟩ := zs_bind_ok hc
          cases hc
          exact ⟨zs, rfl, ht.1, ht.2, hr, by constructor <;> rfl, rfl, by rw [hself]; exact h₁⟩
      · split at hc
        · cases hc
        · obtain ⟨σ₁, h₁, hc⟩ := zs_bind_ok hc
          cases hc
          refine ⟨_, rfl, ht.1, ht.2, hr, ?_, ?_, h₁⟩
          · constructor <;> rfl
          · rfl

theorem ZsOK.read {n : ℕ} {a : RwRes} {r : Except SockErrno (List UInt8)} (h : ZsOK σ)
    (hc : zsRead σ fd n a = .ok (σ', r)) : ZsOK σ' := by
  obtain ⟨rfl, -⟩ | ⟨zs, zs', hz, -, -, -, hs, -, hc⟩ := zsRead_cases hc
  · exact h
  · exact (h.set_same hz hs.readable hs.writable).refill hc

/-- **What `zs_write` can do.** -/
theorem zsWrite_cases {buf : List UInt8} {r : Except SockErrno ℕ}
    (hc : zsWrite σ fd buf = .ok (σ', r)) :
    ∃ zs, σ.zsockets fd = some zs ∧
      ((σ' = σ ∧ (zs.type = .connect → zs.status.closed = false →
          zs.status.writable = false ∧ r = .error .eagain) ∧
          (r = .error .ebadf ∨ r = .error .eagain)) ∨
        (zs.type = .connect ∧ zs.status.closed = false ∧ zs.status.writable = true ∧
          zs.write.buffer = none ∧
          ∃ zs', zs'.status.readable = zs.status.readable ∧ zs'.status.writable = false ∧
            zsUpdateFdState ((σ.countDown (σ.activeWrite fd && zs.status.writable)).set fd zs') fd =
              .ok σ' ∧
            ((zs.write.rwErrno ≠ none ∧ r = .error (.other 1) ∧
                zs' = { zs with status.writable := false, write.rwErrno := none }) ∨
              (zs.write.rwErrno = none ∧ r = .ok buf.length ∧ zs' = { zs with
                status.writable := false, status.writing := true
                status.wantWriteFromWrite := true, write.buffer := some buf
                write.used := buf.length, write.pos := 0 })))) := by
  unfold zsWrite at hc
  cases hz : σ.zsockets fd with
  | none => rw [hz] at hc; cases hc
  | some zs =>
    rw [hz] at hc
    simp only at hc
    refine ⟨zs, rfl, ?_⟩
    split at hc
    · rename_i ht
      cases hc
      refine Or.inl ⟨rfl, fun h₁ h₂ => ?_, Or.inl rfl⟩
      simp [h₁, h₂] at ht
    rename_i ht
    simp only [Bool.or_eq_true, decide_eq_true_eq, not_or, not_not, Bool.not_eq_true] at ht
    split at hc
    · rename_i hw
      cases hc
      exact Or.inl ⟨rfl, fun _ _ => ⟨by simpa using hw, rfl⟩, Or.inr rfl⟩
    rename_i hw
    simp only [Bool.not_eq_true', Bool.not_eq_false] at hw
    split at hc
    · cases hc
    rename_i hb
    refine Or.inr ⟨ht.1, ht.2, hw, by simpa using hb, ?_⟩
    split at hc
    · rename_i e he
      obtain ⟨σ₁, h₁, hc⟩ := zs_bind_ok hc
      cases hc
      refine ⟨_, ?_, ?_, h₁, Or.inl ⟨by rw [he]; simp, rfl, rfl⟩⟩
      · rfl
      · rfl
    · rename_i he
      obtain ⟨σ₁, h₁, hc⟩ := zs_bind_ok hc
      cases hc
      refine ⟨_, ?_, ?_, h₁, Or.inr ⟨he, rfl, rfl⟩⟩
      · rfl
      · rfl

theorem ZsOK.write {buf : List UInt8} {r : Except SockErrno ℕ} (h : ZsOK σ)
    (hc : zsWrite σ fd buf = .ok (σ', r)) : ZsOK σ' := by
  obtain ⟨zs, hz, ⟨rfl, -⟩ | ⟨-, -, -, -, zs', hr, hw, hc, -⟩⟩ := zsWrite_cases hc
  · exact h
  · refine ZsOK.update (h.set hz _ ?_) hc
    rw [hr, hw]
    cases σ.activeWrite fd <;> cases zs.status.writable <;> simp
    omega

theorem ZsOK.step (a : ZsAct) (h : ZsOK σ) (hs : σ.step a = .ok σ') : ZsOK σ' := by
  cases a with
  | zsocket addr portno type hdlr ssl k =>
    obtain ⟨⟨σ₁, r⟩, h₁, hs⟩ := zs_bind_ok hs
    cases hs; exact h.zsocket h₁
  | accept fd =>
    obtain ⟨⟨σ₁, r⟩, h₁, hs⟩ := zs_bind_ok hs
    cases hs; exact h.accept h₁
  | read fd n r =>
    obtain ⟨⟨σ₁, r⟩, h₁, hs⟩ := zs_bind_ok hs
    cases hs; exact h.read h₁
  | write fd buf =>
    obtain ⟨⟨σ₁, r⟩, h₁, hs⟩ := zs_bind_ok hs
    cases hs; exact h.write h₁
  | setRead fd => exact h.setRead hs
  | clrRead fd => exact h.clrRead hs
  | setWrite fd => exact h.setWrite hs
  | clrWrite fd => exact h.clrWrite hs
  | close fd =>
    obtain ⟨⟨σ₁, r⟩, h₁, hs⟩ := zs_bind_ok hs
    cases hs; exact h.close h₁
  | zfdRead fd a r₁ r₂ =>
    simp only [Zs.step] at hs
    split at hs
    · split at hs
      · exact h.internalAccept hs
      · exact h.internalRead hs
      · cases hs
    · cases hs; exact h
  | zfdWrite fd r₁ r₂ =>
    simp only [Zs.step] at hs
    split at hs
    · split at hs
      · exact h.internalWrite hs
      · cases hs
    · cases hs; exact h

/-! ## The counter -/

theorem Zs.readReady_iff : σ.readReady fd = true ↔
    ∃ zs, σ.zsockets fd = some zs ∧ σ.activeRead fd = true ∧ zs.status.readable = true := by
  unfold Zs.readReady
  cases σ.zsockets fd <;> simp

theorem Zs.writeReady_iff : σ.writeReady fd = true ↔
    ∃ zs, σ.zsockets fd = some zs ∧ σ.activeWrite fd = true ∧ zs.status.writable = true := by
  unfold Zs.writeReady
  cases σ.zsockets fd <;> simp

/-- The sockets that are ready in one direction, counted. -/
theorem card_filter_toNat (p : ℕ → Bool) (n : ℕ) :
    ((Finset.range n).filter fun fd => p fd = true).card = ∑ fd ∈ Finset.range n, (p fd).toNat := by
  rw [Finset.card_filter]
  refine Finset.sum_congr rfl fun fd _ => ?_
  cases p fd <;> rfl

theorem ZsOK.counts (h : ZsOK σ) : σ.nSelectable =
    (((Finset.range fdSetSize).filter fun fd => σ.readReady fd = true).card : ℤ) +
      ((Finset.range fdSetSize).filter fun fd => σ.writeReady fd = true).card := by
  rw [card_filter_toNat, card_filter_toNat, h.count]
  unfold Zs.weight
  push_cast
  exact Finset.sum_add_distrib

/-- `zs_select` walks the list of `active_hash`. -/
theorem ZsOK.needSelect_iff (h : ZsOK σ) : zsNeedSelect σ = true ↔
    ∃ l, σ.activeHash.Lists l ∧ ∃ fd ∈ l, σ.readReady fd = true ∨ σ.writeReady fd = true := by
  unfold zsNeedSelect
  rw [decide_eq_true_eq]
  constructor
  · intro hne
    rw [h.count] at hne
    obtain ⟨fd, -, hfd⟩ := Finset.exists_ne_zero_of_sum_ne_zero hne
    obtain ⟨l, hl, hmem⟩ := h.listed
    refine ⟨l, hl, fd, ?_⟩
    have hready : σ.readReady fd = true ∨ σ.writeReady fd = true := by
      unfold Zs.weight at hfd
      cases hr : σ.readReady fd with
      | true => exact Or.inl rfl
      | false =>
        cases hw : σ.writeReady fd with
        | true => exact Or.inr rfl
        | false => rw [hr, hw] at hfd; exact absurd rfl hfd
    refine ⟨(hmem fd).2 ?_, hready⟩
    rcases hready with hr | hw
    · obtain ⟨-, -, ha, -⟩ := Zs.readReady_iff.1 hr
      exact Or.inl ha
    · obtain ⟨-, -, ha, -⟩ := Zs.writeReady_iff.1 hw
      exact Or.inr ha
  · rintro ⟨-, -, fd, -, hready⟩ hz
    have hopen : ∃ zs, σ.zsockets fd = some zs := by
      rcases hready with hr | hw
      · obtain ⟨zs, hz, -⟩ := Zs.readReady_iff.1 hr
        exact ⟨zs, hz⟩
      · obtain ⟨zs, hz, -⟩ := Zs.writeReady_iff.1 hw
        exact ⟨zs, hz⟩
    obtain ⟨zs, hopen⟩ := hopen
    have hc := h.count
    rw [hz] at hc
    have hsum : ∑ fd ∈ Finset.range fdSetSize, σ.weight fd = 0 := by exact_mod_cast hc.symm
    have h₀ := Finset.sum_eq_zero_iff.1 hsum fd (Finset.mem_range.2 (h.fds _ _ hopen))
    unfold Zs.weight at h₀
    rcases hready with hr | hw
    · rw [hr, Bool.toNat_true] at h₀; omega
    · rw [hw, Bool.toNat_true] at h₀; omega

/-- **The ready counter is exact**, in every run of the layer. -/
theorem zs_counter_exact (acts : List ZsAct) (σ : Zs) (hrun : run Zs.step zsInit acts = .ok σ) :
    σ.nSelectable =
        (((Finset.range fdSetSize).filter fun fd => σ.readReady fd = true).card : ℤ) +
          ((Finset.range fdSetSize).filter fun fd => σ.writeReady fd = true).card ∧
      (zsNeedSelect σ = true ↔
        ∃ l, σ.activeHash.Lists l ∧ ∃ fd ∈ l, σ.readReady fd = true ∨ σ.writeReady fd = true) := by
  have h : ZsOK σ := run_inv (C := fun _ _ => True) (fun _ a _ hI _ hs => ZsOK.step a hI hs) acts _ _
    ZsOK.init (Along.of_forall (P := fun _ => True) fun _ _ => trivial) hrun
  exact ⟨h.counts, h.needSelect_iff⟩

/-- A connection is armed both ways, is written to, and its peer answers. -/
def connectedRun : List ZsAct :=
  [.zsocket 0 80 .connect .msgZsocket false ⟨.ok 3, true, .bytes []⟩, .setWrite 3, .setRead 3,
    .write 3 [1], .zfdRead 3 (.error .eagain) (.bytes [2]) (.bytes [])]

theorem zs_counter_exact_connected :
    ∃ σ, run Zs.step zsInit connectedRun = .ok σ ∧ σ.nSelectable = 1 ∧
      σ.nSelectable =
        (((Finset.range fdSetSize).filter fun fd => σ.readReady fd = true).card : ℤ) +
          ((Finset.range fdSetSize).filter fun fd => σ.writeReady fd = true).card ∧
      (zsNeedSelect σ = true ↔
        ∃ l, σ.activeHash.Lists l ∧ ∃ fd ∈ l, σ.readReady fd = true ∨ σ.writeReady fd = true) := by
  obtain ⟨σ, h⟩ : ∃ σ, run Zs.step zsInit connectedRun = .ok σ := ⟨_, rfl⟩
  have hn : (run Zs.step zsInit connectedRun).toOption.map (·.nSelectable) = some 1 := by decide
  rw [h] at hn
  exact ⟨σ, h, by simpa [Except.toOption] using hn, zs_counter_exact connectedRun σ h⟩

end Zimr
