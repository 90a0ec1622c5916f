import Zimr.Proof.Transfer
import Zimr.Spec.Cell

/-!
# What each function does to the cells

Every function of `zsocket.c` changes the cell of its own descriptor, and `zs_internal_accept`
that of the new one too.
-/

namespace Zimr

open Run

variable {σ σ' : Zs} {fd : ℕ} {zs : Zsocket} {c : Cell} {r : RwRes}

theorem cell_some (h : σ.zsockets fd = some zs) : σ.cell fd = some (σ.cellOf fd zs) := by
  unfold Zs.cell
  rw [h]
  rfl

theorem cell_none (h : σ.zsockets fd = none) : σ.cell fd = none := by
  unfold Zs.cell
  rw [h]
  rfl

theorem cell_eq_none (h : σ.cell fd = none) : σ.zsockets fd = none := by
  unfold Zs.cell at h
  simpa using h

/-- What the cell of an open descriptor says. -/
theorem of_cell (h : σ.cell fd = some c) :
    σ.zsockets fd = some c.sock ∧ ∀ zs, σ.cellOf fd zs = { c with sock := zs } := by
  unfold Zs.cell at h
  obtain ⟨z, hz, rfl⟩ := Option.map_eq_some_iff.1 h
  exact ⟨hz, fun _ => rfl⟩

theorem get_cell (h : σ.get fd = .ok zs) : ∃ c, σ.cell fd = some c ∧ c.sock = zs :=
  ⟨_, cell_some (get_ok h), rfl⟩

theorem assertSock_cell (h : σ.assertSock fd = .ok zs) : ∃ c, σ.cell fd = some c ∧ c.sock = zs :=
  ⟨_, cell_some (assertSock_ok h), rfl⟩

theorem Cell.update_sock (c : Cell) : c.update.sock = c.sock := by
  unfold Cell.update
  split <;> rfl

/-- Of the record the registration depends on the type and the status. -/
theorem Cell.update_with (c : Cell) {zs : Zsocket} (ht : zs.type = c.sock.type)
    (hs : zs.status = c.sock.status) :
    ({ c with sock := zs } : Cell).update = { c.update with sock := zs } := by
  unfold Cell.update
  simp only [ht, hs]
  split <;> rfl

@[simp] theorem Cell.update_update (c : Cell) : c.update.update = c.update := by
  cases ht : c.sock.type <;> simp [Cell.update, ht]

/-! ## Setting a record -/

theorem set_cell (σ : Zs) (fd : ℕ) (zs : Zsocket) :
    (σ.set fd zs).cell = Function.update σ.cell fd (some (σ.cellOf fd zs)) := by
  funext i
  by_cases hi : i = fd
  · rw [hi, Function.update_self]
    exact cell_some (Function.update_self _ _ _)
  · rw [Function.update_of_ne hi]
    unfold Zs.cell
    rw [Zs.set_zsockets, Function.update_of_ne hi]
    rfl

theorem countUp_cell (σ : Zs) (b : Bool) : (σ.countUp b).cell = σ.cell := rfl

theorem set_cell_of (h : σ.cell fd = some c) (zs : Zsocket) :
    (σ.set fd zs).cell = Function.update σ.cell fd (some { c with sock := zs }) := by
  rw [set_cell, (of_cell h).2]

/-- A second change of the same cell. -/
theorem cell_then {x y : Option Cell} {σ₁ : Zs} (h₁ : σ₁.cell = Function.update σ.cell fd x)
    (h₂ : σ'.cell = Function.update σ₁.cell fd y) : σ'.cell = Function.update σ.cell fd y := by
  rw [h₂, h₁, Function.update_idem]

theorem cell_self {x : Option Cell} (h : σ'.cell = Function.update σ.cell fd x) : σ'.cell fd = x := by
  rw [h, Function.update_self]

theorem cell_other {x : Option Cell} {i : ℕ} (h : σ'.cell = Function.update σ.cell fd x)
    (hi : i ≠ fd) : σ'.cell i = σ.cell i := by
  rw [h, Function.update_of_ne hi]

/-! ## The interest -/

/-- The reading side of a registration, set or cleared. -/
theorem regR_ite (z : Zfd) (fd : ℕ) (h : ZfdHdlr) (b : Bool) (i : ℕ) :
    (if b then zfdSetR z fd h else zfdClrR z fd).regR i =
        (if i = fd then (if b then some h else none) else z.regR i) ∧
      (if b then zfdSetR z fd h else zfdClrR z fd).regW i = z.regW i := by
  unfold Zfd.regR Zfd.regW
  cases b <;> by_cases hi : i = fd <;> simp [zfdSetR, zfdClrR, hi]

/-- The writing side. -/
theorem regW_ite (z : Zfd) (fd : ℕ) (h : ZfdHdlr) (b : Bool) (i : ℕ) :
    (if b then zfdSetW z fd h else zfdClrW z fd).regW i =
        (if i = fd then (if b then some h else none) else z.regW i) ∧
      (if b then zfdSetW z fd h else zfdClrW z fd).regR i = z.regR i := by
  unfold Zfd.regR Zfd.regW
  cases b <;> by_cases hi : i = fd <;> simp [zfdSetW, zfdClrW, hi]

/-- **`zs_update_fd_state`.** -/
theorem zsUpdateFdState_cell (h : σ.cell fd = some c) (hc : zsUpdateFdState σ fd = .ok σ') :
    σ'.cell = Function.update σ.cell fd (some c.update) := by
  obtain ⟨zs, hz, rfl⟩ := Option.map_eq_some_iff.1 h
  obtain ⟨z, h₁, hc⟩ := zs_bind_ok hc
  obtain rfl : zs = z := Option.some.inj (hz.symm.trans (assertSock_ok h₁))
  funext i
  have hcond : ∀ z : Zfd, Zs.cell { σ with zfd := z } i =
      (σ.zsockets i).map fun zs => ⟨zs, σ.activeRead i, σ.activeWrite i, z.regR i, z.regW i⟩ :=
    fun _ => rfl
  cases ht : zs.type with
  | connect =>
    simp only [ht] at hc
    cases hc
    rw [hcond]
    simp only [regR_ite, regW_ite]
    by_cases hi : i = fd
    · rw [hi, Function.update_self, hz, Option.map_some]
      simp only [Cell.update, Zs.cellOf, ht, if_true]
      rfl
    · rw [Function.update_of_ne hi]
      simp only [if_neg hi]
      rfl
  | listen =>
    simp only [ht] at hc
    cases hc
    rw [hcond]
    simp only [regR_ite]
    by_cases hi : i = fd
    · rw [hi, Function.update_self, hz, Option.map_some]
      simp only [Cell.update, Zs.cellOf, ht, if_true]
      rfl
    · rw [Function.update_of_ne hi]
      simp only [if_neg hi]
      rfl

/-- The interest in one socket changes. -/
theorem arm_cell (h : σ.cell fd = some c) {rd wr : ℕ → Bool} {hash : FdHash} {n : ℤ}
    (hrd : ∀ i, i ≠ fd → rd i = σ.activeRead i) (hwr : ∀ i, i ≠ fd → wr i = σ.activeWrite i) :
    Zs.cell { σ with activeRead := rd, activeWrite := wr, activeHash := hash, nSelectable := n } =
      Function.update σ.cell fd (some { c with armR := rd fd, armW := wr fd }) := by
  obtain ⟨zs, hz, rfl⟩ := Option.map_eq_some_iff.1 h
  funext i
  by_cases hi : i = fd
  · rw [hi, Function.update_self]
    unfold Zs.cell
    rw [hz]
    rfl
  · rw [Function.update_of_ne hi]
    unfold Zs.cell Zs.cellOf
    simp only [hrd i hi, hwr i hi]

theorem cellOf_arm (h : σ.cell fd = some c) : c.armR = σ.activeRead fd ∧ c.armW = σ.activeWrite fd := by
  have := (of_cell h).2 c.sock
  unfold Zs.cellOf at this
  rw [Cell.mk.injEq] at this
  exact ⟨this.2.1.symm, this.2.2.1.symm⟩

/-- The interest in one socket changes, and the registration follows. -/
theorem armed_cell (h : σ.cell fd = some c) {rd wr : ℕ → Bool} {hash : FdHash} {n : ℤ} {r w : Bool}
    (hrd : ∀ i, i ≠ fd → rd i = σ.activeRead i) (hwr : ∀ i, i ≠ fd → wr i = σ.activeWrite i)
    (hr : rd fd = r) (hw : wr fd = w)
    (hc : zsUpdateFdState { σ with
      activeRead := rd, activeWrite := wr, activeHash := hash, nSelectable := n } fd = .ok σ') :
    σ'.cell = Function.update σ.cell fd (some ({ c with armR := r, armW := w } : Cell).update) := by
  subst hr hw
  have h₁ : Zs.cell { σ with activeRead := rd, activeWrite := wr, activeHash := hash, nSelectable := n } =
      Function.update σ.cell fd (some { c with armR := rd fd, armW := wr fd }) := arm_cell h hrd hwr
  exact cell_then h₁ (zsUpdateFdState_cell (cell_self h₁) hc)

theorem zsSetRead_cell (h : σ.cell fd = some c) (hc : zsSetRead σ fd = .ok σ') :
    σ'.cell = Function.update σ.cell fd (some ({ c with armR := true } : Cell).update) := by
  obtain ⟨z, -, hc⟩ := zs_bind_ok hc
  exact armed_cell h (fun i hi => Function.update_of_ne hi _ _) (fun _ _ => rfl)
    (Function.update_self _ _ _) (cellOf_arm h).2.symm hc

theorem zsSetWrite_cell (h : σ.cell fd = some c) (hc : zsSetWrite σ fd = .ok σ') :
    σ'.cell = Function.update σ.cell fd (some ({ c with armW := true } : Cell).update) := by
  obtain ⟨z, -, hc⟩ := zs_bind_ok hc
  exact armed_cell h (fun _ _ => rfl) (fun i hi => Function.update_of_ne hi _ _)
    (cellOf_arm h).1.symm (Function.update_self _ _ _) hc

theorem zsClrRead_cell (h : σ.cell fd = some c) (hc : zsClrRead σ fd = .ok σ') :
    σ'.cell = Function.update σ.cell fd (some ({ c with armR := false } : Cell).update) := by
  obtain ⟨z, -, hc⟩ := zs_bind_ok hc
  exact armed_cell h (fun i hi => Function.update_of_ne hi _ _) (fun _ _ => rfl)
    (Function.update_self _ _ _) (cellOf_arm h).2.symm hc

theorem zsClrWrite_cell (h : σ.cell fd = some c) (hc : zsClrWrite σ fd = .ok σ') :
    σ'.cell = Function.update σ.cell fd (some ({ c with armW := false } : Cell).update) := by
  obtain ⟨z, -, hc⟩ := zs_bind_ok hc
  exact armed_cell h (fun _ _ => rfl) (fun i hi => Function.update_of_ne hi _ _)
    (cellOf_arm h).1.symm (Function.update_self _ _ _) hc

/-! ## Closing -/

theorem drop_cell (σ : Zs) (fd : ℕ) :
    Zs.cell { σ with zsockets := Function.update σ.zsockets fd none } =
      Function.update σ.cell fd none := by
  funext i
  by_cases hi : i = fd
  · rw [hi, Function.update_self]
    exact cell_none (Function.update_self _ _ _)
  · rw [Function.update_of_ne hi]
    unfold Zs.cell
    simp only [Function.update_of_ne hi]
    rfl

theorem zsShut_cell (h : σ.cell fd = some c) (hc : zsShut σ fd = .ok σ') :
    σ'.cell = Function.update σ.cell fd none := by
  obtain ⟨σ₁, h₁, hc⟩ := zs_bind_ok hc
  obtain ⟨σ₂, h₂, hc⟩ := zs_bind_ok hc
  cases hc
  -- the registration is cleared
  have h₀ : Zs.cell { σ with zfd := zfdClrW (zfdClrR σ.zfd fd) fd } =
      Function.update σ.cell fd (some { c with regR := none, regW := none }) := by
    obtain ⟨zs, hz, rfl⟩ := Option.map_eq_some_iff.1 h
    have hreg : ∀ i, (zfdClrW (zfdClrR σ.zfd fd) fd).regR i = (if i = fd then none else σ.zfd.regR i) ∧
        (zfdClrW (zfdClrR σ.zfd fd) fd).regW i = if i = fd then none else σ.zfd.regW i := by
      intro i
      unfold Zfd.regR Zfd.regW
      by_cases hi : i = fd <;> simp [zfdClrR, zfdClrW, hi]
    funext i
    unfold Zs.cell Zs.cellOf
    simp only [hreg]
    by_cases hi : i = fd
    · rw [hi, Function.update_self, hz]
      simp
    · rw [Function.update_of_ne hi]
      simp [hi]
  have e₁ := cell_then h₀ (zsClrRead_cell (cell_self h₀) h₁)
  have e₂ := cell_then e₁ (zsClrWrite_cell (cell_self e₁) h₂)
  exact cell_then e₂ (drop_cell σ₂ fd)

/-- **What `zs_close` does to the cell.** -/
theorem zsClose_cell {res : Except SockErrno ℕ} (h : σ.cell fd = some c)
    (hc : zsClose σ fd = .ok (σ', res)) :
    (c.sock.type = .listen ∧ 0 < c.sock.nOpen - 1 ∧ σ'.cell = Function.update σ.cell fd
        (some { c with sock := { c.sock with nOpen := c.sock.nOpen - 1 } })) ∨
      (c.sock.type = .listen ∧ ¬0 < c.sock.nOpen - 1 ∧ σ'.cell = Function.update σ.cell fd none) ∨
      (c.sock.type = .connect ∧ c.sock.status.writing = true ∧ σ'.cell = Function.update σ.cell fd
        (some { ({ c with armR := false, armW := false } : Cell).update with
          sock := { c.sock with status.closed := true } })) ∨
      (c.sock.type = .connect ∧ c.sock.status.writing = false ∧
        σ'.cell = Function.update σ.cell fd none) := by
  have hz := (of_cell h).1
  obtain ⟨hn, -⟩ | ⟨p, hp, -, hcase⟩ := zsClose_cases hc
  · rw [hz] at hn
    cases hn
  obtain rfl : c.sock = p := Option.some.inj (hz.symm.trans hp)
  obtain ⟨ht, hn, rfl⟩ | ⟨ht, hn, h₁⟩ | ⟨ht, hw, σ₁, σ₂, h₁, h₂, rfl⟩ | ⟨ht, hw, h₁⟩ := hcase
  · exact Or.inl ⟨ht, hn, set_cell_of h _⟩
  · have h₀ := set_cell_of h { c.sock with nOpen := c.sock.nOpen - 1 }
    exact Or.inr (Or.inl ⟨ht, hn, cell_then h₀ (zsShut_cell (cell_self h₀) h₁)⟩)
  · have e₁ := zsClrRead_cell h h₁
    have e₂ := cell_then e₁ (zsClrWrite_cell (cell_self e₁) h₂)
    have e₃ := cell_then e₂ (set_cell_of (cell_self e₂) { c.sock with status.closed := true })
    refine Or.inr (Or.inr (Or.inl ⟨ht, hw, ?_⟩))
    rw [e₃]
    congr 2
    simp [Cell.update, ht]
  · exact Or.inr (Or.inr (Or.inr ⟨ht, hw, zsShut_cell h h₁⟩))

/-! ## The reader and the writer -/

theorem zsGot_cell (h : σ.cell fd = some c) (zs : Zsocket) :
    (zsGot σ fd zs).cell = Function.update σ.cell fd (some { c with sock := zs.got }) :=
  set_cell_of (by rw [countUp_cell]; exact h) zs.got

theorem zsReader_plain (h : σ.cell fd = some c) (hs : c.sock.ssl = false)
    (hc : zsReader σ fd r = .ok σ') :
    σ'.cell = Function.update σ.cell fd (some { c with sock := c.sock.readPlain r }) := by
  obtain ⟨zs, h₁, hc⟩ := zs_bind_ok hc
  obtain rfl : c.sock = zs := Option.some.inj ((of_cell h).1.symm.trans (get_ok h₁))
  have hacc : (c.sock.ssl && c.sock.status.accepting) = false := by rw [hs]; rfl
  cases r with
  | wantRead => cases hc; exact set_cell_of h _
  | wantWrite =>
    simp only at hc
    rw [if_neg (by rw [hs]; decide)] at hc
    cases hc
    exact set_cell_of h _
  | fail k e =>
    simp only at hc
    rw [if_neg (by rw [hacc]; decide), if_pos (by rw [hs]; rfl), if_neg (by rw [hs]; decide)] at hc
    cases hc
    exact zsGot_cell h _
  | bytes bs =>
    simp only at hc
    rw [if_neg (by rw [hacc]; decide)] at hc
    unfold Zsocket.readPlain
    simp only
    split at hc
    · rename_i hb
      cases hc
      rw [if_pos hb]
      exact zsGot_cell h _
    · rename_i hb
      rw [if_neg hb]
      split at hc
      · cases hc
      · cases hc
        exact zsGot_cell h _

/-- What no reader or writer changes. -/
structure Zsocket.Kin (zs zs' : Zsocket) : Prop where
  type : zs'.type = zs.type
  ssl : zs'.ssl = zs.ssl
  connected : zs'.status.connected = zs.status.connected
  connecting : zs'.status.connecting = zs.status.connecting

theorem Zsocket.Same.kin {zs zs' : Zsocket} (h : zs.Same zs') : zs.Kin zs' :=
  ⟨h.type, h.ssl, h.connected, h.connecting⟩

theorem Zsocket.Kin.trans {zs₁ zs₂ zs₃ : Zsocket} (h₁ : zs₁.Kin zs₂) (h₂ : zs₂.Kin zs₃) :
    zs₁.Kin zs₃ :=
  ⟨h₂.type.trans h₁.type, h₂.ssl.trans h₁.ssl, h₂.connected.trans h₁.connected,
    h₂.connecting.trans h₁.connecting⟩

theorem zsReader_kin (h : σ.cell fd = some c) (hc : zsReader σ fd r = .ok σ') :
    ∃ zs', c.sock.Kin zs' ∧ σ'.cell = Function.update σ.cell fd (some { c with sock := zs' }) := by
  obtain ⟨zs, zs', hz, hs, -, hσ⟩ := zsReader_cases hc
  obtain rfl : c.sock = zs := Option.some.inj ((of_cell h).1.symm.trans hz)
  obtain rfl | rfl := hσ
  · exact ⟨zs', hs.kin, set_cell_of h _⟩
  · exact ⟨zs'.got, hs.kin.trans ⟨rfl, rfl, rfl, rfl⟩, zsGot_cell h _⟩

theorem zsWritten_cell (h : σ.cell fd = some c) {zs : Zsocket} (ht : zs.type = .connect)
    (hc : zsWritten σ fd zs = .ok σ') :
    σ'.cell = Function.update σ.cell fd
      (if zs.status.closed then none else some { c with sock := zs.written }) := by
  unfold zsWritten at hc
  simp only at hc
  have h₀ : ((σ.countUp (σ.activeWrite fd && !zs.status.writable)).set fd zs.written).cell =
      Function.update σ.cell fd (some { c with sock := zs.written }) :=
    set_cell_of (by rw [countUp_cell]; exact h) zs.written
  split at hc
  · rename_i hcl
    rw [if_pos hcl]
    obtain ⟨⟨σ₂, res⟩, h₂, hc⟩ := zs_bind_ok hc
    cases hc
    obtain ⟨ht', -⟩ | ⟨ht', -⟩ | ⟨-, hw, -⟩ | ⟨-, -, h₃⟩ := zsClose_cell (cell_self h₀) h₂
    · exact absurd (ht.symm.trans ht') (by decide)
    · exact absurd (ht.symm.trans ht') (by decide)
    · cases hw
    · exact cell_then h₀ h₃
  · rename_i hcl
    rw [if_neg hcl]
    cases hc
    exact h₀

theorem zsWriter_plain (h : σ.cell fd = some c) (ht : c.sock.type = .connect)
    (hs : c.sock.ssl = false) (hc : zsWriter σ fd r = .ok σ') :
    σ'.cell = Function.update σ.cell fd (if c.sock.finishes r && c.sock.status.closed then none
      else some { c with sock := c.sock.writePlain r }) := by
  obtain ⟨zs, h₁, hc⟩ := zs_bind_ok hc
  obtain rfl : c.sock = zs := Option.some.inj ((of_cell h).1.symm.trans (get_ok h₁))
  have hacc : (c.sock.ssl && c.sock.status.accepting) = false := by rw [hs]; rfl
  cases r with
  | wantRead =>
    simp only at hc
    rw [if_neg (by rw [hs]; decide)] at hc
    cases hc
    exact set_cell_of h _
  | wantWrite => cases hc; exact set_cell_of h _
  | fail k e =>
    simp only at hc
    rw [if_neg (by rw [hacc]; decide), if_neg (by rw [hs]; decide)] at hc
    rw [zsWritten_cell h (by exact ht) hc]
    unfold Zsocket.finishes
    simp only
    rw [hacc, Bool.not_false, Bool.true_and]
    rfl
  | bytes bs =>
    simp only at hc
    rw [if_neg (by rw [hacc]; decide)] at hc
    unfold Zsocket.writePlain Zsocket.finishes
    simp only
    rw [hacc, Bool.not_false, Bool.true_and]
    split at hc
    · rename_i hrest
      cases hc
      -- more is left
      have hno : (bs.isEmpty || decide (c.sock.write.used ≤ c.sock.write.pos + bs.length)) = false := by
        simp only [Bool.and_eq_true, decide_eq_true_eq] at hrest
        rw [Bool.or_eq_false_iff, decide_eq_false_iff_not]
        refine ⟨?_, by omega⟩
        cases bs with
        | nil => simp at hrest
        | cons b bs => rfl
      rw [hno, if_pos hrest]
      exact set_cell_of h _
    · rename_i hdone
      have := zsWritten_cell h (by exact ht) hc
      rw [this, if_neg hdone]
      have hyes : (bs.isEmpty || decide (c.sock.write.used ≤ c.sock.write.pos + bs.length)) = true := by
        simp only [Bool.and_eq_true, decide_eq_true_eq, not_and, not_not] at hdone
        rw [Bool.or_eq_true, decide_eq_true_eq]
        cases bs with
        | nil => exact Or.inl rfl
        | cons b bs =>
          rw [List.length_cons] at hdone ⊢
          right
          omega
      rw [hyes, Bool.true_and]

theorem zsWriter_kin (h : σ.cell fd = some c) (ht : c.sock.type = .connect)
    (hc : zsWriter σ fd r = .ok σ') :
    σ'.cell = Function.update σ.cell fd none ∨
      ∃ zs', c.sock.Kin zs' ∧ σ'.cell = Function.update σ.cell fd (some { c with sock := zs' }) := by
  obtain ⟨zs, zs', hz, hs, hσ⟩ := zsWriter_cases hc
  obtain rfl : c.sock = zs := Option.some.inj ((of_cell h).1.symm.trans hz)
  obtain rfl | ⟨-, -, hc⟩ := hσ
  · exact Or.inr ⟨zs', hs.kin, set_cell_of h _⟩
  · have := zsWritten_cell h (hs.type.trans ht) hc
    cases hcl : zs'.status.closed with
    | true => rw [hcl] at this; exact Or.inl this
    | false => rw [hcl] at this; exact Or.inr ⟨zs'.written, hs.kin.trans ⟨rfl, rfl, rfl, rfl⟩, this⟩

end Zimr
