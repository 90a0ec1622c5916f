import Zimr.Proof.Cell

/-!
# What a step does to a descriptor

`Traced.step_cells`: every step is, for each descriptor, one of the moves of `CellStep`.
-/

namespace Zimr

open Run

variable {σ σ' : Zs} {t t' : Traced} {fd : ℕ} {zs : Zsocket} {c : Cell} {r : RwRes}

/-- A step that touches one descriptor. -/
structure Traced.Only (t t' : Traced) (fd : ℕ) : Prop where
  cell : ∀ i, i ≠ fd → t'.zs.cell i = t.zs.cell i
  log : ∀ i, i ≠ fd → t'.log i = t.log i
  uses : ∀ i, i ≠ fd → t'.uses i = t.uses i

/-- The step of one descriptor, and of all the others. -/
def Traced.Sees (t t' : Traced) (i : ℕ) : Prop :=
  CellStep (t.zs.cell i) (t.log i) (t.uses i) (t'.zs.cell i) (t'.log i) (t'.uses i)

theorem Traced.Only.sees (h : t.Only t' fd) (hfd : t.Sees t' fd) (i : ℕ) : t.Sees t' i := by
  by_cases hi : i = fd
  · rw [hi]; exact hfd
  · unfold Traced.Sees
    rw [h.cell i hi, h.log i hi, h.uses i hi]
    exact CellStep.same _ _ _

theorem Traced.sees_refl (t : Traced) (i : ℕ) : t.Sees t i := CellStep.same _ _ _

/-- Only the sockets change, at one descriptor. -/
theorem Traced.only_of_cell {x : Option Cell} (h : σ.cell = Function.update t.zs.cell fd x) :
    t.Only { t with zs := σ } fd :=
  ⟨fun _ hi => cell_other h hi, fun _ _ => rfl, fun _ _ => rfl⟩

/-! ## The interest -/

theorem sees_arm (h : t.zs.cell fd = some c) (hok : c.OK) {rd wr : Bool}
    (hc : σ.cell = Function.update t.zs.cell fd (some ({ c with armR := rd, armW := wr } : Cell).update))
    (i : ℕ) : t.Sees { t with zs := σ } i := by
  refine (Traced.only_of_cell hc).sees ?_ i
  unfold Traced.Sees
  rw [h, cell_self hc]
  cases ht : c.sock.type with
  | listen => exact CellStep.listen _ _ ht (.arm _ _)
  | connect =>
    cases hs : c.sock.ssl with
    | false => exact CellStep.plain _ _ ht hs (.arm _ _)
    | true =>
      refine CellStep.secure _ _ _ _ ht hs ?_
      rintro c' ⟨⟩
      refine ⟨?_, ?_, ?_, Cell.update_update _⟩
      · rw [Cell.update_sock]; exact ht
      · rw [Cell.update_sock]; exact hs
      · rw [Cell.update_sock]; exact hok.live ht

/-! ## Closing -/

theorem sees_close {res : Except SockErrno ℕ} {u : SockUses} (h : t.zs.cell fd = some c) (hok : c.OK)
    (hu : u = { t.uses fd with closes := (t.uses fd).closes + 1 }) (hc : zsClose t.zs fd = .ok (σ, res))
    (i : ℕ) : t.Sees { t with zs := σ, uses := Function.update t.uses fd u } i := by
  have honly : ∀ {x}, σ.cell = Function.update t.zs.cell fd x →
      t.Only { t with zs := σ, uses := Function.update t.uses fd u } fd := fun hx =>
    ⟨fun _ hi => cell_other hx hi, fun _ _ => rfl, fun _ hi => Function.update_of_ne hi _ _⟩
  obtain ⟨ht, hn, hx⟩ | ⟨ht, hn, hx⟩ | ⟨ht, hw, hx⟩ | ⟨ht, hw, hx⟩ := zsClose_cell h hc
  all_goals
    refine (honly hx).sees ?_ i
    unfold Traced.Sees
    simp only
    rw [h, cell_self hx, Function.update_self, hu]
  · exact CellStep.listen _ _ ht (.close hn)
  · exact CellStep.listen _ _ ht (.shut hn)
  · cases hs : c.sock.ssl with
    | false => exact CellStep.plain _ _ ht hs (.defer hw)
    | true =>
      refine CellStep.secure _ _ _ _ ht hs ?_
      rintro c' ⟨⟩
      refine ⟨ht, hs, hok.live ht, ?_⟩
      simp [Cell.update, ht, ZsStat.wantsRead, ZsStat.wantsWrite]
  · cases hs : c.sock.ssl with
    | false => exact CellStep.plain _ _ ht hs (.shut hw)
    | true =>
      refine CellStep.secure _ _ _ _ ht hs ?_
      rintro c' ⟨⟩

/-! ## The callbacks of a connection -/

theorem zsReaderT_eq (h : t.zs.cell fd = some c) (hc : zsReaderT t fd r = .ok t') :
    ∃ σ, zsReader t.zs fd r = .ok σ ∧
      t' = { t with zs := σ, log := Function.update t.log fd ((t.log fd).read c.sock r) } := by
  obtain ⟨zs, hz, hc⟩ := zs_bind_ok hc
  obtain rfl : c.sock = zs := Option.some.inj ((of_cell h).1.symm.trans (get_ok hz))
  obtain ⟨σ, hσ, hc⟩ := zs_bind_ok hc
  cases hc
  exact ⟨σ, hσ, rfl⟩

theorem zsWriterT_eq (h : t.zs.cell fd = some c) (hc : zsWriterT t fd r = .ok t') :
    ∃ σ, zsWriter t.zs fd r = .ok σ ∧
      t' = { t with zs := σ, log := Function.update t.log fd ((t.log fd).write c.sock r) } := by
  obtain ⟨zs, hz, hc⟩ := zs_bind_ok hc
  obtain rfl : c.sock = zs := Option.some.inj ((of_cell h).1.symm.trans (get_ok hz))
  obtain ⟨σ, hσ, hc⟩ := zs_bind_ok hc
  cases hc
  exact ⟨σ, hσ, rfl⟩

/-- Only the record and the log of `fd` change. -/
theorem Traced.only_logged {x : Option Cell} {l : SockLog}
    (h : σ.cell = Function.update t.zs.cell fd x) :
    t.Only { t with zs := σ, log := Function.update t.log fd l } fd :=
  ⟨fun _ hi => cell_other h hi, fun _ hi => Function.update_of_ne hi _ _, fun _ _ => rfl⟩

/-- A connection with SSL after a step that keeps what matters of it. -/
theorem Cell.Secure.of_kin {zs : Zsocket} (ht : c.sock.type = .connect) (hs : c.sock.ssl = true)
    (hok : c.OK) (hk : c.sock.Kin zs) : ({ c with sock := zs } : Cell).update.Secure := by
  refine ⟨?_, ?_, ?_, Cell.update_update _⟩
  · rw [Cell.update_sock]; exact hk.type.trans ht
  · rw [Cell.update_sock]; exact hk.ssl.trans hs
  · rw [Cell.update_sock]
    have := hok.live ht
    rwa [← hk.connected, ← hk.connecting] at this

/-- **What `zs_connecter` does.** -/
theorem zsConnecter_cell (h : σ.cell fd = some c) (hc : zsConnecter σ fd r = .ok σ') :
    ∃ zs, σ'.cell = Function.update σ.cell fd (some { c with sock := zs }) ∧
      zs.type = c.sock.type ∧ zs.ssl = c.sock.ssl ∧
      (zs.status.connected = true ∨ zs.status.connecting = c.sock.status.connecting) ∧
      (c.sock.ssl = false → zs = { c.sock with
        status.connected := true, status.writable := true, status.connecting := false }) := by
  obtain ⟨zs, hz, hc⟩ := zs_bind_ok hc
  obtain rfl : c.sock = zs := Option.some.inj ((of_cell h).1.symm.trans (get_ok hz))
  have hset : ∀ (b : Bool) (zs : Zsocket), ((σ.countUp b).set fd zs).cell =
      Function.update σ.cell fd (some { c with sock := zs }) := fun b zs => set_cell_of h zs
  simp only at hc
  split at hc
  · rename_i hs
    have hno : c.sock.ssl = false → False := fun h => by rw [hs] at h; cases h
    cases r with
    | wantRead => cases hc; exact ⟨_, set_cell_of h _, rfl, rfl, Or.inr rfl, fun h => (hno h).elim⟩
    | wantWrite => cases hc; exact ⟨_, set_cell_of h _, rfl, rfl, Or.inr rfl, fun h => (hno h).elim⟩
    | fail k e => cases hc; exact ⟨_, hset _ _, rfl, rfl, Or.inl rfl, fun h => (hno h).elim⟩
    | bytes bs => cases hc; exact ⟨_, hset _ _, rfl, rfl, Or.inl rfl, fun h => (hno h).elim⟩
  · cases hc
    exact ⟨_, hset _ _, rfl, rfl, Or.inl rfl, fun _ => rfl⟩

/-- A connection that is being made is being made, or made, after the callback. -/
theorem zsUnconnected_cell (h : σ.cell fd = some c) (hok : c.OK) (ht : c.sock.type = .connect)
    (hn : c.sock.status.connected = false) {zs : Zsocket} (hk : c.sock.Kin zs)
    (hc : zsUnconnected σ fd zs r = .ok σ') :
    ∃ zs', zs'.type = .connect ∧ zs'.ssl = c.sock.ssl ∧
      (zs'.status.connected = true ∨ zs'.status.connecting = true) ∧
      σ'.cell = Function.update σ.cell fd (some { c with sock := zs' }) := by
  have hcon : c.sock.status.connecting = true := by
    have := hok.live ht
    rwa [hn, Bool.false_eq_true, false_or] at this
  unfold zsUnconnected at hc
  rw [if_pos (hk.connecting.trans hcon)] at hc
  have h₀ := set_cell_of h zs
  obtain ⟨zs', hx, ht', hs', hlive, -⟩ := zsConnecter_cell (cell_self h₀) hc
  refine ⟨zs', ht'.trans (hk.type.trans ht), hs'.trans hk.ssl, ?_, cell_then h₀ hx⟩
  obtain hl | hl := hlive
  · exact Or.inl hl
  · exact Or.inr (hl.trans (hk.connecting.trans hcon))

theorem Zsocket.ite_kin {b : Bool} {zs z₁ z₂ : Zsocket} (h₁ : zs.Kin z₁) (h₂ : zs.Kin z₂) :
    zs.Kin (if b then z₁ else z₂) := by
  cases b
  · exact h₂
  · exact h₁

/-- With SSL the callback of a connection that is not made. -/
theorem sees_unconnected (h : t.zs.cell fd = some c) (hok : c.OK) (ht : c.sock.type = .connect)
    (hn : c.sock.status.connected = false) {zs : Zsocket} (hk : c.sock.Kin zs) {σ₁ : Zs}
    (h₁ : zsUnconnected t.zs fd zs r = .ok σ₁) (h₂ : zsUpdateFdState σ₁ fd = .ok σ) (i : ℕ) :
    t.Sees { t with zs := σ } i := by
  have hs : c.sock.ssl = true := by
    cases hs : c.sock.ssl with
    | true => rfl
    | false =>
      have := (hok.plain ht hs).connected
      rw [hn] at this
      cases this
  obtain ⟨zs', ht', hs', hlive, hx⟩ := zsUnconnected_cell h hok ht hn hk h₁
  have hx := cell_then hx (zsUpdateFdState_cell (cell_self hx) h₂)
  refine (Traced.only_of_cell hx).sees ?_ i
  unfold Traced.Sees
  rw [h, cell_self hx]
  refine CellStep.secure _ _ _ _ ht hs ?_
  rintro c' ⟨⟩
  refine ⟨?_, ?_, ?_, Cell.update_update _⟩
  · rw [Cell.update_sock]; exact ht'
  · rw [Cell.update_sock]; exact hs'.trans hs
  · rw [Cell.update_sock]; exact hlive

/-- Without SSL a read callback reads. -/
theorem Zsocket.Plain.starts (h : zs.Plain) :
    zs.startRead.status.wantReadFromRead = true ∧ zs.startRead.status.wantReadFromWrite = false := by
  unfold Zsocket.startRead
  rw [h.wantReadFromWrite]
  cases hr : zs.status.wantReadFromRead <;> simp [hr, h.wantReadFromWrite]

theorem Zsocket.readPlain_wantReadFromWrite (zs : Zsocket) (r : RwRes) :
    (zs.readPlain r).status.wantReadFromWrite = zs.status.wantReadFromWrite := by
  cases r with
  | bytes bs => unfold Zsocket.readPlain; simp only; split <;> rfl
  | _ => rfl

/-! With SSL both the reader and the writer may run; what matters stays. -/

/-- The record of `fd` may have changed, and what went through it. -/
structure Traced.Kept (t t' : Traced) (fd : ℕ) (c : Cell) (zs : Zsocket) : Prop where
  kin : c.sock.Kin zs
  cell : t'.zs.cell = Function.update t.zs.cell fd (some { c with sock := zs })
  log : ∀ i, i ≠ fd → t'.log i = t.log i
  uses : t'.uses = t.uses

theorem Traced.Kept.refl (h : t.zs.cell fd = some c) : t.Kept t fd c c.sock :=
  ⟨⟨rfl, rfl, rfl, rfl⟩, by rw [← h, Function.update_eq_self], fun _ _ => rfl, rfl⟩

theorem Traced.Kept.set {z : Zsocket} (h : t.Kept t' fd c zs) (hk : zs.Kin z) :
    t.Kept { t' with zs := t'.zs.set fd z } fd c z :=
  ⟨h.kin.trans hk, cell_then h.cell (set_cell_of (cell_self h.cell) z), h.log, h.uses⟩

theorem Traced.Kept.reader {t₂ : Traced} (h : t.Kept t' fd c zs) (hc : zsReaderT t' fd r = .ok t₂) :
    ∃ z, t.Kept t₂ fd c z := by
  obtain ⟨σ, hσ, rfl⟩ := zsReaderT_eq (cell_self h.cell) hc
  obtain ⟨z, hk, hx⟩ := zsReader_kin (cell_self h.cell) hσ
  refine ⟨z, h.kin.trans hk, cell_then h.cell hx, fun i hi => ?_, h.uses⟩
  exact (Function.update_of_ne hi _ _).trans (h.log i hi)

theorem Traced.Kept.writer {t₂ : Traced} (h : t.Kept t' fd c zs) (ht : c.sock.type = .connect)
    (hc : zsWriterT t' fd r = .ok t₂) :
    (t₂.zs.cell fd = none ∧ t.Only t₂ fd) ∨ ∃ z, t.Kept t₂ fd c z := by
  obtain ⟨σ, hσ, rfl⟩ := zsWriterT_eq (cell_self h.cell) hc
  have hlog : ∀ (l : SockLog) i, i ≠ fd → Function.update t'.log fd l i = t.log i := fun l i hi =>
    (Function.update_of_ne hi _ _).trans (h.log i hi)
  obtain hx | ⟨z, hk, hx⟩ := zsWriter_kin (cell_self h.cell) (h.kin.type.trans ht) hσ
  · have hx := cell_then h.cell hx
    exact Or.inl ⟨cell_self hx, fun i hi => cell_other hx hi, hlog _, fun i _ => by rw [h.uses]⟩
  · exact Or.inr ⟨z, h.kin.trans hk, cell_then h.cell hx, hlog _, h.uses⟩

theorem Traced.Kept.sees (h : t.Kept t' fd c zs) (hcell : t.zs.cell fd = some c)
    (ht : c.sock.type = .connect) (hs : c.sock.ssl = true) (hok : c.OK)
    (hc : zsUpdateFdState t'.zs fd = .ok σ) (i : ℕ) : t.Sees { t' with zs := σ } i := by
  have hx := cell_then h.cell (zsUpdateFdState_cell (cell_self h.cell) hc)
  have honly : t.Only { t' with zs := σ } fd :=
    ⟨fun i hi => cell_other hx hi, h.log, fun i _ => by rw [h.uses]⟩
  refine honly.sees ?_ i
  unfold Traced.Sees
  rw [hcell, cell_self hx]
  refine CellStep.secure _ _ _ _ ht hs ?_
  rintro c' ⟨⟩
  exact Cell.Secure.of_kin ht hs hok h.kin

/-- The socket is gone. -/
theorem sees_gone (hcell : t.zs.cell fd = some c) (ht : c.sock.type = .connect)
    (hs : c.sock.ssl = true) (hn : t'.zs.cell fd = none) (honly : t.Only t' fd) (i : ℕ) :
    t.Sees t' i := by
  refine honly.sees ?_ i
  unfold Traced.Sees
  rw [hcell, hn]
  refine CellStep.secure _ _ _ _ ht hs ?_
  rintro c' ⟨⟩

theorem Zsocket.startRead_kin (zs : Zsocket) : zs.Kin zs.startRead := zs.startRead_same.kin

theorem sees_internalRead {r₁ r₂ : RwRes} (h : t.zs.cell fd = some c) (hok : c.OK)
    (hreg : c.regR = some .internalRead) (hc : zsInternalReadT t fd r₁ r₂ = .ok t') (i : ℕ) :
    t.Sees t' i := by
  obtain ⟨zs, h₁, hc⟩ := zs_bind_ok hc
  obtain ⟨hz, ht⟩ := getConnect_ok h₁
  obtain rfl : c.sock = zs := Option.some.inj ((of_cell h).1.symm.trans hz)
  split at hc
  · obtain ⟨t₁, ht₁, hc⟩ := zs_bind_ok hc
    obtain ⟨z, hz₁, hc⟩ := zs_bind_ok hc
    obtain ⟨t₂, ht₂, hc⟩ := zs_bind_ok hc
    cases hs : c.sock.ssl with
    | false =>
      have hp := hok.plain ht hs
      have h₀ : (t.zs.set fd c.sock.toRead).cell = _ := set_cell_of h c.sock.toRead
      rw [if_pos hp.starts.1] at ht₁
      obtain ⟨σ₁, hr₁, rfl⟩ := zsReaderT_eq (cell_self h₀) ht₁
      have hx := cell_then h₀ (zsReader_plain (cell_self h₀)
        (by unfold Zsocket.toRead Zsocket.startRead; split <;> exact hs) hr₁)
      obtain rfl : z = c.sock.toRead.readPlain r₁ :=
        Option.some.inj ((get_ok hz₁).symm.trans (of_cell (cell_self hx)).1)
      -- the writer does not run
      rw [if_neg (by
        rw [Zsocket.readPlain_wantReadFromWrite]
        have := hp.starts.2
        unfold Zsocket.toRead
        simp [this])] at ht₂
      cases ht₂
      simp only [(of_cell (cell_self hx)).1] at hc
      obtain ⟨σ₂, hu, hc⟩ := zs_bind_ok hc
      cases hc
      have hx := cell_then hx (zsUpdateFdState_cell (cell_self hx) hu)
      refine (Traced.only_logged hx).sees ?_ i
      unfold Traced.Sees
      simp only
      rw [h, cell_self hx, Function.update_self]
      have hlog : ∀ l : SockLog, l.read c.sock.toRead r₁ = l.read c.sock r₁ := by
        intro l
        unfold Zsocket.toRead Zsocket.startRead
        cases r₁ <;> (split <;> rfl)
      rw [hlog]
      exact CellStep.plain _ _ ht hs (.readEvent r₁ hreg hp.starts.1)
    | true =>
      have hkept : ∃ z, t.Kept t₁ fd c z := by
        split at ht₁
        · refine ((Traced.Kept.refl h).set (c.sock.startRead_kin.trans ?_)).reader ht₁
          constructor <;> rfl
        · cases ht₁
          exact ⟨_, (Traced.Kept.refl h).set c.sock.startRead_kin⟩
      obtain ⟨z₁, hkept⟩ := hkept
      obtain rfl : z = z₁ := Option.some.inj
        ((get_ok hz₁).symm.trans (of_cell (cell_self hkept.cell)).1)
      have hkept₂ : (t₂.zs.cell fd = none ∧ t.Only t₂ fd) ∨ ∃ z, t.Kept t₂ fd c z := by
        split at ht₂
        · refine (hkept.set ?_).writer ht ht₂
          constructor <;> rfl
        · cases ht₂
          exact Or.inr ⟨z, hkept⟩
      obtain ⟨hnone, honly⟩ | ⟨z₂, hkept₂⟩ := hkept₂
      · rw [cell_eq_none hnone] at hc
        cases hc
        exact sees_gone h ht hs hnone honly i
      · simp only [(of_cell (cell_self hkept₂.cell)).1] at hc
        obtain ⟨σ₂, hu, hc⟩ := zs_bind_ok hc
        cases hc
        exact hkept₂.sees h ht hs hok hu i
  · rename_i hn
    obtain ⟨σ₁, h₁, hc⟩ := zs_bind_ok hc
    obtain ⟨σ₂, h₂, hc⟩ := zs_bind_ok hc
    cases hc
    refine sees_unconnected h hok ht (by simpa using hn) ?_ h₁ h₂ i
    apply Zsocket.ite_kin <;> constructor <;> rfl

theorem sees_internalWrite {r₁ r₂ : RwRes} (h : t.zs.cell fd = some c) (hok : c.OK)
    (hc : zsInternalWriteT t fd r₁ r₂ = .ok t') (i : ℕ) : t.Sees t' i := by
  obtain ⟨zs, h₁, hc⟩ := zs_bind_ok hc
  obtain ⟨hz, ht⟩ := getConnect_ok h₁
  obtain rfl : c.sock = zs := Option.some.inj ((of_cell h).1.symm.trans hz)
  split at hc
  · obtain ⟨t₁, ht₁, hc⟩ := zs_bind_ok hc
    cases hs : c.sock.ssl with
    | false =>
      have hp := hok.plain ht hs
      split at ht₁
      · rename_i hw
        have h₀ : (t.zs.set fd c.sock.toWrite).cell = _ := set_cell_of h c.sock.toWrite
        obtain ⟨σ₁, hw₁, rfl⟩ := zsWriterT_eq (cell_self h₀) ht₁
        have hx := cell_then h₀ (zsWriter_plain (cell_self h₀) ht hs hw₁)
        have hfin : c.sock.toWrite.finishes r₁ = c.sock.finishes r₁ := by cases r₁ <;> rfl
        have hlog : ∀ l : SockLog, l.write c.sock.toWrite r₁ = l.write c.sock r₁ := by
          intro l
          cases r₁ <;> rfl
        cases hcl : c.sock.finishes r₁ && c.sock.status.closed with
        | true =>
          have hx : σ₁.cell = Function.update t.zs.cell fd none := by
            rw [hx]
            congr 1
            exact if_pos (by rw [hfin]; exact hcl)
          simp only [cell_eq_none (cell_self hx)] at hc
          cases hc
          refine (Traced.only_logged hx).sees ?_ i
          unfold Traced.Sees
          simp only
          rw [h, cell_self hx, Function.update_self, hlog]
          rw [Bool.and_eq_true] at hcl
          exact CellStep.plain _ _ ht hs (.writeShut r₁ hw hcl.1)
        | false =>
          have hx : σ₁.cell = Function.update t.zs.cell fd
              (some { c with sock := c.sock.toWrite.writePlain r₁ }) := by
            rw [hx]
            congr 1
            exact if_neg (by rw [hfin]; exact Bool.eq_false_iff.1 hcl)
          simp only [(of_cell (cell_self hx)).1] at hc
          have hno : (c.sock.toWrite.writePlain r₁).status.wantWriteFromRead = false := by
            rw [← hp.wantWriteFromRead]
            unfold Zsocket.writePlain
            cases r₁ with
            | bytes bs => simp only; split <;> rfl
            | _ => rfl
          obtain ⟨t₂, ht₂, hc⟩ := zs_bind_ok hc
          rw [if_neg (by rw [hno]; decide)] at ht₂
          cases ht₂
          obtain ⟨σ₂, hu, hc⟩ := zs_bind_ok hc
          cases hc
          have hx := cell_then hx (zsUpdateFdState_cell (cell_self hx) hu)
          refine (Traced.only_logged hx).sees ?_ i
          unfold Traced.Sees
          simp only
          rw [h, cell_self hx, Function.update_self, hlog]
          refine CellStep.plain _ _ ht hs (.writeEvent r₁ hw fun hf => ?_)
          rw [hf, Bool.true_and] at hcl
          exact hcl
      · -- nothing to write: the registration is computed again
        cases ht₁
        simp only [(of_cell h).1] at hc
        obtain ⟨t₂, ht₂, hc⟩ := zs_bind_ok hc
        rw [if_neg (by rw [hp.wantWriteFromRead]; decide)] at ht₂
        cases ht₂
        obtain ⟨σ₂, hu, hc⟩ := zs_bind_ok hc
        cases hc
        exact sees_arm h hok (zsUpdateFdState_cell h hu) i
    | true =>
      have hkept : (t₁.zs.cell fd = none ∧ t.Only t₁ fd) ∨ ∃ z, t.Kept t₁ fd c z := by
        split at ht₁
        · refine ((Traced.Kept.refl h).set ?_).writer ht ht₁
          constructor <;> rfl
        · cases ht₁
          exact Or.inr ⟨_, Traced.Kept.refl h⟩
      obtain ⟨hnone, honly⟩ | ⟨z₁, hkept⟩ := hkept
      · rw [cell_eq_none hnone] at hc
        cases hc
        exact sees_gone h ht hs hnone honly i
      · simp only [(of_cell (cell_self hkept.cell)).1] at hc
        obtain ⟨t₂, ht₂, hc⟩ := zs_bind_ok hc
        have hkept₂ : ∃ z, t.Kept t₂ fd c z := by
          split at ht₂
          · refine (hkept.set ?_).reader ht₂
            constructor <;> rfl
          · cases ht₂
            exact ⟨z₁, hkept⟩
        obtain ⟨z₂, hkept₂⟩ := hkept₂
        obtain ⟨σ₂, hu, hc⟩ := zs_bind_ok hc
        cases hc
        exact hkept₂.sees h ht hs hok hu i
  · rename_i hn
    obtain ⟨σ₁, h₁, hc⟩ := zs_bind_ok hc
    obtain ⟨σ₂, h₂, hc⟩ := zs_bind_ok hc
    cases hc
    refine sees_unconnected h hok ht (by simpa using hn) ?_ h₁ h₂ i
    apply Zsocket.ite_kin <;> constructor <;> rfl

/-! ## Listeners -/

theorem sees_accept {res : Except SockErrno (Option ℕ)} (hc : zsAccept t.zs fd = .ok (σ, res)) (i : ℕ) :
    t.Sees { t with zs := σ } i := by
  unfold zsAccept at hc
  cases hz : t.zs.zsockets fd with
  | none => rw [hz] at hc; cases hc; exact t.sees_refl i
  | some zs =>
    rw [hz] at hc
    simp only at hc
    split at hc
    · cases hc; exact t.sees_refl i
    split at hc
    · cases hc; exact t.sees_refl i
    rename_i ht
    split at hc
    · cases hc; exact t.sees_refl i
    obtain ⟨σ₁, h₁, hc⟩ := zs_bind_ok hc
    have h : t.zs.cell fd = some (t.zs.cellOf fd zs) := cell_some hz
    have h₀ : ((t.zs.countDown (t.zs.activeRead fd && zs.status.readable)).set fd
        { zs with status.readable := false }).cell = _ := set_cell_of h _
    have hx := cell_then h₀ (zsUpdateFdState_cell (cell_self h₀) h₁)
    split at hc
    · cases hc
    · cases hc
      have hx := cell_then hx (set_cell_of (cell_self hx) { zs with
        status.readable := false, acceptedErrno := none, acceptedFd := none })
      rw [← Cell.update_with _ (by rfl) (by rfl)] at hx
      refine (Traced.only_of_cell hx).sees ?_ i
      unfold Traced.Sees
      rw [h, cell_self hx]
      have hlis : zs.type = .listen := by simpa using ht
      refine CellStep.listen _ _ hlis (.accept _ ?_ ?_ ?_ ?_ ?_ fun hi => hi)
      all_goals rfl

/-- A change of one of two cells. -/
theorem two_cells {σ₁ σ₂ : Zs} {new : ℕ} {x y x' : Option Cell} (hne : fd ≠ new)
    (h₁ : σ₁.cell = Function.update (Function.update σ.cell fd x) new y)
    (h₂ : σ₂.cell = Function.update σ₁.cell fd x') :
    σ₂.cell = Function.update (Function.update σ.cell fd x') new y := by
  rw [h₂, h₁, Function.update_comm hne.symm, Function.update_idem]

theorem two_self {σ₁ : Zs} {new : ℕ} {x y : Option Cell} (hne : fd ≠ new)
    (h₁ : σ₁.cell = Function.update (Function.update σ.cell fd x) new y) :
    σ₁.cell fd = x ∧ σ₁.cell new = y := by
  rw [h₁, Function.update_self, Function.update_of_ne hne, Function.update_self]
  exact ⟨rfl, rfl⟩

theorem set_countUp_cell (h : σ.cell fd = some c) (b : Bool) (zs : Zsocket) :
    ((σ.countUp b).set fd zs).cell = Function.update σ.cell fd (some { c with sock := zs }) :=
  set_cell_of h zs

/-- **`zs_accepter`**, for the connection that `zs_internal_accept` has just opened. -/
theorem zsAccepter_cells {σ₁ : Zs} {new : ℕ} {cp cc : Cell} (hne : fd ≠ new)
    (h : σ₁.cell = Function.update (Function.update σ.cell fd (some cp)) new (some cc))
    (hparent : cc.sock.nOpen = fd) (hacc : cp.sock.acceptedFd.isSome = true)
    (hc : zsAccepter σ₁ new = .ok σ') :
    σ'.cell = Function.update (Function.update σ.cell fd (some ({ cp with sock := { cp.sock with
        status.readable := true, status.accepting := false } } : Cell).update))
      new (some { cc with sock := { cc.sock with
        status.connected := true, status.writable := true
        status.accepting := if cc.sock.ssl then true else cc.sock.status.accepting } }) := by
  obtain ⟨hfd, hnew⟩ := two_self hne h
  obtain ⟨z, hz, hc⟩ := zs_bind_ok hc
  obtain rfl : cc.sock = z := Option.some.inj ((of_cell hnew).1.symm.trans (get_ok hz))
  split at hc
  · cases hc
  simp only [hparent, Int.toNat_natCast] at hc
  obtain ⟨p, hp, hc⟩ := zs_bind_ok hc
  obtain rfl : cp.sock = p := Option.some.inj ((of_cell hfd).1.symm.trans (get_ok hp))
  obtain ⟨σ₂, h₂, hc⟩ := zs_bind_ok hc
  rw [if_pos hacc] at h₂
  have e₁ := two_cells hne h (set_countUp_cell hfd (σ₁.activeRead fd && !cp.sock.status.readable)
    { cp.sock with status.readable := true, status.accepting := false })
  obtain ⟨z, hz, h₂⟩ := zs_bind_ok h₂
  obtain rfl : cc.sock = z := Option.some.inj ((of_cell (two_self hne e₁).2).1.symm.trans (get_ok hz))
  have e₂ := fun b => set_countUp_cell (two_self hne e₁).2 b { cc.sock with
    status.connected := true, status.writable := true
    status.accepting := if cc.sock.ssl then true else cc.sock.status.accepting }
  rw [e₁, Function.update_idem] at e₂
  cases h₂
  exact two_cells hne (e₂ _) (zsUpdateFdState_cell (two_self hne (e₂ _)).1 hc)

theorem sees_internalAccept_error {e : SockErrno} (h : t.zs.cell fd = some c)
    (ht : c.sock.type = .listen) (hc : zsInternalAccept t.zs fd (.error e) = .ok σ) (i : ℕ) :
    t.Sees { t with zs := σ } i := by
  obtain ⟨zs, hz, hc⟩ := zs_bind_ok hc
  obtain rfl : c.sock = zs := Option.some.inj ((of_cell h).1.symm.trans (get_ok hz))
  have h₀ := set_cell_of h { c.sock with
    status.accepting := false, acceptedFd := none, acceptedErrno := some e }
  have hx := cell_then h₀ (zsUpdateFdState_cell (cell_self h₀) hc)
  refine (Traced.only_of_cell hx).sees ?_ i
  unfold Traced.Sees
  rw [h, cell_self hx]
  refine CellStep.listen _ _ ht (.accept _ ?_ ?_ ?_ ?_ ?_ fun _ => ?_)
  all_goals rfl

theorem sees_internalAccept {new addr : ℕ} (h : t.zs.cell fd = some c)
    (ht : c.sock.type = .listen) (hc : zsInternalAccept t.zs fd (.ok (new, addr)) = .ok σ) (i : ℕ) :
    t.Sees ⟨σ, Function.update t.log new {}, Function.update t.uses new {}⟩ i := by
  obtain ⟨zs, hz, hc⟩ := zs_bind_ok hc
  obtain rfl : c.sock = zs := Option.some.inj ((of_cell h).1.symm.trans (get_ok hz))
  obtain ⟨σ₂, h₂, hc⟩ := zs_bind_ok hc
  have e₁ := set_cell_of h { c.sock with status.accepting := true }
  -- the new descriptor was not open
  obtain ⟨-, hnone, rfl⟩ := zsTypeInit_cases h₂
  have hne : fd ≠ new := by
    rintro rfl
    rw [(of_cell (cell_self e₁)).1] at hnone
    cases hnone
  have hnone' : t.zs.cell new = none := by
    rw [← cell_other e₁ hne.symm]
    exact cell_none hnone
  have e₂ := set_cell (t.zs.set fd { c.sock with status.accepting := true }) new
    (Zsocket.mk .connect addr c.sock.portno c.sock.eventHdlr c.sock.ssl {} (-1) none none {} {})
  rw [e₁] at e₂
  have e₃ := two_cells hne e₂ (set_cell_of (two_self hne e₂).1 { c.sock with
    status.accepting := true, acceptedFd := some new })
  obtain ⟨child, hchild, hc⟩ := zs_bind_ok hc
  obtain rfl := Option.some.inj ((of_cell (two_self hne e₃).2).1.symm.trans (get_ok hchild))
  have e₄ := set_cell_of (two_self hne e₃).2
    (Zsocket.mk .connect addr c.sock.portno c.sock.eventHdlr c.sock.ssl {} fd none none {} {})
  rw [e₃, Function.update_idem] at e₄
  obtain ⟨σ₆, h₆, hc⟩ := zs_bind_ok hc
  have e₅ := zsAccepter_cells hne e₄ rfl rfl h₆
  obtain ⟨σ₇, h₇, hc⟩ := zs_bind_ok hc
  rw [if_pos (by rw [(of_cell (two_self hne e₅).2).1]; rfl)] at h₇
  have e₆ := zsUpdateFdState_cell (two_self hne e₅).2 h₇
  rw [e₅, Function.update_idem] at e₆
  have e₇ := two_cells hne e₆ (zsUpdateFdState_cell (two_self hne e₆).1 hc)
  rw [Cell.update_update] at e₇
  unfold Traced.Sees
  by_cases hi : i = fd
  · subst hi
    simp only
    rw [h, (two_self hne e₇).1, Function.update_of_ne hne, Function.update_of_ne hne]
    refine CellStep.listen _ _ ht (.accept _ ?_ ?_ ?_ ?_ ?_ fun _ => ?_)
    all_goals rfl
  · by_cases hn : i = new
    · subst hn
      simp only
      rw [hnone', (two_self hne e₇).2, Function.update_self, Function.update_self]
      cases hs : c.sock.ssl with
      | false =>
        refine CellStep.connects _ _ _ _ ⟨?_, ?_, ?_, ?_, ?_, Cell.update_update _⟩
        · rw [Cell.update_sock]
        · rw [Cell.update_sock]
        · rw [Cell.update_sock]; rfl
        · rw [Cell.update_sock]
        · rw [Cell.update_sock]
      | true =>
        refine CellStep.connectsSecure _ _ _ _ _ ⟨?_, ?_, ?_, Cell.update_update _⟩
        · rw [Cell.update_sock]
        · rw [Cell.update_sock]
        · rw [Cell.update_sock]; exact Or.inl rfl
    · simp only
      rw [e₇, Function.update_of_ne hn, Function.update_of_ne hi, Function.update_of_ne hn,
        Function.update_of_ne hn]
      exact CellStep.same _ _ _

/-! ## `zsocket` -/

theorem zsGetByInfo_spec {addr : ℕ} {portno : ℤ} (h : zsGetByInfo σ addr portno = some fd) :
    ∃ p, σ.zsockets fd = some p ∧ p.addr = addr ∧ p.portno = portno := by
  have hp := List.find?_some h
  cases hz : σ.zsockets fd with
  | none => rw [hz] at hp; cases hp
  | some p =>
    rw [hz] at hp
    simp only [Bool.and_eq_true, decide_eq_true_eq] at hp
    exact ⟨p, rfl, hp.2, hp.1⟩

/-- **What `zsocket` can do.** -/
theorem zsocket_cases {addr : ℕ} {portno : ℤ} {type : ZsType} {hdlr : EventHdlr} {ssl : Bool}
    {k : SockRes} {res : Except SockErrno ℕ}
    (hc : zsocket σ addr portno type hdlr ssl k = .ok (σ', res)) :
    (σ' = σ ∧ ∃ e, res = .error e) ∨
      (∃ fd c, type = .listen ∧ zsGetByInfo σ addr portno = some fd ∧ res = .ok fd ∧
        σ.cell fd = some c ∧ σ'.cell = Function.update σ.cell fd
          (some { c with sock := { c.sock with nOpen := c.sock.nOpen + 1 } })) ∨
      (∃ fd, (type = .listen → zsGetByInfo σ addr portno = none) ∧ res = .ok fd ∧
        σ.zsockets fd = none ∧
        ((type = .listen ∧ σ'.cell = Function.update σ.cell fd (some (σ.cellOf fd
            (Zsocket.mk .listen addr portno hdlr ssl {} 1 none none {} {})))) ∨
          (type = .connect ∧ ∃ zs, σ'.cell = Function.update σ.cell fd
              (some (σ.cellOf fd zs).update) ∧ zs.type = .connect ∧ zs.ssl = ssl ∧
            (zs.status.connected = true ∨ zs.status.connecting = true) ∧
            (ssl = false → zs.status = { connected := true, writable := true } ∧ zs.read = {} ∧
              zs.write = {})))) := by
  unfold zsocket at hc
  simp only at hc
  split at hc
  · rename_i fd hfound
    obtain ⟨p, hp, hc⟩ := zs_bind_ok hc
    cases hc
    split at hfound
    · rename_i ht
      have h := cell_some (get_ok hp)
      exact Or.inr (Or.inl ⟨fd, _, ht, hfound, rfl, h, set_cell_of h _⟩)
    · cases hfound
  · rename_i hfound
    split at hc
    · cases hc
      exact Or.inl ⟨rfl, _, rfl⟩
    · rename_i fd hk
      split at hc
      · cases hc
        exact Or.inl ⟨rfl, _, rfl⟩
      obtain ⟨σ₁, h₁, hc⟩ := zs_bind_ok hc
      obtain ⟨-, hnone, rfl⟩ := zsTypeInit_cases h₁
      have hno : type = .listen → zsGetByInfo σ addr portno = none :=
        fun ht => (if_pos ht).symm.trans hfound
      cases type with
      | listen =>
        cases hc
        exact Or.inr (Or.inr ⟨fd, hno, rfl, hnone, Or.inl ⟨rfl, set_cell _ _ _⟩⟩)
      | connect =>
        obtain ⟨zs, hz, hc⟩ := zs_bind_ok hc
        obtain ⟨σ₂, h₂, hc⟩ := zs_bind_ok hc
        obtain ⟨σ₃, h₃, hc⟩ := zs_bind_ok hc
        cases hc
        have e₁ := set_cell σ fd (Zsocket.mk .connect addr portno hdlr ssl {} (-1) none none {} {})
        obtain rfl := Option.some.inj ((of_cell (cell_self e₁)).1.symm.trans (get_ok hz))
        have e₂ := cell_then e₁ (set_cell_of (cell_self e₁) (Zsocket.mk .connect addr portno hdlr ssl
          { connecting := true } (-1) none none {} {}))
        obtain ⟨z, hx, ht, hs, hlive, hplain⟩ := zsConnecter_cell (cell_self e₂) h₂
        have hx := cell_then e₂ hx
        refine Or.inr (Or.inr ⟨fd, hno, rfl, hnone, Or.inr ⟨rfl, z,
          cell_then hx (zsUpdateFdState_cell (cell_self hx) h₃), ht, hs, hlive, fun h => ?_⟩⟩)
        have hz := hplain h
        exact ⟨congrArg Zsocket.status hz, congrArg Zsocket.read hz, congrArg Zsocket.write hz⟩

theorem sees_zsocket {addr : ℕ} {portno : ℤ} {type : ZsType} {hdlr : EventHdlr} {ssl : Bool}
    {k : SockRes} (hok : ∀ fd c, t.zs.cell fd = some c → c.OK) (hzs : ZsOK t.zs)
    (hc : t.step (.zsocket addr portno type hdlr ssl k) = .ok t') (i : ℕ) : t.Sees t' i := by
  obtain ⟨⟨σ, res⟩, h₁, hc⟩ := zs_bind_ok hc
  obtain ⟨rfl, e, rfl⟩ | ⟨fd, c, rfl, -, rfl, h, hx⟩ | ⟨fd, -, rfl, hnone, hx⟩ := zsocket_cases h₁
  · cases hc
    exact t.sees_refl i
  · -- one more user
    simp only [(of_cell h).1] at hc
    cases hc
    have honly : t.Only { t with
        zs := σ
        uses := Function.update t.uses fd { t.uses fd with listens := (t.uses fd).listens + 1 } } fd :=
      ⟨fun _ hi => cell_other hx hi, fun _ _ => rfl, fun _ hi => Function.update_of_ne hi _ _⟩
    refine honly.sees ?_ i
    unfold Traced.Sees
    simp only
    rw [h, cell_self hx, Function.update_self]
    cases ht : c.sock.type with
    | listen => exact CellStep.listen _ _ ht .share
    | connect =>
      cases hs : c.sock.ssl with
      | false => exact CellStep.plain _ _ ht hs .share
      | true =>
        refine CellStep.secure _ _ _ _ ht hs ?_
        rintro c' ⟨⟩
        refine ⟨ht, hs, (hok fd c h).live ht, ?_⟩
        rw [Cell.update_with _ (by rfl) (by rfl), (hok fd c h).reg ht]
  · simp only [hnone] at hc
    cases hc
    have hcell := cell_none hnone
    obtain ⟨rfl, hx⟩ | ⟨rfl, zs, hx, ht, hs, hlive, hplain⟩ := hx
    · have honly : t.Only ⟨σ, Function.update t.log fd {}, Function.update (Function.update t.uses fd {})
          fd { listens := 1 }⟩ fd :=
        ⟨fun _ hi => cell_other hx hi, fun _ hi => Function.update_of_ne hi _ _,
          fun _ hi => (Function.update_of_ne hi _ _).trans (Function.update_of_ne hi _ _)⟩
      simp only [Option.isSome_none, Bool.false_eq_true, if_false, if_true, Function.update_self]
      refine honly.sees ?_ i
      unfold Traced.Sees
      simp only
      rw [hcell, cell_self hx, Function.update_self, Function.update_self]
      refine CellStep.listens _ _ _ rfl rfl rfl ?_
      -- a descriptor that was not open is not armed
      cases har : t.zs.activeRead fd with
      | false => exact har
      | true =>
        obtain ⟨z, hz⟩ := hzs.armed fd (Or.inl har)
        rw [hnone] at hz
        cases hz
    · have honly : t.Only ⟨σ, Function.update t.log fd {}, Function.update t.uses fd {}⟩ fd :=
        ⟨fun _ hi => cell_other hx hi, fun _ hi => Function.update_of_ne hi _ _,
          fun _ hi => Function.update_of_ne hi _ _⟩
      simp only [Option.isSome_none, Bool.false_eq_true, if_false, reduceCtorEq]
      refine honly.sees ?_ i
      unfold Traced.Sees
      simp only
      rw [hcell, cell_self hx, Function.update_self]
      cases hssl : ssl with
      | false =>
        obtain ⟨hst, hrd, hwr⟩ := hplain hssl
        refine CellStep.connects _ _ _ _ ⟨?_, ?_, ?_, ?_, ?_, Cell.update_update _⟩
        · rw [Cell.update_sock]; exact ht
        · rw [Cell.update_sock]; exact hs.trans hssl
        · rw [Cell.update_sock]; exact hst
        · rw [Cell.update_sock]; exact hrd
        · rw [Cell.update_sock]; exact hwr
      | true =>
        refine CellStep.connectsSecure _ _ _ _ _ ⟨?_, ?_, ?_, Cell.update_update _⟩
        · rw [Cell.update_sock]; exact ht
        · rw [Cell.update_sock]; exact hs.trans hssl
        · rw [Cell.update_sock]; exact hlive

/-! ## Reading and writing -/

theorem zsRefillT_plain (h : t.zs.cell fd = some c) (hs : c.sock.ssl = false)
    (hc : zsRefillT t fd r = .ok t') :
    t'.zs.cell = Function.update t.zs.cell fd (some (c.refill r)) ∧
      t'.log = Function.update t.log fd ((t.log fd).refill c.sock r) ∧ t'.uses = t.uses := by
  obtain ⟨zs, hz, hc⟩ := zs_bind_ok hc
  obtain rfl : c.sock = zs := Option.some.inj ((of_cell h).1.symm.trans (get_ok hz))
  unfold Cell.refill SockLog.refill
  split at hc
  · rename_i hcond
    rw [if_pos hcond, if_pos hcond]
    obtain ⟨t₁, h₁, hc⟩ := zs_bind_ok hc
    have e₀ : ((t.zs.countDown (t.zs.activeRead fd && c.sock.status.readable)).set fd
        c.sock.drained).cell = _ := set_cell_of h _
    obtain ⟨σ₁, hr, rfl⟩ := zsReaderT_eq (cell_self e₀) h₁
    have e₁ := cell_then e₀ (zsReader_plain (cell_self e₀) hs hr)
    obtain ⟨z, hz₁, hc⟩ := zs_bind_ok hc
    obtain rfl := Option.some.inj ((of_cell (cell_self e₁)).1.symm.trans (get_ok hz₁))
    obtain ⟨σ₂, hu, hc⟩ := zs_bind_ok hc
    cases hc
    have e₂ := cell_then e₁ (set_cell_of (cell_self e₁) { c.sock.drained.readPlain r with
      status.wantReadFromRead := c.sock.status.wantReadFromRead
      status.wantWriteFromRead := c.sock.status.wantWriteFromRead })
    exact ⟨cell_then e₂ (zsUpdateFdState_cell (cell_self e₂) hu), rfl, rfl⟩
  · rename_i hcond
    rw [if_neg hcond, if_neg hcond]
    cases hc
    exact ⟨by rw [← h, Function.update_eq_self], by rw [Function.update_eq_self], rfl⟩

/-- With SSL: the same is known of the socket afterwards. -/
theorem zsRefillT_secure (h : t.zs.cell fd = some c) (hsec : c.Secure)
    (hc : zsRefillT t fd r = .ok t') :
    ∃ c', c'.Secure ∧ t'.zs.cell = Function.update t.zs.cell fd (some c') ∧
      (∀ i, i ≠ fd → t'.log i = t.log i) ∧ t'.uses = t.uses := by
  obtain ⟨zs, hz, hc⟩ := zs_bind_ok hc
  obtain rfl : c.sock = zs := Option.some.inj ((of_cell h).1.symm.trans (get_ok hz))
  split at hc
  · obtain ⟨t₁, h₁, hc⟩ := zs_bind_ok hc
    have e₀ : ((t.zs.countDown (t.zs.activeRead fd && c.sock.status.readable)).set fd
        c.sock.drained).cell = _ := set_cell_of h _
    obtain ⟨σ₁, hr, rfl⟩ := zsReaderT_eq (cell_self e₀) h₁
    obtain ⟨z', hk, hx⟩ := zsReader_kin (cell_self e₀) hr
    have e₁ := cell_then e₀ hx
    obtain ⟨z, hz₁, hc⟩ := zs_bind_ok hc
    obtain rfl : z' = z := Option.some.inj ((of_cell (cell_self e₁)).1.symm.trans (get_ok hz₁))
    obtain ⟨σ₂, hu, hc⟩ := zs_bind_ok hc
    cases hc
    have e₂ := cell_then e₁ (set_cell_of (cell_self e₁) { z' with
      status.wantReadFromRead := c.sock.status.wantReadFromRead
      status.wantWriteFromRead := c.sock.status.wantWriteFromRead })
    refine ⟨_, ?_, cell_then e₂ (zsUpdateFdState_cell (cell_self e₂) hu),
      fun i hi => Function.update_of_ne hi _ _, rfl⟩
    refine ⟨?_, ?_, ?_, Cell.update_update _⟩
    · rw [Cell.update_sock]; exact hk.type.trans hsec.type
    · rw [Cell.update_sock]; exact hk.ssl.trans hsec.ssl
    · rw [Cell.update_sock]
      have := hsec.live
      exact this.imp hk.connected.trans hk.connecting.trans
  · cases hc
    exact ⟨c, hsec, by rw [← h, Function.update_eq_self], fun _ _ => rfl, rfl⟩

/-- A socket with SSL is all that matters of it. -/
theorem sees_secure {c' : Cell} {l : SockLog} (h : t.zs.cell fd = some c) (ht : c.sock.type = .connect)
    (hs : c.sock.ssl = true) (hsec : c'.Secure)
    (hx : t'.zs.cell = Function.update t.zs.cell fd (some c'))
    (hlog : ∀ i, i ≠ fd → t'.log i = t.log i) (huses : t'.uses = t.uses) (i : ℕ) :
    t.Sees { t' with log := Function.update t'.log fd l } i := by
  have honly : t.Only { t' with log := Function.update t'.log fd l } fd :=
    ⟨fun i hi => cell_other hx hi, fun i hi => (Function.update_of_ne hi _ _).trans (hlog i hi),
      fun i _ => by rw [huses]⟩
  refine honly.sees ?_ i
  unfold Traced.Sees
  rw [h, cell_self hx]
  refine CellStep.secure _ _ _ _ ht hs ?_
  rintro c'' ⟨⟩
  exact hsec

/-- What `zs_read` returned is written down. -/
def Traced.giving (t : Traced) (fd : ℕ) (bs : List UInt8) : Traced :=
  { t with log := Function.update t.log fd { t.log fd with returned := (t.log fd).returned ++ bs } }

theorem Traced.giving_nil (t : Traced) (fd : ℕ) : t.giving fd [] = t := by
  unfold Traced.giving
  rw [List.append_nil, Function.update_eq_self]

/-- The end of `zs_read`, when it left the cell `c₁`. -/
theorem sees_refill {t₀ t₁ : Traced} {c₁ : Cell} {bs : List UInt8} (h : t.zs.cell fd = some c)
    (hok : c.OK) (ht : c.sock.type = .connect) (hc : zsRefillT t₀ fd r = .ok t₁)
    (h₀ : t₀.zs.cell = Function.update t.zs.cell fd (some c₁)) (hl₀ : t₀.log = t.log)
    (hu₀ : t₀.uses = t.uses) (htype : c₁.sock.type = c.sock.type)
    (hst : c₁.sock.status = c.sock.status) (hssl : c₁.sock.ssl = c.sock.ssl)
    (hcell : c₁ = { c with sock := c₁.sock })
    (hmove : c.sock.ssl = false → ∀ l : SockLog, c.Move l (some (c₁.refill r))
      { l.refill c₁.sock r with returned := (l.refill c₁.sock r).returned ++ bs }) (i : ℕ) :
    t.Sees (t₁.giving fd bs) i := by
  cases hs : c.sock.ssl with
  | false =>
    obtain ⟨hx, hl, hu⟩ := zsRefillT_plain (cell_self h₀) (hssl.trans hs) hc
    have hx := cell_then h₀ hx
    have honly : t.Only (t₁.giving fd bs) fd := by
      refine ⟨fun i hi => cell_other hx hi, fun i hi => ?_, fun i _ => ?_⟩
      · refine (Function.update_of_ne hi _ _).trans ?_
        rw [hl, hl₀, Function.update_of_ne hi]
      · show t₁.uses i = _
        rw [hu, hu₀]
    refine honly.sees ?_ i
    unfold Traced.Sees Traced.giving
    simp only
    rw [h, cell_self hx, hl, hl₀, Function.update_self, Function.update_self]
    exact CellStep.plain _ _ ht hs (hmove hs _)
  | true =>
    have hsec : c₁.Secure := by
      refine ⟨htype.trans ht, hssl.trans hs, ?_, ?_⟩
      · rw [hst]; exact hok.live ht
      · rw [hcell, Cell.update_with _ htype hst, hok.reg ht]
    obtain ⟨c', hsec', hx, hl, hu⟩ := zsRefillT_secure (cell_self h₀) hsec hc
    exact sees_secure h ht hs hsec' (cell_then h₀ hx) (fun i hi => by rw [hl i hi, hl₀])
      (by rw [hu, hu₀]) i

theorem sees_read {n : ℕ} (hok : ∀ fd c, t.zs.cell fd = some c → c.OK)
    (hc : t.step (.read fd n r) = .ok t') (i : ℕ) : t.Sees t' i := by
  obtain ⟨⟨t₁, res⟩, h₁, hc⟩ := zs_bind_ok hc
  have hc : t' = t₁.giving fd (res.toOption.getD []) := by
    cases res with
    | error e => cases hc; exact (Traced.giving_nil _ fd).symm
    | ok bs => cases hc; rfl
  rw [hc]
  unfold zsReadT at h₁
  cases hz : t.zs.zsockets fd with
  | none =>
    rw [hz] at h₁
    cases h₁
    rw [show (Except.error SockErrno.ebadf : Except SockErrno (List UInt8)).toOption.getD [] = [] from rfl,
      Traced.giving_nil]
    exact t.sees_refl i
  | some zs =>
    rw [hz] at h₁
    simp only at h₁
    have h := cell_some hz
    have hself : t.zs.cell = Function.update t.zs.cell fd (some (t.zs.cellOf fd zs)) := by
      rw [← h, Function.update_eq_self]
    split at h₁
    · cases h₁
      rw [show (Except.error SockErrno.ebadf : Except SockErrno (List UInt8)).toOption.getD [] = []
        from rfl, Traced.giving_nil]
      exact t.sees_refl i
    rename_i ht
    simp only [Bool.or_eq_true, decide_eq_true_eq, not_or, not_not, Bool.not_eq_true] at ht
    split at h₁
    · cases h₁
      rw [show (Except.error SockErrno.eagain : Except SockErrno (List UInt8)).toOption.getD [] = []
        from rfl, Traced.giving_nil]
      exact t.sees_refl i
    rename_i hr
    simp only [Bool.not_eq_true', Bool.not_eq_false] at hr
    split at h₁
    · rename_i e he
      obtain ⟨t₂, h₂, h₁⟩ := zs_bind_ok h₁
      cases h₁
      refine sees_refill h (hok _ _ h) ht.1 h₂ hself rfl rfl rfl rfl rfl rfl (fun _ l => ?_) i
      refine .readEnd r hr (fun hno => ?_) _ fun hu => ?_
      · have : zs.read.rwErrno = none := hno
        rw [he] at this
        cases this
      · -- without bytes in the buffer none are returned
        have hu : zs.read.used ≤ 0 := hu
        split
        · rfl
        · have hz : (min zs.read.used (n : ℤ)).toNat = 0 := by omega
          simp only [hz]
          rfl
    · rename_i he
      split at h₁
      · rename_i hu
        split at h₁
        · cases h₁
        · obtain ⟨t₂, h₂, h₁⟩ := zs_bind_ok h₁
          cases h₁
          exact sees_refill h (hok _ _ h) ht.1 h₂ hself rfl rfl rfl rfl rfl rfl
            (fun _ l => .readEnd r hr (fun _ => hu) _ fun _ => rfl) i
      · rename_i hu
        split at h₁
        · cases h₁
        · rename_i hn
          obtain ⟨t₂, h₂, h₁⟩ := zs_bind_ok h₁
          cases h₁
          exact sees_refill h (hok _ _ h) ht.1 h₂ (set_cell_of h (zs.take n)) rfl rfl rfl rfl rfl rfl
            (fun _ l => .readSome n r hr he hu (Int.not_lt.1 hn)) i

theorem sees_write {buf : List UInt8} (hok : ∀ fd c, t.zs.cell fd = some c → c.OK)
    (hc : t.step (.write fd buf) = .ok t') (i : ℕ) : t.Sees t' i := by
  obtain ⟨⟨σ, res⟩, h₁, hc⟩ := zs_bind_ok hc
  obtain ⟨zs, hz, ⟨rfl, -, hres⟩ | ⟨ht, -, hw, hb, zs', hrd, hwr, hu, hcase⟩⟩ := zsWrite_cases h₁
  · obtain rfl | rfl := hres <;> (cases hc; exact t.sees_refl i)
  have h := cell_some hz
  have e₀ : ((t.zs.countDown (t.zs.activeWrite fd && zs.status.writable)).set fd zs').cell = _ :=
    set_cell_of h zs'
  have hx := cell_then e₀ (zsUpdateFdState_cell (cell_self e₀) hu)
  have hsec : ∀ {z : Zsocket}, zs.ssl = true → z.type = zs.type → z.ssl = zs.ssl →
      z.status.connected = zs.status.connected → z.status.connecting = zs.status.connecting →
      ({ t.zs.cellOf fd zs with sock := z } : Cell).update.Secure := fun hs h₁ h₂ h₃ h₄ =>
    Cell.Secure.of_kin ht hs (hok _ _ h) ⟨h₁, h₂, h₃, h₄⟩
  obtain ⟨he, rfl, rfl⟩ | ⟨he, rfl, rfl⟩ := hcase
  · cases hc
    refine (Traced.only_of_cell hx).sees ?_ i
    unfold Traced.Sees
    rw [h, cell_self hx]
    obtain hs | hs := Bool.eq_false_or_eq_true zs.ssl
    · refine CellStep.secure _ _ _ _ ht hs ?_
      rintro c' ⟨⟩
      exact hsec hs rfl rfl rfl rfl
    · exact CellStep.plain _ _ ht hs (.writeError hw he)
  · cases hc
    refine (Traced.only_logged hx).sees ?_ i
    unfold Traced.Sees
    simp only
    rw [h, cell_self hx, Function.update_self]
    obtain hs | hs := Bool.eq_false_or_eq_true zs.ssl
    · refine CellStep.secure _ _ _ _ ht hs ?_
      rintro c' ⟨⟩
      exact hsec hs rfl rfl rfl rfl
    · exact CellStep.plain _ _ ht hs (.write buf hw hb he)

/-! ## Every step -/

/-- **What a step does to each descriptor.** -/
theorem Traced.step_cells {a : ZsAct} (hok : ∀ fd c, t.zs.cell fd = some c → c.OK) (hzs : ZsOK t.zs)
    (hs : t.step a = .ok t') (i : ℕ) : t.Sees t' i := by
  cases a with
  | zsocket addr portno type hdlr ssl k => exact sees_zsocket hok hzs hs i
  | accept fd =>
    obtain ⟨⟨σ, res⟩, h₁, hs⟩ := zs_bind_ok hs
    cases hs
    exact sees_accept h₁ i
  | read fd n r => exact sees_read hok hs i
  | write fd buf => exact sees_write hok hs i
  | setRead fd =>
    obtain ⟨σ, h₁, hs⟩ := zs_bind_ok hs
    cases hs
    obtain ⟨z, hz, -⟩ := zs_bind_ok h₁
    obtain ⟨c, h, -⟩ := assertSock_cell hz
    exact sees_arm h (hok _ _ h) (zsSetRead_cell h h₁) i
  | clrRead fd =>
    obtain ⟨σ, h₁, hs⟩ := zs_bind_ok hs
    cases hs
    obtain ⟨z, hz, -⟩ := zs_bind_ok h₁
    obtain ⟨c, h, -⟩ := assertSock_cell hz
    exact sees_arm h (hok _ _ h) (zsClrRead_cell h h₁) i
  | setWrite fd =>
    obtain ⟨σ, h₁, hs⟩ := zs_bind_ok hs
    cases hs
    obtain ⟨z, hz, -⟩ := zs_bind_ok h₁
    obtain ⟨c, h, -⟩ := assertSock_cell hz
    exact sees_arm h (hok _ _ h) (zsSetWrite_cell h h₁) i
  | clrWrite fd =>
    obtain ⟨σ, h₁, hs⟩ := zs_bind_ok hs
    cases hs
    obtain ⟨z, hz, -⟩ := zs_bind_ok h₁
    obtain ⟨c, h, -⟩ := assertSock_cell hz
    exact sees_arm h (hok _ _ h) (zsClrWrite_cell h h₁) i
  | close fd =>
    obtain ⟨⟨σ, res⟩, h₁, hs⟩ := zs_bind_ok hs
    cases hs
    cases hz : t.zs.zsockets fd with
    | some zs => exact sees_close (cell_some hz) (hok _ _ (cell_some hz)) rfl h₁ i
    | none =>
      obtain ⟨-, rfl, -⟩ | ⟨p, hp, -⟩ := zsClose_cases h₁
      · have honly : ∀ u, t.Only { t with uses := Function.update t.uses fd u } fd := fun u =>
          ⟨fun _ _ => rfl, fun _ _ => rfl, fun _ hi => Function.update_of_ne hi _ _⟩
        refine (honly _).sees ?_ i
        unfold Traced.Sees
        simp only
        rw [cell_none hz]
        exact CellStep.gone _ _ _
      · rw [hz] at hp
        cases hp
  | zfdRead fd a r₁ r₂ =>
    simp only [Traced.step] at hs
    split at hs
    · rename_i hact
      have hreg : ∀ {h : ZfdHdlr} {c : Cell}, t.zs.zfd.readHandler fd = some h →
          t.zs.cell fd = some c → c.regR = some h := by
        intro h c hh hcell
        obtain ⟨zs, -, rfl⟩ := Option.map_eq_some_iff.1 hcell
        show t.zs.zfd.regR fd = some h
        unfold Zfd.regR
        rw [if_pos hact, hh]
      split at hs
      · rename_i hh
        obtain ⟨σ, h₁, hs⟩ := zs_bind_ok hs
        obtain ⟨zs, hz, -⟩ := zs_bind_ok h₁
        obtain ⟨c, h, -⟩ := get_cell hz
        -- only a listener is registered with this handler
        have ht : c.sock.type = .listen := by
          cases ht : c.sock.type with
          | listen => rfl
          | connect =>
            have hr := hreg hh h
            rw [← (hok _ _ h).reg ht] at hr
            simp only [Cell.update, ht] at hr
            split at hr <;> cases hr
        cases a with
        | error e => cases hs; exact sees_internalAccept_error h ht h₁ i
        | ok new => cases hs; exact sees_internalAccept h ht h₁ i
      · rename_i hh
        obtain ⟨zs, hz, -⟩ := zs_bind_ok hs
        have h := cell_some (getConnect_ok hz).1
        exact sees_internalRead h (hok _ _ h) (hreg hh h) hs i
      · cases hs
    · cases hs
      exact t.sees_refl i
  | zfdWrite fd r₁ r₂ =>
    simp only [Traced.step] at hs
    split at hs
    · split at hs
      · obtain ⟨zs, hz, -⟩ := zs_bind_ok hs
        have h := cell_some (getConnect_ok hz).1
        exact sees_internalWrite h (hok _ _ h) hs i
      · cases hs
    · cases hs
      exact t.sees_refl i

end Zimr
