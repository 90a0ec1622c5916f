import Zimr.Proof.Bytes

/-!
# A write that fails

`zs_writer` notes the error of a `write`, and the next `zs_write` answers for it.

* `Zsocket.Reads` — what `zs_set_*`, `zs_clr_*` and `zs_read` leave alone
* `write_error_iff` — the error that is reported is the one that was noted if it is number 1
-/

namespace Zimr

open Run

variable {σ σ' : Zs} {fd : ℕ} {zs zs' : Zsocket} {e : SockErrno} {r : RwRes}

/-- The calls of a handler that do not open or close a socket. -/
def ZsAct.IsCall : ZsAct → Prop
  | .setRead _ => True
  | .clrRead _ => True
  | .setWrite _ => True
  | .clrWrite _ => True
  | .read _ _ _ => True
  | .write _ _ => True
  | _ => False

/-- `zs_write` answers with `e`, keeps nothing and sets no flag, and no later one has anything to
report. -/
def Zs.ReportsNow (σ : Zs) (fd : ℕ) (e : SockErrno) (buf : List UInt8) : Prop :=
  ∃ σ' zs zs', zsWrite σ fd buf = .ok (σ', .error e) ∧ σ.zsockets fd = some zs ∧
    σ'.zsockets fd = some zs' ∧ zs'.write.buffer = none ∧ zs'.status.writing = false ∧
    zs'.status = { zs.status with writable := false } ∧
    ∀ calls σ₂, (∀ a ∈ calls, ZsAct.IsCall a) → run Zs.step σ' calls = .ok σ₂ →
      ∀ buf, zsWrite σ₂ fd buf = .ok (σ₂, .error .eagain)

/-- The next `zs_write` does, whatever is called before. -/
def Zs.Reports (σ : Zs) (fd : ℕ) (e : SockErrno) : Prop :=
  ∀ calls σ₁, (∀ a ∈ calls, ZsAct.IsCall a ∧ ∀ buf, a ≠ .write fd buf) →
    run Zs.step σ calls = .ok σ₁ → ∀ buf, σ₁.ReportsNow fd e buf

/-! ## What stays -/

/-- What the reader does not touch. -/
structure Zsocket.Reads (zs zs' : Zsocket) : Prop where
  type : zs'.type = zs.type
  ssl : zs'.ssl = zs.ssl
  closed : zs'.status.closed = zs.status.closed
  writable : zs'.status.writable = zs.status.writable
  writing : zs'.status.writing = zs.status.writing
  write : zs'.write = zs.write

theorem Zsocket.Reads.refl (zs : Zsocket) : zs.Reads zs := ⟨rfl, rfl, rfl, rfl, rfl, rfl⟩

theorem Zsocket.Reads.trans {zs₁ zs₂ zs₃ : Zsocket} (h₁ : zs₁.Reads zs₂) (h₂ : zs₂.Reads zs₃) :
    zs₁.Reads zs₃ :=
  ⟨h₂.type.trans h₁.type, h₂.ssl.trans h₁.ssl, h₂.closed.trans h₁.closed,
    h₂.writable.trans h₁.writable, h₂.writing.trans h₁.writing, h₂.write.trans h₁.write⟩

/-- The record of every open socket keeps it. -/
def Zs.Reads (σ σ' : Zs) : Prop :=
  ∀ i zs, σ.zsockets i = some zs → ∃ zs', σ'.zsockets i = some zs' ∧ zs.Reads zs'

theorem Zs.Reads.trans {σ₁ σ₂ σ₃ : Zs} (h₁ : σ₁.Reads σ₂) (h₂ : σ₂.Reads σ₃) : σ₁.Reads σ₃ := by
  intro i zs hz
  obtain ⟨zs₁, hz₁, hr₁⟩ := h₁ i zs hz
  obtain ⟨zs₂, hz₂, hr₂⟩ := h₂ i zs₁ hz₁
  exact ⟨zs₂, hz₂, hr₁.trans hr₂⟩

theorem Zs.Reads.of_eq (h : σ'.zsockets = σ.zsockets) : σ.Reads σ' := fun _ zs hz =>
  ⟨zs, by rw [h, hz], .refl zs⟩

/-- One record changes. -/
theorem Zs.Reads.set {σ₀ : Zs} (h₀ : σ₀.zsockets = σ.zsockets) (hz : σ.zsockets fd = some zs)
    (hr : zs.Reads zs') : σ.Reads (σ₀.set fd zs') := by
  intro i z hi
  by_cases hfd : i = fd
  · rw [hfd] at hi ⊢
    obtain rfl := Option.some.inj (hz.symm.trans hi)
    exact ⟨zs', Function.update_self .., hr⟩
  · exact ⟨z, (Function.update_of_ne hfd _ _).trans (h₀ ▸ hi), .refl z⟩

theorem Zsocket.accepted_reads (zs : Zsocket) : zs.Reads zs.accepted := by
  unfold Zsocket.accepted
  split_ifs <;> exact ⟨rfl, rfl, rfl, rfl, rfl, rfl⟩

/-! ## The calls -/

theorem zsUpdateFdState_reads (hc : zsUpdateFdState σ fd = .ok σ') : σ.Reads σ' := by
  obtain ⟨z, rfl, -⟩ := zsUpdateFdState_eq hc
  exact .of_eq rfl

theorem zsReader_reads (hc : zsReader σ fd r = .ok σ') : σ.Reads σ' := by
  obtain ⟨zs, h₁, hc⟩ := zs_bind_ok hc
  have hz := get_ok h₁
  have hset : ∀ {z : Zsocket}, zs.Reads z → σ.Reads (σ.set fd z) := .set rfl hz
  have hgot : ∀ {z : Zsocket}, zs.Reads z → σ.Reads (zsGot σ fd z) := fun h =>
    Zs.Reads.set rfl hz (h.trans ⟨rfl, rfl, rfl, rfl, rfl, rfl⟩)
  have hacc : ∀ {z : Zsocket}, zs.Reads z → σ.Reads (σ.set fd z.accepted) := fun h =>
    hset (h.trans (Zsocket.accepted_reads _))
  cases r with
  | wantRead => cases hc; exact hset ⟨rfl, rfl, rfl, rfl, rfl, rfl⟩
  | wantWrite =>
    simp only at hc
    split at hc <;> cases hc <;> exact hset ⟨rfl, rfl, rfl, rfl, rfl, rfl⟩
  | fail k e =>
    simp only at hc
    split at hc
    · cases hc; exact hacc ⟨rfl, rfl, rfl, rfl, rfl, rfl⟩
    · split at hc <;> cases hc <;> exact hgot ⟨rfl, rfl, rfl, rfl, rfl, rfl⟩
  | bytes bs =>
    simp only at hc
    split at hc
    · cases hc; exact hacc (.refl zs)
    · split at hc
      · cases hc; exact hgot ⟨rfl, rfl, rfl, rfl, rfl, rfl⟩
      · split at hc
        · cases hc
        · cases hc; exact hgot ⟨rfl, rfl, rfl, rfl, rfl, rfl⟩

theorem zsRefill_reads (hc : zsRefill σ fd r = .ok σ') : σ.Reads σ' := by
  obtain ⟨zs, h₁, hc⟩ := zs_bind_ok hc
  have hz := get_ok h₁
  split at hc
  · obtain ⟨σ₁, h₂, hc⟩ := zs_bind_ok hc
    obtain ⟨z, hz₁, hc⟩ := zs_bind_ok hc
    have hdrained : σ.Reads ((σ.countDown (σ.activeRead fd && zs.status.readable)).set fd
        { zs with read.pos := 0, read.used := 0, status.readable := false }) :=
      .set rfl hz ⟨rfl, rfl, rfl, rfl, rfl, rfl⟩
    refine (hdrained.trans (zsReader_reads h₂)).trans (Zs.Reads.trans ?_ (zsUpdateFdState_reads hc))
    exact .set rfl (get_ok hz₁) ⟨rfl, rfl, rfl, rfl, rfl, rfl⟩
  · cases hc; exact .of_eq rfl

theorem zsRead_reads {n : ℕ} {res : Except SockErrno (List UInt8)} (hc : zsRead σ fd n r = .ok (σ', res)) :
    σ.Reads σ' := by
  unfold zsRead at hc
  cases hz : σ.zsockets fd with
  | none => rw [hz] at hc; cases hc; exact .of_eq rfl
  | some zs =>
    rw [hz] at hc
    simp only at hc
    split at hc
    · cases hc; exact .of_eq rfl
    split at hc
    · cases hc; exact .of_eq rfl
    split at hc
    · obtain ⟨σ₁, h₁, hc⟩ := zs_bind_ok hc
      cases hc
      exact zsRefill_reads h₁
    split at hc
    · split at hc
      · cases hc
      · obtain ⟨σ₁, h₁, hc⟩ := zs_bind_ok hc
        cases hc
        exact zsRefill_reads h₁
    · split at hc
      · cases hc
      · obtain ⟨σ₁, h₁, hc⟩ := zs_bind_ok hc
        cases hc
        have hset : σ.Reads (σ.set fd (zs.take n)) := .set rfl hz ⟨rfl, rfl, rfl, rfl, rfl, rfl⟩
        exact hset.trans (zsRefill_reads h₁)

/-- A call that is not a `zs_write` of `fd`. -/
theorem call_reads {a : ZsAct} (ha : a.IsCall) (hw : ∀ buf, a ≠ .write fd buf) (hs : σ.step a = .ok σ')
    (hz : σ.zsockets fd = some zs) : ∃ zs', σ'.zsockets fd = some zs' ∧ zs.Reads zs' := by
  cases a with
  | setRead i =>
    obtain ⟨z, -, hs⟩ := zs_bind_ok hs
    exact zsUpdateFdState_reads hs fd zs hz
  | setWrite i =>
    obtain ⟨z, -, hs⟩ := zs_bind_ok hs
    exact zsUpdateFdState_reads hs fd zs hz
  | clrRead i => exact Zs.Reads.of_eq (zsClrRead_eq hs).1 fd zs hz
  | clrWrite i => exact Zs.Reads.of_eq (zsClrWrite_eq hs).1 fd zs hz
  | read i n r =>
    obtain ⟨⟨σ₁, res⟩, h₁, hs⟩ := zs_bind_ok hs
    cases hs
    exact zsRead_reads h₁ fd zs hz
  | write i buf =>
    obtain ⟨⟨σ₁, res⟩, h₁, hs⟩ := zs_bind_ok hs
    cases hs
    have hi : fd ≠ i := fun h => hw buf (by rw [h])
    obtain ⟨z, -, ⟨rfl, -⟩ | ⟨-, -, -, -, z', -, -, hu, -⟩⟩ := zsWrite_cases h₁
    · exact ⟨zs, hz, .refl zs⟩
    · exact zsUpdateFdState_reads hu fd zs ((Function.update_of_ne hi _ _).trans hz)
  | _ => exact ha.elim

/-- What is known of a record stays through the calls. -/
theorem calls_reads {calls : List ZsAct} {σ₁ : Zs}
    (ha : ∀ a ∈ calls, ZsAct.IsCall a ∧ ∀ buf, a ≠ .write fd buf) (hrun : run Zs.step σ calls = .ok σ₁)
    (hz : σ.zsockets fd = some zs) : ∃ zs', σ₁.zsockets fd = some zs' ∧ zs.Reads zs' := by
  refine run_inv (C := fun _ a => ZsAct.IsCall a ∧ ∀ buf, a ≠ .write fd buf)
    (I := fun σ => ∃ zs', σ.zsockets fd = some zs' ∧ zs.Reads zs') ?_ calls σ σ₁ ⟨zs, hz, .refl zs⟩ ?_ hrun
  · rintro σ a σ' ⟨z, hz, hr⟩ ⟨hcall, hw⟩ hs
    obtain ⟨z', hz', hr'⟩ := call_reads hcall hw hs hz
    exact ⟨z', hz', hr.trans hr'⟩
  · exact Along.of_forall ha

/-! ## The error -/

/-- The record after a `write` that failed with `e`. -/
structure Zsocket.Failed (zs : Zsocket) (e : SockErrno) : Prop where
  type : zs.type = .connect
  closed : zs.status.closed = false
  writable : zs.status.writable = true
  writing : zs.status.writing = false
  buffer : zs.write.buffer = none
  noted : zs.write.rwErrno = some e

theorem Zsocket.Failed.reads (h : zs.Failed e) (hr : zs.Reads zs') : zs'.Failed e :=
  ⟨hr.type.trans h.type, hr.closed.trans h.closed, hr.writable.trans h.writable,
    hr.writing.trans h.writing, by rw [hr.write, h.buffer], by rw [hr.write, h.noted]⟩

/-- The callback in which the `write` fails. -/
theorem zsInternalWrite_failed {k : ℕ} {r₂ : RwRes} {c : Cell} (h : σ.cell fd = some c)
    (ht : c.sock.type = .connect) (hs : c.sock.ssl = false) (hp : c.sock.Plain)
    (hcl : c.sock.status.closed = false) (hw : c.sock.status.wantWriteFromWrite = true)
    (hc : zsInternalWrite σ fd (.fail k e) r₂ = .ok σ') :
    ∃ zs', σ'.zsockets fd = some zs' ∧ zs'.Failed e := by
  obtain ⟨zs, h₁, hc⟩ := zs_bind_ok hc
  obtain rfl : c.sock = zs := Option.some.inj ((of_cell h).1.symm.trans (getConnect_ok h₁).1)
  rw [if_pos hp.connected, if_pos hw] at hc
  obtain ⟨σ₁, h₂, hc⟩ := zs_bind_ok hc
  have h₀ := set_cell_of h { c.sock with status.wantWriteFromWrite := false }
  have hx := cell_self (zsWriter_plain (cell_self h₀) ht hs h₂)
  have hcl' : ({ c.sock with status.wantWriteFromWrite := false } : Zsocket).status.closed = false := hcl
  rw [hcl', Bool.and_false, if_neg Bool.false_ne_true] at hx
  have hz := (of_cell hx).1
  rw [hz] at hc
  -- the reader does not wait for the writer
  have hread : c.sock.status.wantWriteFromRead = false := hp.wantWriteFromRead
  simp only [Zsocket.writePlain, Zsocket.written, hread] at hc
  obtain ⟨σ₂, h₃, hc⟩ := zs_bind_ok hc
  cases h₃
  obtain ⟨z, rfl, -⟩ := zsUpdateFdState_eq hc
  exact ⟨_, hz, ht, hcl, rfl, rfl, rfl, rfl⟩

/-- What `zs_write` answers then. -/
theorem Zsocket.Failed.write (h : zs.Failed e) (hz : σ.zsockets fd = some zs) (buf : List UInt8) :
    ∃ σ', zsWrite σ fd buf = .ok (σ', .error (.other 1)) ∧
      σ'.zsockets fd = some { zs with status.writable := false, write.rwErrno := none } := by
  obtain ⟨σ', hu⟩ := @zsUpdateFdState_total fd _
    ((σ.countDown (σ.activeWrite fd && zs.status.writable)).set fd
      { zs with status.writable := false, write.rwErrno := none }) (Function.update_self ..)
  refine ⟨σ', ?_, ?_⟩
  · unfold zsWrite
    rw [hz]
    simp only
    rw [if_neg (by rw [h.type, h.closed]; decide), if_neg (by rw [h.writable]; decide),
      if_neg (by rw [h.buffer]; decide)]
    split
    · rw [hu]
      rfl
    · rename_i hn
      rw [h.noted] at hn
      cases hn
  · obtain ⟨z, rfl, -⟩ := zsUpdateFdState_eq hu
    exact Function.update_self ..

/-- A socket that has nothing to report is not writable until it is written. -/
theorem told_calls {calls : List ZsAct} {σ₂ : Zs} (ha : ∀ a ∈ calls, ZsAct.IsCall a)
    (hrun : run Zs.step σ calls = .ok σ₂) (hz : σ.zsockets fd = some zs)
    (hw : zs.status.writable = false) :
    ∃ zs', σ₂.zsockets fd = some zs' ∧ zs.Reads zs' := by
  refine run_inv (C := fun _ a => ZsAct.IsCall a) (I := fun σ => ∃ zs', σ.zsockets fd = some zs' ∧
    zs.Reads zs') ?_ calls σ σ₂ ⟨zs, hz, .refl zs⟩ (Along.of_forall ha) hrun
  rintro σ a σ' ⟨z, hz, hr⟩ hcall hs
  by_cases hwrite : ∃ buf, a = .write fd buf
  · obtain ⟨buf, rfl⟩ := hwrite
    obtain ⟨⟨σ₁, res⟩, h₁, hs⟩ := zs_bind_ok hs
    cases hs
    obtain ⟨z', hz', ⟨rfl, -⟩ | ⟨-, -, hw', -⟩⟩ := zsWrite_cases h₁
    · exact ⟨z, hz, hr⟩
    · obtain rfl := Option.some.inj (hz.symm.trans hz')
      rw [hr.writable, hw] at hw'
      cases hw'
  · obtain ⟨z', hz', hr'⟩ := call_reads hcall (fun buf h => hwrite ⟨buf, h⟩) hs hz
    exact ⟨z', hz', hr.trans hr'⟩

theorem told_write (hz : σ.zsockets fd = some zs) (ht : zs.type = .connect)
    (hcl : zs.status.closed = false) (hw : zs.status.writable = false) (buf : List UInt8) :
    zsWrite σ fd buf = .ok (σ, .error .eagain) := by
  unfold zsWrite
  rw [hz]
  simp only
  rw [if_neg (by rw [ht, hcl]; decide), if_pos (by rw [hw]; rfl)]
  rfl

/-- What is reported after the failure is error number 1. -/
theorem failed_reports (hz : σ.zsockets fd = some zs) (h : zs.Failed e) : σ.Reports fd (.other 1) := by
  intro calls σ₁ ha hrun buf
  obtain ⟨zs₁, hz₁, hr⟩ := calls_reads ha hrun hz
  have h₁ := h.reads hr
  obtain ⟨σ₂, hwrite, hz₂⟩ := h₁.write hz₁ buf
  refine ⟨σ₂, zs₁, _, hwrite, hz₁, hz₂, h₁.buffer, h₁.writing, rfl, ?_⟩
  intro calls₂ σ₃ ha₂ hrun₂ buf₂
  obtain ⟨zs₃, hz₃, hr₃⟩ := told_calls ha₂ hrun₂ hz₂ rfl
  exact told_write hz₃ (hr₃.type.trans h₁.type) (hr₃.closed.trans h₁.closed) hr₃.writable buf₂

/-- Only one error is. -/
theorem Zs.Reports.unique {e' : SockErrno} (h : σ.Reports fd e) (h' : σ.Reports fd e') : e = e' := by
  obtain ⟨σ₁, -, -, h₁, -⟩ := h [] σ (by simp) rfl []
  obtain ⟨σ₂, -, -, h₂, -⟩ := h' [] σ (by simp) rfl []
  have := (Except.ok.inj (h₁.symm.trans h₂))
  exact Except.error.inj (Prod.mk.inj this).2

theorem write_fails {acts : List ZsAct} {k : ℕ} (hrun : run Zs.step zsInit acts = .ok σ)
    (hz : σ.zsockets fd = some zs) (ht : zs.type = .connect) (hs : zs.ssl = false)
    (hcl : zs.status.closed = false) (hw : zs.status.wantWriteFromWrite = true)
    (hfail : σ.step (.zfdWrite fd (.fail k e) r) = .ok σ') : σ'.Reports fd (.other 1) := by
  obtain ⟨t, htr, rfl⟩ := traced_run (t := Traced.init) hrun
  have hok := (Traced.OK.init.run htr).cells fd _ (cell_some hz)
  have hp := hok.plain ht hs
  -- a socket that waits is registered
  have hreg : t.zs.zfd.regW fd = some .internalWrite := by
    have hupd := congrArg Cell.regW (hok.reg ht)
    have hwants : zs.status.wantsWrite = true := by
      unfold ZsStat.wantsWrite
      rw [hw, Bool.or_true, Bool.true_or, Bool.true_or]
    unfold Cell.update Zs.cellOf at hupd
    simp only [ht, hwants, Bool.or_true, if_true] at hupd
    exact hupd.symm
  have hcall : zsInternalWrite t.zs fd (.fail k e) r = .ok σ' := by
    unfold Zfd.regW at hreg
    split at hreg
    · rename_i hact
      simp only [Zs.step, if_pos hact, hreg] at hfail
      exact hfail
    · cases hreg
  obtain ⟨zs', hz', hf⟩ := zsInternalWrite_failed (cell_some hz) ht hs hp hcl hw hcall
  exact failed_reports hz' hf

/-- **A failed write is reported**: when the `write` of `zs_writer` fails with `e`, the next `zs_write`
answers with 1, whatever `e` was. (`zs_internal_read` calls `zs_writer` with SSL only.) -/
theorem write_error_iff (acts : List ZsAct) (σ : Zs) (hrun : run Zs.step zsInit acts = .ok σ) (fd : ℕ)
    (zs : Zsocket) (hz : σ.zsockets fd = some zs) (ht : zs.type = .connect) (hs : zs.ssl = false)
    (hcl : zs.status.closed = false) (hw : zs.status.wantWriteFromWrite = true) (k : ℕ) (e : SockErrno)
    (r : RwRes) (σ' : Zs) (hfail : σ.step (.zfdWrite fd (.fail k e) r) = .ok σ') :
    σ'.Reports fd e ↔ e = .other 1 := by
  have hone := write_fails hrun hz ht hs hcl hw hfail
  constructor
  · exact fun h => h.unique hone
  · rintro rfl
    exact hone

/-- A byte waits to be written. -/
def writtenRun : List ZsAct :=
  [.zsocket 0 80 .connect .msgZsocket false ⟨.ok 3, true, .bytes []⟩, .write 3 [1]]

/-- The socket of that run, and the callback after it. -/
theorem writtenRun_fails (e : SockErrno) :
    ∃ σ zs σ', run Zs.step zsInit writtenRun = .ok σ ∧ σ.zsockets 3 = some zs ∧ zs.type = .connect ∧
      zs.ssl = false ∧ zs.status.closed = false ∧ zs.status.wantWriteFromWrite = true ∧
      σ.step (.zfdWrite 3 (.fail 0 e) .wantRead) = .ok σ' := by
  refine ⟨_, _, _, rfl, rfl, rfl, rfl, rfl, rfl, rfl⟩

theorem write_error_eperm : ∃ σ σ', run Zs.step zsInit writtenRun = .ok σ ∧
    σ.step (.zfdWrite 3 (.fail 0 (.other 1)) .wantRead) = .ok σ' ∧ σ'.Reports 3 (.other 1) := by
  obtain ⟨σ, zs, σ', hrun, hz, ht, hs, hcl, hw, hstep⟩ := writtenRun_fails (.other 1)
  exact ⟨σ, σ', hrun, hstep, (write_error_iff writtenRun σ hrun 3 zs hz ht hs hcl hw 0 (.other 1)
    .wantRead σ' hstep).2 rfl⟩

/-- Error number 32, of a peer that is gone, is reported as 1. -/
theorem write_error_lost : ¬∀ (acts : List ZsAct) (σ : Zs), run Zs.step zsInit acts = .ok σ →
    ∀ (fd : ℕ) (zs : Zsocket), σ.zsockets fd = some zs → zs.type = .connect → zs.ssl = false →
      zs.status.closed = false → zs.status.wantWriteFromWrite = true →
      ∀ (k : ℕ) (e : SockErrno) (r : RwRes) (σ' : Zs), e ≠ .eagain →
        σ.step (.zfdWrite fd (.fail k e) r) = .ok σ' → σ'.Reports fd e := by
  intro h
  obtain ⟨σ, zs, σ', hrun, hz, ht, hs, hcl, hw, hstep⟩ := writtenRun_fails (.other 32)
  have hall := h writtenRun σ hrun 3 zs hz ht hs hcl hw 0 (.other 32) .wantRead σ' (by decide) hstep
  have hone := hall.unique (write_fails hrun hz ht hs hcl hw hstep)
  cases hone

end Zimr
