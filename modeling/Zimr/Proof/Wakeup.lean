import Zimr.Proof.Moves

/-!
# No armed socket is stuck

Every move of `CellStep` keeps `Cell.OK` (`CellStep.ok`), so what waits for the kernel is
registered with `zfd` between any two calls (`no_lost_wakeup`).
-/

namespace Zimr

open Run

variable {t t' : Traced} {fd : ℕ} {zs : Zsocket} {c : Cell} {r : RwRes}

/-! ## What the reader and the writer do to the status -/

theorem Zsocket.readPlain_status (zs : Zsocket) (r : RwRes) :
    (zs.readPlain r).status = { zs.status with wantReadFromRead := true } ∨
      ∃ e, (zs.readPlain r).status = { zs.status with readable := true, reading := false, eof := e } := by
  cases r with
  | wantRead => exact Or.inl rfl
  | wantWrite => exact Or.inl rfl
  | fail k e => exact Or.inr ⟨_, rfl⟩
  | bytes bs =>
    right
    unfold Zsocket.readPlain
    simp only
    split
    · exact ⟨_, rfl⟩
    · exact ⟨_, rfl⟩

theorem Zsocket.writePlain_status (zs : Zsocket) (r : RwRes) :
    (zs.writePlain r).status = { zs.status with wantWriteFromWrite := true } ∨
      (zs.writePlain r).status = { zs.status with writable := true, writing := false } := by
  cases r with
  | wantRead => exact Or.inl rfl
  | wantWrite => exact Or.inl rfl
  | fail k e => exact Or.inr rfl
  | bytes bs =>
    unfold Zsocket.writePlain
    simp only
    split
    · exact Or.inl rfl
    · exact Or.inr rfl

/-- What the moves leave of a record. -/
structure Zsocket.Alike (zs zs' : Zsocket) : Prop where
  type : zs'.type = zs.type
  ssl : zs'.ssl = zs.ssl

theorem Zsocket.readPlain_alike (zs : Zsocket) (r : RwRes) : zs.Alike (zs.readPlain r) := by
  cases r with
  | bytes bs => unfold Zsocket.readPlain; simp only; split <;> exact ⟨rfl, rfl⟩
  | _ => exact ⟨rfl, rfl⟩

theorem Zsocket.writePlain_alike (zs : Zsocket) (r : RwRes) : zs.Alike (zs.writePlain r) := by
  cases r with
  | bytes bs => unfold Zsocket.writePlain; simp only; split <;> exact ⟨rfl, rfl⟩
  | _ => exact ⟨rfl, rfl⟩

theorem Zsocket.toRead_alike (zs : Zsocket) : zs.Alike zs.toRead :=
  ⟨zs.startRead_kin.type, zs.startRead_kin.ssl⟩

/-! ## The moves keep the status in order -/

theorem Zsocket.Plain.of_status {zs' : Zsocket} (h : zs.Plain) (hs : zs'.status = zs.status) :
    zs'.Plain := by
  obtain ⟨h1, h2, h3, h4, h5, h6, h7, h8, h9⟩ := h
  constructor <;> rw [hs] <;> assumption

/-- A socket that is registered for reading has nothing to read in its buffer. -/
theorem Zsocket.Plain.not_readable (h : c.sock.Plain) (ht : c.sock.type = .connect) (hreg : c.update = c)
    (hr : c.regR = some .internalRead) : c.sock.status.readable = false := by
  cases hrd : c.sock.status.readable with
  | false => rfl
  | true =>
    rw [← hreg] at hr
    simp only [Cell.update, ht, hrd, ZsStat.wantsRead, h.readable hrd, h.wantReadFromWrite,
      h.wantReadFromConnect, h.wantReadFromAccept, Bool.or_true, Bool.not_true, Bool.and_false,
      Bool.or_false, Bool.false_eq_true, if_false] at hr
    cases hr

theorem Zsocket.Plain.toRead (h : zs.Plain) : zs.toRead.status =
    { zs.status with reading := true, wantReadFromRead := false } := by
  unfold Zsocket.toRead Zsocket.startRead
  rw [h.wantReadFromWrite]
  have hr := h.reading
  cases hw : zs.status.wantReadFromRead with
  | false => rfl
  | true =>
    rw [hw] at hr
    simp [← hr]

theorem Zsocket.Plain.readEvent (h : zs.Plain) (hr : zs.status.readable = false) :
    (zs.toRead.readPlain r).Plain := by
  obtain ⟨h1, h2, h3, h4, h5, h6, h7, h8, h9⟩ := h
  have ht := Zsocket.Plain.toRead ⟨h1, h2, h3, h4, h5, h6, h7, h8, h9⟩
  obtain hs | ⟨e, hs⟩ := zs.toRead.readPlain_status r
  · constructor <;> rw [hs, ht] <;> simp_all
  · constructor <;> rw [hs, ht] <;> simp_all

theorem Zsocket.Plain.writeEvent (h : zs.Plain) (hw : zs.status.wantWriteFromWrite = true) :
    (zs.toWrite.writePlain r).Plain := by
  obtain ⟨h1, h2, h3, h4, h5, h6, h7, h8, h9⟩ := h
  obtain hs | hs := zs.toWrite.writePlain_status r
  · constructor <;> rw [hs] <;> simp_all [Zsocket.toWrite]
  · constructor <;> rw [hs] <;> simp_all [Zsocket.toWrite]

theorem Cell.refill_sock (c : Cell) (r : RwRes) : c.sock.Alike (c.refill r).sock := by
  unfold Cell.refill
  split
  · rw [Cell.update_sock]
    have := c.sock.drained.readPlain_alike r
    exact ⟨this.type, this.ssl⟩
  · exact ⟨rfl, rfl⟩

theorem Cell.refill_update (hreg : c.update = c) : (c.refill r).update = c.refill r := by
  unfold Cell.refill
  split
  · exact Cell.update_update _
  · exact hreg

theorem Zsocket.Plain.refill (h : c.sock.Plain) (hr : c.sock.status.readable = true) :
    (c.refill r).sock.Plain := by
  unfold Cell.refill
  split
  · rw [Cell.update_sock]
    have hw := h.readable hr
    obtain ⟨h1, h2, h3, h4, h5, h6, h7, h8, h9⟩ := h
    obtain hs | ⟨e, hs⟩ := c.sock.drained.readPlain_status r
    · constructor <;> simp only [hs] <;> simp_all [Zsocket.drained]
    · constructor <;> simp only [hs] <;> simp_all [Zsocket.drained]
  · exact h

/-- A connection without SSL that is in order. -/
theorem Cell.OK.of_plain (ht : c.sock.type = .connect) (hreg : c.update = c) (hp : c.sock.Plain) : c.OK where
  live _ := Or.inl hp.connected
  reg _ := hreg
  plain _ _ := hp
  idle hl := by rw [ht] at hl; cases hl
  listened hl := by rw [ht] at hl; cases hl

/-- **The moves of a connection keep it in order.** -/
theorem Cell.Move.ok {l l' : SockLog} {y : Option Cell} (h : c.Move l y l') (ht : c.sock.type = .connect)
    (hs : c.sock.ssl = false) (hok : c.OK) :
    ∀ c', y = some c' → c'.sock.type = .connect ∧ c'.sock.ssl = false ∧ c'.OK := by
  have hp := hok.plain ht hs
  have hreg := hok.reg ht
  -- a record that is set and registered
  have hset : ∀ {z : Zsocket}, c.sock.Alike z → z.Plain →
      ({ c with sock := z } : Cell).update.sock.type = .connect ∧
        ({ c with sock := z } : Cell).update.sock.ssl = false ∧
        ({ c with sock := z } : Cell).update.OK := by
    intro z ha hz
    have ht' : ({ c with sock := z } : Cell).update.sock.type = .connect := by
      rw [Cell.update_sock]; exact ha.type.trans ht
    refine ⟨ht', ?_, Cell.OK.of_plain ht' (Cell.update_update _) ?_⟩
    · rw [Cell.update_sock]; exact ha.ssl.trans hs
    · rw [Cell.update_sock]; exact hz
  have hcell : ∀ {c' : Cell}, c.sock.Alike c'.sock → c'.update = c' → c'.sock.Plain →
      c'.sock.type = .connect ∧ c'.sock.ssl = false ∧ c'.OK := fun ha hu hz =>
    ⟨ha.type.trans ht, ha.ssl.trans hs, Cell.OK.of_plain (ha.type.trans ht) hu hz⟩
  rintro c' hc'
  cases h with
  | arm r w =>
    cases hc'
    refine hcell ⟨?_, ?_⟩ (Cell.update_update _) ?_
    all_goals rw [Cell.update_sock]
    exact hp
  | share =>
    cases hc'
    refine hcell ⟨rfl, rfl⟩ ?_ (hp.of_status rfl)
    rw [Cell.update_with _ (by rfl) (by rfl), hreg]
  | defer hw =>
    cases hc'
    refine hcell ⟨rfl, rfl⟩ ?_ ?_
    · simp [Cell.update, ht, ZsStat.wantsRead, ZsStat.wantsWrite]
    · obtain ⟨h1, h2, h3, h4, h5, h6, h7, h8, h9⟩ := hp
      constructor <;> assumption
  | shut hw => cases hc'
  | readEvent r hrd hw =>
    cases hc'
    have ha := c.sock.toRead_alike
    have hb := c.sock.toRead.readPlain_alike r
    exact hset ⟨hb.type.trans ha.type, hb.ssl.trans ha.ssl⟩
      (hp.readEvent (hp.not_readable ht hreg hrd))
  | writeEvent r hw hcl =>
    cases hc'
    have hb := c.sock.toWrite.writePlain_alike r
    exact hset ⟨hb.type, hb.ssl⟩ (hp.writeEvent hw)
  | writeShut r hw hcl => cases hc'
  | readEnd r hrd hn bs hb =>
    cases hc'
    exact hcell (c.refill_sock r) (Cell.refill_update hreg) (hp.refill hrd)
  | readSome n r hrd he hu hn =>
    cases hc'
    have ha := Cell.refill_sock { c with sock := c.sock.take n } r
    refine hcell ⟨ha.type, ha.ssl⟩ (Cell.refill_update ?_) (Zsocket.Plain.refill (hp.of_status rfl) hrd)
    rw [Cell.update_with _ (by rfl) (by rfl), hreg]
  | write buf hw hb he =>
    cases hc'
    refine hset ⟨rfl, rfl⟩ ?_
    obtain ⟨h1, h2, h3, h4, h5, h6, h7, h8, h9⟩ := hp
    constructor <;> first | assumption | rfl | (intro h; cases h)
  | writeError hw he =>
    cases hc'
    refine hset ⟨rfl, rfl⟩ ?_
    obtain ⟨h1, h2, h3, h4, h5, h6, h7, h8, h9⟩ := hp
    constructor <;> first | assumption | rfl | (intro h; cases h)

theorem Cell.ListenMove.ok {u u' : SockUses} {y : Option Cell} (h : c.ListenMove u y u')
    (ht : c.sock.type = .listen) (hok : c.OK) :
    ∀ c', y = some c' → c'.sock.type = .listen ∧ c'.OK := by
  have hlis : ∀ {c' : Cell}, c'.sock.type = .listen → c'.sock.status.accepting = false →
      (c'.armR = true → c'.update = c') → c'.sock.type = .listen ∧ c'.OK := by
    intro c' ht' hi hu
    have hno : c'.sock.type ≠ .connect := by rw [ht']; decide
    exact ⟨ht', fun hc => absurd hc hno, fun hc => absurd hc hno, fun hc => absurd hc hno,
      fun _ => hi, fun _ => hu⟩
  have hidle := hok.idle ht
  rintro c' hc'
  cases h with
  | arm r w =>
    cases hc'
    refine hlis ?_ ?_ fun _ => Cell.update_update _
    · rw [Cell.update_sock]; exact ht
    · rw [Cell.update_sock]; exact hidle
  | share =>
    cases hc'
    refine hlis ht hidle fun har => ?_
    rw [Cell.update_with _ (by rfl) (by rfl), hok.listened ht har]
  | close hn =>
    cases hc'
    refine hlis ht hidle fun har => ?_
    rw [Cell.update_with _ (by rfl) (by rfl), hok.listened ht har]
  | shut hn => cases hc'
  | accept zs hty ha hp hs hn hi =>
    cases hc'
    refine hlis ?_ ?_ fun _ => Cell.update_update _
    · rw [Cell.update_sock]; exact hty.trans ht
    · rw [Cell.update_sock]; exact hi hidle

theorem Cell.Secure.ok (h : c.Secure) : c.OK where
  live _ := h.live
  reg _ := h.reg
  plain _ hs := by rw [h.ssl] at hs; cases hs
  idle hl := by rw [h.type] at hl; cases hl
  listened hl := by rw [h.type] at hl; cases hl

theorem Cell.Fresh.ok (h : c.Fresh) : c.OK := by
  refine Cell.OK.of_plain h.type h.reg ?_
  constructor <;> rw [h.status]
  · rintro ⟨⟩
  · intro _; rfl

/-- **Every step keeps the descriptors in order.** -/
theorem CellStep.ok {x y : Option Cell} {l l' : SockLog} {u u' : SockUses} (h : CellStep x l u y l' u')
    (hok : ∀ c, x = some c → c.OK) : ∀ c, y = some c → c.OK := by
  cases h with
  | same => exact hok
  | gone => rintro c ⟨⟩
  | plain _ _ ht hs h => exact fun c' hc' => (h.ok ht hs (hok _ rfl) c' hc').2.2
  | secure _ _ _ _ ht hs h => exact fun c' hc' => (h c' hc').ok
  | listen _ _ ht h => exact fun c' hc' => (h.ok ht (hok _ rfl) c' hc').2
  | listens c _ _ ht hs hn hr =>
    rintro c' ⟨⟩
    refine ⟨fun hc => ?_, fun hc => ?_, fun hc => ?_, fun _ => ?_, fun _ har => ?_⟩
    · rw [ht] at hc; cases hc
    · rw [ht] at hc; cases hc
    · rw [ht] at hc; cases hc
    · rw [hs]
    · rw [hr] at har; cases har
  | connects c _ _ _ h => rintro c' ⟨⟩; exact h.ok
  | connectsSecure c _ _ _ _ h => rintro c' ⟨⟩; exact h.ok

/-- The invariant of the layer. -/
structure Traced.OK (t : Traced) : Prop where
  cells : ∀ fd c, t.zs.cell fd = some c → c.OK
  zs : ZsOK t.zs

theorem Traced.step_zs {a : ZsAct} (h : t.step a = .ok t') : t.zs.step a = .ok t'.zs := by
  rw [← Traced.step_map, h]
  rfl

theorem Traced.OK.init : Traced.init.OK := ⟨by rintro fd c ⟨⟩, ZsOK.init⟩

theorem Traced.OK.step {a : ZsAct} (h : t.OK) (hs : t.step a = .ok t') : t'.OK :=
  ⟨fun fd => (Traced.step_cells h.cells h.zs hs fd).ok (h.cells fd), h.zs.step a (Traced.step_zs hs)⟩

theorem Traced.OK.run {acts : List ZsAct} (h : t.OK) (hrun : run Traced.step t acts = .ok t') :
    t'.OK :=
  run_inv (fun _ _ _ hI _ hs => Traced.OK.step hI hs) acts _ _ h
    (Along.of_forall (P := fun _ => True) fun _ _ => trivial) hrun

/-- A run of the sockets is one with the record. -/
theorem traced_run {acts : List ZsAct} {σ : Zs} (hrun : run Zs.step t.zs acts = .ok σ) :
    ∃ t', run Traced.step t acts = .ok t' ∧ t'.zs = σ := by
  induction acts generalizing t with
  | nil => cases hrun; exact ⟨t, rfl, rfl⟩
  | cons a acts ih =>
    obtain ⟨σ₁, h₁, hrun⟩ := run_cons_ok hrun
    have hm := t.step_map a
    rw [h₁] at hm
    cases ht : t.step a with
    | error e => rw [ht] at hm; cases hm
    | ok t₁ =>
      rw [ht] at hm
      cases hm
      obtain ⟨t', hr, hz⟩ := ih hrun
      exact ⟨t', by simp only [Run.run, ht]; exact hr, hz⟩

theorem zs_cells_ok {acts : List ZsAct} {σ : Zs} (hrun : run Zs.step zsInit acts = .ok σ) :
    ∀ fd c, σ.cell fd = some c → c.OK := by
  obtain ⟨t, hr, rfl⟩ := @traced_run Traced.init _ _ hrun
  exact (Traced.OK.init.run hr).cells

/-! ## What is registered -/

theorem Zfd.regR_some {z : Zfd} {h : ZfdHdlr} (hr : z.regR fd = some h) :
    z.activeRead fd = true ∧ z.readHandler fd = some h := by
  unfold Zfd.regR at hr
  split at hr
  · exact ⟨‹_›, hr⟩
  · cases hr

theorem Zfd.regW_some {z : Zfd} {h : ZfdHdlr} (hr : z.regW fd = some h) :
    z.activeWrite fd = true ∧ z.writeHandler fd = some h := by
  unfold Zfd.regW at hr
  split at hr
  · exact ⟨‹_›, hr⟩
  · cases hr

/-- **No lost wake-up**: between any two calls of any run, what a socket without SSL waits for
is registered with its handler. -/
theorem no_lost_wakeup (acts : List ZsAct) (σ : Zs) (hrun : run Zs.step zsInit acts = .ok σ) (fd : ℕ)
    (zs : Zsocket) (hz : σ.zsockets fd = some zs) (hssl : zs.ssl = false) :
    (zs.type = .connect → σ.activeRead fd = true → zs.status.readable = false →
        σ.zfd.activeRead fd = true ∧ σ.zfd.readHandler fd = some .internalRead) ∧
      (zs.type = .connect → zs.status.writing = true →
        σ.zfd.activeWrite fd = true ∧ σ.zfd.writeHandler fd = some .internalWrite) ∧
      (zs.type = .listen → σ.activeRead fd = true → zs.status.readable = false →
        σ.zfd.activeRead fd = true ∧ σ.zfd.readHandler fd = some .internalAccept) := by
  have hok := zs_cells_ok hrun fd _ (cell_some hz)
  refine ⟨fun ht har hrd => ?_, fun ht hw => ?_, fun ht har hrd => ?_⟩
  · have hp := hok.plain ht hssl
    have hreg := congrArg Cell.regR (hok.reg ht)
    refine Zfd.regR_some (hreg.symm.trans ?_)
    -- a read that was started waits for the kernel
    have hrr : zs.status.reading = zs.status.wantReadFromRead := hp.reading
    have hty : (σ.cellOf fd zs).sock.type = .connect := ht
    simp only [Cell.update, hty]
    rw [if_pos]
    simp only [Zs.cellOf, har, hrd, hrr, ZsStat.wantsRead]
    cases zs.status.wantReadFromRead <;> rfl
  · have hp := hok.plain ht hssl
    have hreg := congrArg Cell.regW (hok.reg ht)
    refine Zfd.regW_some (hreg.symm.trans ?_)
    have hww : zs.status.wantWriteFromWrite = true := by rw [← hw]; exact hp.writing.symm
    have hty : (σ.cellOf fd zs).sock.type = .connect := ht
    simp only [Cell.update, hty]
    rw [if_pos]
    simp [Zs.cellOf, ZsStat.wantsWrite, hww]
  · have hreg := congrArg Cell.regR (hok.listened ht har)
    refine Zfd.regR_some (hreg.symm.trans ?_)
    have hi : zs.status.accepting = false := hok.idle ht
    have hty : (σ.cellOf fd zs).sock.type = .listen := ht
    simp only [Cell.update, hty]
    rw [if_pos]
    simp [Zs.cellOf, har, hrd, hi]

/-- A connection is armed both ways and written to. -/
def writingRun : List ZsAct :=
  [.zsocket 0 80 .connect .msgZsocket false ⟨.ok 3, true, .bytes []⟩, .setWrite 3, .setRead 3,
    .write 3 [1, 2], .zfdWrite 3 (.bytes [0]) (.bytes [])]

theorem no_lost_wakeup_writing :
    ∃ σ zs, run Zs.step zsInit writingRun = .ok σ ∧ σ.zsockets 3 = some zs ∧
      zs.status.writing = true ∧ σ.zfd.activeWrite 3 = true ∧
      σ.zfd.writeHandler 3 = some .internalWrite := by
  obtain ⟨σ, h⟩ : ∃ σ, run Zs.step zsInit writingRun = .ok σ := ⟨_, rfl⟩
  have hn : (run Zs.step zsInit writingRun).toOption.map (fun σ => (σ.zsockets 3).map fun zs =>
      (zs.type, zs.ssl, zs.status.writing)) = some (some (.connect, false, true)) := by decide
  rw [h] at hn
  obtain ⟨zs, hz, heq⟩ := Option.map_eq_some_iff.1 (Option.some.inj hn)
  simp only [Prod.mk.injEq] at heq
  obtain ⟨ht, hs, hw⟩ := heq
  exact ⟨σ, zs, h, hz, hw, (no_lost_wakeup writingRun σ h 3 zs hz hs).2.1 ht hw⟩

end Zimr
