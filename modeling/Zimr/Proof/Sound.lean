import Zimr.Proof.Board
import Zimr.Proof.Pace
import Zimr.Proof.Seated

/-!
# The daemon keeps its tables together

`Daemon.Sound` puts together what the tables ask of the sockets (`Daemon.Seated`), of the switches
(`Board.Joined`) and of the interest: the socket of a client that is in no table is not armed.
-/

namespace Zimr

open Run Seating Board

namespace Daemon

variable {α : Type} {d d' d₁ d₂ : Daemon} {fd i c w j : ℕ} {conn : ConnData} {sw sw' : MsgSwitch} {zs : Zs}
  {k : SockCore}

def board (d : Daemon) : Board := ⟨d.switches, d.connections, d.websites, d.zs.Free⟩

/-- A client's socket that is in no table is not armed. -/
def Still (d : Daemon) : Prop :=
  ∀ i k, d.connections i = none → d.zs.core i = some k → k.type = .connect → k.eventHdlr = .exsock →
    ¬d.zs.Armed i

/-- The invariant, without the switches. -/
structure Based (d : Daemon) : Prop where
  seated : d.Seated False
  still : d.Still
  ok : ZsOK d.zs
  paced : d.zs.Paced

/-- The board, with sockets of which it is not asked whether they take a write. -/
def boardBut (d : Daemon) (x : Option ℕ) : Board := { d.board with free := fun i => some i = x ∨ d.zs.Free i }

/-- The invariant, but for whether the socket of `c` takes a write. -/
structure SoundBut (d : Daemon) (x : Option ℕ) : Prop extends Based d where
  joined : (d.boardBut x).Joined

/-- The invariant. -/
def Sound (d : Daemon) : Prop := d.SoundBut none

theorem Sound.board (h : d.Sound) : d.board.Joined := by
  have := h.joined.refree (f := d.zs.Free) fun c _ _ hf => hf.resolve_left (by simp)
  exact this

theorem Based.sound (h : d.Based) (hj : d.board.Joined) : d.Sound :=
  ⟨h, hj.refree fun _ _ _ hf => .inr hf⟩

/-! ## The layers below -/

/-- Every switch keeps its socket. -/
theorem setZs_board (hh : ∀ i, (d.switches i).isSome → (zs.zsockets i).isSome) :
    (d.setZs zs).board = { d.board with free := zs.Free } := by
  have hsw : (d.setZs zs).switches = d.switches := by
    funext i
    unfold setZs
    simp only
    split
    · rfl
    · rename_i hn
      cases hsw : d.switches i with
      | none => rfl
      | some sw => exact absurd (hh i (by rw [hsw]; rfl)) hn
  unfold board
  rw [hsw]
  rfl

theorem Seated.hosted {L : Prop} (h : d.Seated L) (hsw : (d.switches i).isSome) :
    ∃ k, d.zs.core i = some k := by
  obtain ⟨k, hk, -⟩ := (h.fits i).webapp hsw
  exact ⟨k, hk⟩

theorem core_isSome {σ : Zs} (h : ∃ k, σ.core i = some k) : (σ.zsockets i).isSome := by
  obtain ⟨k, hk⟩ := h
  obtain ⟨z, hz, -⟩ := of_core hk
  rw [hz]
  rfl

theorem free_core {σ : Zs} (h : σ.Free i) : ∃ k, σ.core i = some k := by
  obtain ⟨z, hz, -⟩ := h
  exact ⟨z.core, core_some hz⟩

/-- What stays open takes what it took. -/
theorem grows_free {σ σ' : Zs} (hg : σ.Grows σ') (hcore : σ'.core i = σ.core i) (hf : σ.Free i) :
    σ'.Free i := by
  obtain hf' | hn := hg.free i hf
  · exact hf'
  · obtain ⟨k, hk⟩ := free_core hf
    rw [← hcore, core_none.2 hn] at hk
    cases hk

/-- A call that leaves the cores alone. -/
theorem Based.quiet (h : d.Based) (hcore : zs.core = d.zs.core) (hpaced : d.zs.Paced → zs.Paced)
    (harmed : ∀ i k, d.connections i = none → d.zs.core i = some k → k.type = .connect →
      k.eventHdlr = .exsock → zs.Armed i → d.zs.Armed i) (hok : ZsOK zs) :
    (d.setZs zs).Based ∧ (d.setZs zs).board = { d.board with free := zs.Free } := by
  refine ⟨⟨h.seated.quiet (setZs_quiet hcore), fun i k hn hk ht he ha => ?_, hok, hpaced h.paced⟩, ?_⟩
  · rw [show (d.setZs zs).zs.core = zs.core from rfl, hcore] at hk
    exact h.still i k hn hk ht he (harmed i k hn hk ht he ha)
  · exact setZs_board fun i hi => core_isSome (by rw [hcore]; exact h.seated.hosted hi)

theorem SoundBut.quiet {x y : Option ℕ} (h : d.SoundBut x) (hcore : zs.core = d.zs.core)
    (hfree : ∀ i, some i = x ∨ d.zs.Free i → some i = y ∨ zs.Free i) (hpaced : d.zs.Paced → zs.Paced)
    (harmed : ∀ i k, d.connections i = none → d.zs.core i = some k → k.type = .connect →
      k.eventHdlr = .exsock → zs.Armed i → d.zs.Armed i) (hok : ZsOK zs) :
    (d.setZs zs).SoundBut y := by
  obtain ⟨hb, he⟩ := h.toBased.quiet hcore hpaced harmed hok
  refine ⟨hb, ?_⟩
  unfold boardBut
  rw [he]
  exact h.joined.refree fun i _ _ => hfree i

theorem SoundBut.lapse {x : Option ℕ} (h : d.SoundBut x) (hcore : zs.core = d.zs.core) (hl : d.zs.Lapses zs)
    (hok : ZsOK zs) : (d.setZs zs).SoundBut x :=
  h.quiet hcore (fun i hi => hi.imp id (grows_free hl.grows (congrFun hcore i))) hl.paced
    (fun i _ _ _ _ _ => hl.armed i) hok

/-- The socket of `fd` is in a table, or is no client's. -/
def Placed (d : Daemon) (fd : ℕ) : Prop :=
  ∀ k, d.connections fd = none → d.zs.core fd = some k → k.type = .connect → k.eventHdlr ≠ .exsock

theorem SoundBut.arm {x : Option ℕ} (h : d.SoundBut x) (hz : zs.zsockets = d.zs.zsockets)
    (ha : ∀ i, i ≠ fd → zs.Armed i → d.zs.Armed i) (hfd : d.Placed fd) (hok : ZsOK zs) :
    (d.setZs zs).SoundBut x := by
  refine h.quiet (core_eq hz) (fun i hi => hi.imp id fun hf => hf.congr hz) (fun hp => hp.congr hz)
    (fun i k hn hk ht he => ha i ?_) hok
  rintro rfl
  exact hfd k hn hk ht he

theorem SoundBut.setRead {x : Option ℕ} (h : d.SoundBut x) (hfd : d.Placed fd)
    (hz : zsSetRead d.zs fd = .ok zs) : (d.setZs zs).SoundBut x :=
  h.arm (zsSetRead_eq hz).1 (fun _ hi => zsSetRead_armed hz hi) hfd (h.ok.setRead hz)

theorem SoundBut.setWrite {x : Option ℕ} (h : d.SoundBut x) (hfd : d.Placed fd)
    (hz : zsSetWrite d.zs fd = .ok zs) : (d.setZs zs).SoundBut x :=
  h.arm (zsSetWrite_eq hz).1 (fun _ hi => zsSetWrite_armed hz hi) hfd (h.ok.setWrite hz)

theorem SoundBut.clrRead {x : Option ℕ} (h : d.SoundBut x) (hz : zsClrRead d.zs fd = .ok zs) :
    (d.setZs zs).SoundBut x :=
  h.lapse (zsClrRead_core hz) (zsClrRead_lapses hz) (h.ok.clrRead hz)

theorem SoundBut.clrWrite {x : Option ℕ} (h : d.SoundBut x) (hz : zsClrWrite d.zs fd = .ok zs) :
    (d.setZs zs).SoundBut x :=
  h.lapse (zsClrWrite_core hz) (zsClrWrite_lapses hz) (h.ok.clrWrite hz)

theorem SoundBut.write {x : Option ℕ} {buf : List UInt8} {r : Except SockErrno ℕ} (h : d.SoundBut x)
    (hx : ∀ i, some i = x → i = c) (hz : zsWrite d.zs c buf = .ok (zs, r)) :
    (d.setZs zs).SoundBut (some c) := by
  obtain ⟨hfree, hpaced, harmed, -⟩ := zsWrite_free hz
  refine h.quiet (zsWrite_core hz) (fun i hi => ?_) hpaced (fun i _ _ _ _ _ => harmed i) (h.ok.write hz)
  by_cases he : i = c
  · exact .inl (by rw [he])
  · obtain hi | hi := hi
    · exact .inl (by rw [hx i hi])
    · exact .inr (hfree i he hi)

theorem placed_conn (h : d.connections c = some conn) : d.Placed c := by
  intro k hn
  rw [h] at hn
  cases hn

theorem Linked.placed (hl : d.Linked fd) : d.Placed fd := by
  intro k _ hk _
  obtain ⟨k', hk', hw⟩ := hl
  obtain rfl := Option.some.inj (hk.symm.trans hk')
  rw [hw.eventHdlr]
  decide

/-- **A call of `msg_switch.c`** leaves everything but the switch as it is. -/
theorem Based.lend {b : Bool} (h : d.Based) (hsw : d.switches w = some sw)
    (hr : (d.putSwitch w sw').rearm w b = .ok d') :
    d'.Based ∧ d'.board = d.board.put w (some sw') ∧ d'.zs.zsockets = d.zs.zsockets := by
  have hq := putSwitch_quiet (by rw [hsw]; rfl) sw'
  have hl : (d.putSwitch w sw').Linked w := (h.seated.linked (by rw [hsw]; rfl)).quiet hq
  have hp : (d.putSwitch w sw').Based := ⟨h.seated.quiet hq, h.still, h.ok, h.paced⟩
  have hboard : ∀ zs : Zs, zs.zsockets = d.zs.zsockets →
      ({ (d.putSwitch w sw').board with free := zs.Free } : Board) = d.board.put w (some sw') := by
    intro zs hz
    have hf : zs.Free = d.zs.Free := by
      funext i
      unfold Zs.Free
      rw [hz]
    rw [hf]
    rfl
  obtain rfl | ⟨zs, hz | hz, rfl⟩ := rearm_ok hr
  · exact ⟨hp, rfl, rfl⟩
  · have hz' := (zsSetWrite_eq hz).1
    have harmed : ∀ i k, (d.putSwitch w sw').connections i = none → (d.putSwitch w sw').zs.core i = some k →
        k.type = .connect → k.eventHdlr = .exsock → zs.Armed i → (d.putSwitch w sw').zs.Armed i := by
      intro i k hn hk ht he
      refine zsSetWrite_armed hz ?_
      rintro rfl
      exact hl.placed k hn hk ht he
    obtain ⟨hb, hbo⟩ := hp.quiet (core_eq hz') (fun hp => hp.congr hz') harmed (hp.ok.setWrite hz)
    exact ⟨hb, hbo.trans (hboard zs hz'), hz'⟩
  · have hz' := (zsClrWrite_eq hz).1
    have hl := zsClrWrite_lapses hz
    obtain ⟨hb, hbo⟩ := hp.quiet (core_eq hz') hl.paced (fun i _ _ _ _ _ => hl.armed i) (hp.ok.clrWrite hz)
    exact ⟨hb, hbo.trans (hboard zs hz'), hz'⟩

theorem lent_keeps (d : Daemon) (w : ℕ) (sw : MsgSwitch) : Keeps sw (d.lent w sw) := .of_eq rfl rfl rfl

/-- The switch with what the call is handed. -/
theorem SoundBut.lent {x : Option ℕ} (h : d.SoundBut x) (hsw : d.switches w = some sw) :
    ((d.boardBut x).put w (some (d.lent w sw))).Joined :=
  h.joined.keeps hsw (lent_keeps d w sw)

/-- The same, of a call that keeps the switch joined. -/
theorem SoundBut.lend {x : Option ℕ} {b : Bool} (h : d.SoundBut x) (hsw : d.switches w = some sw)
    (hj : (((d.boardBut x).put w (some (d.lent w sw))).put w (some sw')).Joined)
    (hr : (d.putSwitch w sw').rearm w b = .ok d') : d'.SoundBut x ∧ d'.board = d.board.put w (some sw') := by
  obtain ⟨hb, hbo, hz⟩ := h.toBased.lend hsw hr
  refine ⟨⟨hb, ?_⟩, hbo⟩
  have he : d'.boardBut x = (d.boardBut x).put w (some sw') := by
    unfold boardBut
    rw [hbo]
    have hf : d'.zs.Free = d.zs.Free := by
      funext i
      unfold Zs.Free
      rw [hz]
    rw [hf]
    rfl
  rw [he, ← put_put _ _ (some (d.lent w sw))]
  exact hj

end Daemon

end Zimr
