import Zimr.Proof.Wakeup

/-!
# Shared listeners

`zsocket` shares a listener by address and port. `Cell.Counted` ties the count of a listener to
the record of its uses; it is kept by every step, so a listener goes with its last user. The
lookup goes through connections too, and past the mode: `listen_finds_iff` says when the
descriptor it answers is what was asked for.
-/

namespace Zimr

open Run

variable {t t' : Traced} {σ σ' : Zs} {fd : ℕ} {c : Cell}

/-! ## The count -/

/-- **The moves of a listener keep its count**, and the last close closes it. -/
theorem Cell.ListenMove.counted {u u' : SockUses} {y : Option Cell} (h : c.ListenMove u y u')
    (hk : c.Counted u) :
    (∀ c', y = some c' → c'.Counted u') ∧ (y = none ↔ u'.closes = u'.listens) := by
  obtain ⟨hn, hlt⟩ := hk
  cases h with
  | arm r w =>
    refine ⟨fun c' hc' => ?_, fun hy => ?_, fun he => ?_⟩
    · cases hc'
      refine ⟨?_, hlt⟩
      rw [Cell.update_sock]
      exact hn
    · cases hy
    · omega
  | share =>
    refine ⟨fun c' hc' => ?_, fun hy => ?_, fun he => ?_⟩
    · cases hc'
      constructor
      · show c.sock.nOpen + 1 = ((u.listens + 1 : ℕ) : ℤ) - u.closes
        omega
      · exact Nat.lt_succ_of_lt hlt
    · cases hy
    · have he : u.closes = u.listens + 1 := he
      omega
  | close hpos =>
    refine ⟨fun c' hc' => ?_, fun hy => ?_, fun he => ?_⟩
    · cases hc'
      constructor
      · show c.sock.nOpen - 1 = (u.listens : ℤ) - ((u.closes + 1 : ℕ) : ℤ)
        omega
      · show u.closes + 1 < u.listens
        omega
    · cases hy
    · have he : u.closes + 1 = u.listens := he
      omega
  | shut hpos =>
    refine ⟨fun c' hc' => ?_, fun _ => ?_, fun _ => rfl⟩
    · cases hc'
    · show u.closes + 1 = u.listens
      omega
  | accept zs ht ha hp hs hn' hi =>
    refine ⟨fun c' hc' => ?_, fun hy => ?_, fun he => ?_⟩
    · cases hc'
      refine ⟨?_, hlt⟩
      rw [Cell.update_sock]
      exact hn'.trans hn
    · cases hy
    · omega

/-- The same for every step. -/
theorem CellStep.counted {x y : Option Cell} {l l' : SockLog} {u u' : SockUses}
    (h : CellStep x l u y l' u') (hok : ∀ c, x = some c → c.OK)
    (hk : ∀ c, x = some c → c.sock.type = .listen → c.Counted u) :
    (∀ c, y = some c → c.sock.type = .listen → c.Counted u') ∧
      ∀ c, x = some c → c.sock.type = .listen → (y = none ↔ u'.closes = u'.listens) := by
  have hno : ∀ {c : Cell}, c.sock.type = .connect → c.sock.type ≠ .listen := by
    intro c hc hl
    rw [hc] at hl
    cases hl
  cases h with
  | same =>
    refine ⟨hk, fun c hc ht => ⟨fun hy => ?_, fun he => ?_⟩⟩
    · rw [hc] at hy
      cases hy
    · have := (hk c hc ht).held
      omega
  | gone =>
    refine ⟨fun c hc => ?_, fun c hc => ?_⟩
    · cases hc
    · cases hc
  | plain _ _ ht hs h =>
    refine ⟨fun c' hc' hl => ?_, fun c' hc' hl => ?_⟩
    · exact absurd hl (hno (h.ok ht hs (hok _ rfl) c' hc').1)
    · cases hc'
      exact absurd hl (hno ht)
  | secure _ _ _ _ ht hs h =>
    refine ⟨fun c' hc' hl => ?_, fun c' hc' hl => ?_⟩
    · exact absurd hl (hno (h c' hc').type)
    · cases hc'
      exact absurd hl (hno ht)
  | listen _ _ ht h =>
    obtain ⟨h1, h2⟩ := h.counted (hk _ rfl ht)
    refine ⟨fun c' hc' _ => h1 c' hc', fun c' hc' _ => ?_⟩
    cases hc'
    exact h2
  | listens c _ _ ht hs hn hr =>
    refine ⟨fun c' hc' _ => ?_, fun c' hc' => ?_⟩
    · cases hc'
      exact ⟨by rw [hn]; rfl, Nat.one_pos⟩
    · cases hc'
  | connects c _ _ _ h =>
    refine ⟨fun c' hc' hl => ?_, fun c' hc' => ?_⟩
    · cases hc'
      exact absurd hl (hno h.type)
    · cases hc'
  | connectsSecure c _ _ _ _ h =>
    refine ⟨fun c' hc' hl => ?_, fun c' hc' => ?_⟩
    · cases hc'
      exact absurd hl (hno h.type)
    · cases hc'

/-- The count of every listener is right. -/
structure Traced.Counts (t : Traced) : Prop where
  ok : t.OK
  counted : ∀ fd c, t.zs.cell fd = some c → c.sock.type = .listen → c.Counted (t.uses fd)

theorem Traced.Counts.init : Traced.init.Counts := ⟨Traced.OK.init, by rintro fd c ⟨⟩⟩

theorem Traced.Counts.step {a : ZsAct} (h : t.Counts) (hs : t.step a = .ok t') : t'.Counts where
  ok := h.ok.step hs
  counted fd := ((Traced.step_cells h.ok.cells h.ok.zs hs fd).counted (h.ok.cells fd) (h.counted fd)).1

theorem Traced.Counts.run {acts : List ZsAct} (h : t.Counts) (hrun : run Traced.step t acts = .ok t') :
    t'.Counts :=
  run_inv (fun _ _ _ hI _ hs => Traced.Counts.step hI hs) acts _ _ h
    (Along.of_forall (P := fun _ => True) fun _ _ => trivial) hrun

/-! ## The lookup -/

/-- `zs_get_by_info` finds the first socket with this address and port. -/
theorem zsGetByInfo_first {addr : ℕ} {portno : ℤ} : zsGetByInfo σ addr portno = some fd ↔
    fd < fdSetSize ∧ (∃ p, σ.zsockets fd = some p ∧ p.addr = addr ∧ p.portno = portno) ∧
      ∀ j < fd, ∀ q, σ.zsockets j = some q → q.addr = addr → q.portno ≠ portno := by
  unfold zsGetByInfo
  rw [List.find?_range_eq_some, List.mem_range]
  constructor
  · rintro ⟨hp, hlt, hfirst⟩
    refine ⟨hlt, zsGetByInfo_spec (List.find?_range_eq_some.2 ⟨hp, List.mem_range.2 hlt, hfirst⟩),
      fun j hj q hq ha hn => ?_⟩
    have hno := hfirst j hj
    rw [hq] at hno
    simp [ha, hn] at hno
  · rintro ⟨hlt, ⟨p, hp, ha, hn⟩, hfirst⟩
    refine ⟨?_, hlt, fun j hj => ?_⟩
    · rw [hp]
      simp [ha, hn]
    · cases hq : σ.zsockets j with
      | none => rfl
      | some q =>
        have hno := hfirst j hj q hq
        simp only [Bool.not_eq_true', Bool.and_eq_false_iff, decide_eq_false_iff_not]
        by_cases ha : q.addr = addr
        · exact Or.inl (hno ha)
        · exact Or.inr ha

/-- **What a call for a listener answers** is what was asked for exactly when what it finds is. -/
theorem listen_finds_iff {addr : ℕ} {portno : ℤ} {hdlr : EventHdlr} {ssl : Bool} {k : SockRes}
    (hc : zsocket σ addr portno .listen hdlr ssl k = .ok (σ', .ok fd)) :
    (∃ p, σ'.zsockets fd = some p ∧ p.type = .listen ∧ p.addr = addr ∧ p.portno = portno ∧
      p.ssl = ssl) ↔ σ.Shares addr portno ssl := by
  obtain ⟨-, e, he⟩ | ⟨i, c, -, hfound, hres, hcell, hx⟩ | ⟨i, hno, hres, -, ⟨-, hx⟩ | ⟨ht, -⟩⟩ :=
    zsocket_cases hc
  · cases he
  · -- the socket that was found has one more user
    cases hres
    obtain ⟨hlt, ⟨p, hp, ha, hn⟩, hfirst⟩ := zsGetByInfo_first.1 hfound
    obtain rfl : c.sock = p := Option.some.inj ((of_cell hcell).1.symm.trans hp)
    have hnew := (of_cell (cell_self hx)).1
    constructor
    · rintro ⟨q, hq, ht, -, -, hs⟩ j r hj hr har hnr hlow
      obtain rfl := Option.some.inj (hnew.symm.trans hq)
      -- there is one first socket
      have hji : j = fd := by
        have := zsGetByInfo_first.2 ⟨hj, ⟨r, hr, har, hnr⟩, hlow⟩
        exact Option.some.inj (this.symm.trans hfound)
      rw [hji, hp] at hr
      obtain rfl := Option.some.inj hr
      exact ⟨ht, hs⟩
    · intro hsh
      obtain ⟨ht, hs⟩ := hsh fd c.sock hlt hp ha hn hfirst
      exact ⟨_, hnew, ht, ha, hn, hs⟩
  · cases hres
    have hnew := (of_cell (cell_self hx)).1
    refine ⟨fun _ j r hj hr har hnr hlow => ?_, fun _ => ⟨_, hnew, rfl, rfl, rfl, rfl⟩⟩
    have := (hno rfl).symm.trans (zsGetByInfo_first.2 ⟨hj, ⟨r, hr, har, hnr⟩, hlow⟩)
    cases this
  · cases ht

/-- **Shared listeners**, in every run: a call for a listener answers one with this address, port
and mode exactly when the first socket with the address and the port is one or there is none; and
a listener is really closed with the close that makes up for the last call that answered it. -/
theorem shared_listeners (acts : List ZsAct) (t : Traced) (hrun : run Traced.step Traced.init acts = .ok t) :
    (∀ addr portno hdlr ssl k σ fd, zsocket t.zs addr portno .listen hdlr ssl k = .ok (σ, .ok fd) →
      ((∃ p, σ.zsockets fd = some p ∧ p.type = .listen ∧ p.addr = addr ∧ p.portno = portno ∧
        p.ssl = ssl) ↔ t.zs.Shares addr portno ssl)) ∧
      ∀ fd p, t.zs.zsockets fd = some p → p.type = .listen →
        (t.uses fd).closes < (t.uses fd).listens ∧ ∀ a t', t.step a = .ok t' →
          (t'.zs.zsockets fd = none ↔ (t'.uses fd).closes = (t'.uses fd).listens) := by
  have hall := Traced.Counts.init.run hrun
  refine ⟨fun addr portno hdlr ssl k σ fd hc => listen_finds_iff hc, fun fd p hp ht => ?_⟩
  have hx := cell_some hp
  refine ⟨(hall.counted fd _ hx ht).held, fun a t' hstep => ?_⟩
  have hcell := Traced.step_cells hall.ok.cells hall.ok.zs hstep fd
  rw [← (CellStep.counted hcell (hall.ok.cells fd) (hall.counted fd)).2 _ hx ht]
  exact ⟨cell_none, cell_eq_none⟩

/-- A listener on every address, and a client that comes from this host. -/
def localClientRun : List ZsAct :=
  [.zsocket 0 80 .listen .insock false ⟨.ok 3, true, .bytes []⟩, .setRead 3,
    .zfdRead 3 (.ok (4, 0x7f000001)) .wantRead .wantRead]

/-- A second call for the listener shares it. Without one the first close is the last. -/
theorem shared_listeners_localClient :
    ∃ t σ t', run Traced.step Traced.init localClientRun = .ok t ∧
      zsocket t.zs 0 80 .listen .insock false ⟨.ok 5, true, .bytes []⟩ = .ok (σ, .ok 3) ∧
      t.zs.Shares 0 80 false ∧ (t.uses 3).closes < (t.uses 3).listens ∧
      t.step (.close 3) = .ok t' ∧ t'.zs.zsockets 3 = none := by
  have hthere : (run Traced.step Traced.init localClientRun).toOption.bind (fun t =>
      (t.zs.zsockets 3).map (·.type)) = some .listen := by decide +kernel
  have hcall : (run Traced.step Traced.init localClientRun).toOption.bind (fun t =>
      (zsocket t.zs 0 80 .listen .insock false ⟨.ok 5, true, .bytes []⟩).toOption.map fun q =>
        (q.2.toOption, (q.1.zsockets 3).map fun p => (p.type, p.addr, p.portno, p.ssl))) =
      some (some 3, some (.listen, 0, 80, false)) := by decide +kernel
  have hclose : (run Traced.step Traced.init localClientRun).toOption.bind (fun t =>
      (t.step (.close 3)).toOption.map fun t' => decide ((t'.uses 3).closes = (t'.uses 3).listens)) =
      some true := by decide +kernel
  obtain ⟨t, ht, hthere⟩ := Option.bind_eq_some_iff.1 hthere
  have hrun := ok_of_toOption ht
  rw [ht, Option.bind_some] at hcall hclose
  obtain ⟨p, hp, hlisten⟩ := Option.map_eq_some_iff.1 hthere
  obtain ⟨⟨σ, res⟩, hgot, hfound⟩ := Option.map_eq_some_iff.1 hcall
  obtain ⟨t', hstep, hlast⟩ := Option.map_eq_some_iff.1 hclose
  obtain ⟨hres, hsock⟩ := Prod.mk.inj hfound
  obtain ⟨q, hq, hshared⟩ := Option.map_eq_some_iff.1 hsock
  simp only [Prod.mk.injEq] at hshared
  obtain rfl : res = .ok 3 := ok_of_toOption hres
  have hanswer := ok_of_toOption hgot
  have hdone := ok_of_toOption hstep
  obtain ⟨hfirst, hsecond⟩ := shared_listeners localClientRun t hrun
  obtain ⟨hheld, hends⟩ := hsecond 3 p hp hlisten
  exact ⟨t, σ, t', hrun, hanswer, (hfirst 0 80 _ false _ σ 3 hanswer).1 ⟨q, hq, hshared⟩, hheld, hdone,
    (hends (.close 3) t' hdone).2 (of_decide_eq_true hlast)⟩

/-- The client's descriptor is answered to a call for a listener on this host. -/
theorem listen_answers_client :
    ∃ t σ p, run Traced.step Traced.init localClientRun = .ok t ∧
      zsocket t.zs 0x7f000001 80 .listen .insock false ⟨.ok 5, true, .bytes []⟩ = .ok (σ, .ok 4) ∧
      σ.zsockets 4 = some p ∧ p.type = .connect := by
  have hn : (run Traced.step Traced.init localClientRun).toOption.bind (fun t =>
      (zsocket t.zs 0x7f000001 80 .listen .insock false ⟨.ok 5, true, .bytes []⟩).toOption.map fun q =>
        (q.2.toOption, (q.1.zsockets 4).map (·.type))) = some (some 4, some .connect) := by
    decide +kernel
  cases h : run Traced.step Traced.init localClientRun with
  | error e => rw [h] at hn; cases hn
  | ok t =>
    rw [h, show (Except.ok t : Except ZsFault Traced).toOption = some t from rfl, Option.bind_some,
      Option.map_eq_some_iff] at hn
    obtain ⟨⟨σ, res⟩, hq, heq⟩ := hn
    obtain ⟨hres, hsock⟩ := Prod.mk.inj heq
    obtain ⟨p, hp, ht⟩ := Option.map_eq_some_iff.1 hsock
    refine ⟨t, σ, p, rfl, ?_, hp, ht⟩
    obtain rfl : res = .ok 4 := by
      cases res with
      | error e => cases hres
      | ok fd => cases hres; rfl
    cases hz : zsocket t.zs 0x7f000001 80 .listen .insock false ⟨.ok 5, true, .bytes []⟩ with
    | error e => rw [hz] at hq; cases hq
    | ok r => rw [hz] at hq; cases hq; rfl

end Zimr
