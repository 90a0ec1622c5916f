import Zimr.Proof.State
import Zimr.Spec.Webapps

/-!
# The webapps of a user are under control

* `Later` — what time, a signal and a wait do to the processes: no webapp is started by them
* `applicationKill_gone` — when a process was ended, its pid is in use no more
* `Outcome` — what each command leaves, whether it succeeds or not
* `applicationFunction_work` — the file afterwards is that of the commands without processes
* `webapps_run` — over all commands and whatever happens in between, each webapp that runs in the
  background is the one its entry in the state file names
-/

namespace Zimr

open Run

variable {path q : List UInt8} {apps apps' : List StateApp} {app : StateApp} {h h' : UserHost}
  {procs procs' procs'' : List Process} {pid : ℤ} {m : Meets} {type : CmdType}

/-- The pids are what a system gives out, and the user may signal the webapps. -/
structure ProcsOK (procs : List Process) : Prop where
  pos : ∀ P ∈ procs, 0 < P.pid
  nodup : (procs.map Process.pid).Nodup
  mine : ∀ P ∈ procs, P.webapp ≠ none → P.mine = true

/-- A webapp has one entry, and no pid when it is disabled. -/
structure EntriesOK (apps : List StateApp) : Prop where
  named : ∀ app ∈ apps, app.path ≠ none
  single : ∀ path, (entriesOf path apps).length ≤ 1
  disabled : ∀ app ∈ apps, app.stopped = true → app.pid = 0

/-- **Each webapp that runs is recorded**: its entry has the pid of the process. -/
structure Recorded (h : UserHost) : Prop where
  procs : ProcsOK h.procs
  entries : EntriesOK (zcnfStateLoad h.file)
  running : ∀ P ∈ h.procs, ∀ path, P.webapp = some path →
    ∃ app ∈ entriesOf path (zcnfStateLoad h.file), app.pid = P.pid

/-! ## The processes -/

/-- Time has passed: no webapp was started. -/
structure Later (procs procs' : List Process) : Prop where
  ok : ProcsOK procs → ProcsOK procs'
  old : ∀ P ∈ procs', P.webapp ≠ none → P ∈ procs

theorem Later.refl (procs : List Process) : Later procs procs := ⟨id, fun _ h _ => h⟩

theorem Later.trans (h : Later procs procs') (h' : Later procs' procs'') : Later procs procs'' :=
  ⟨fun hp => h'.ok (h.ok hp), fun P hP hw => h.old P (h'.old P hP hw) hw⟩

theorem ProcsOK.cons_free (hp : ProcsOK procs) (hfree : freePid procs pid) (P : Process)
    (hpid : P.pid = pid) (hmine : P.webapp ≠ none → P.mine = true) : ProcsOK (procs ++ [P]) := by
  obtain ⟨hpos, hne⟩ := hfree
  refine ⟨?_, ?_, ?_⟩
  · intro Q hQ
    rcases List.mem_append.1 hQ with hQ | hQ
    · exact hp.pos Q hQ
    · rw [List.mem_singleton.1 hQ, hpid]
      exact hpos
  · rw [List.map_append, List.nodup_append]
    refine ⟨hp.nodup, List.nodup_singleton _, ?_⟩
    intro a ha b hb hab
    obtain ⟨Q, hQ, hQa⟩ := List.mem_map.1 ha
    rw [List.map_singleton, List.mem_singleton] at hb
    apply hne Q hQ
    rw [hQa, hab, hb, hpid]
  · intro Q hQ hw
    rcases List.mem_append.1 hQ with hQ | hQ
    · exact hp.mine Q hQ hw
    · rw [List.mem_singleton.1 hQ] at hw ⊢
      exact hmine hw

theorem later_step (procs : List Process) (ev : ProcEvent) : Later procs (ev.step procs) := by
  cases ev with
  | ended pid =>
    refine ⟨fun hp => ⟨?_, ?_, ?_⟩, fun P hP _ => List.mem_of_mem_filter hP⟩
    · intro P hP
      exact hp.pos P (List.mem_of_mem_filter hP)
    · exact hp.nodup.sublist (List.filter_sublist.map _)
    · intro P hP
      exact hp.mine P (List.mem_of_mem_filter hP)
  | began pid mine =>
    simp only [ProcEvent.step]
    split
    · rename_i hfree
      refine ⟨fun hp => hp.cons_free hfree _ rfl fun hw => (hw rfl).elim, fun P hP hw => ?_⟩
      rcases List.mem_append.1 hP with hP | hP
      · exact hP
      · rw [List.mem_singleton.1 hP] at hw
        exact (hw rfl).elim
    · exact Later.refl procs

theorem later_pass (procs : List Process) (evs : List ProcEvent) : Later procs (pass procs evs) := by
  induction evs generalizing procs with
  | nil => exact Later.refl procs
  | cons ev evs ih => exact (later_step procs ev).trans (ih _)

theorem later_sleep (left : ℕ) (sleeps : List (List ProcEvent)) (procs : List Process) :
    Later procs (sleepWhileThere pid left sleeps procs) := by
  induction left generalizing sleeps procs with
  | zero => exact Later.refl procs
  | succ left ih =>
    unfold sleepWhileThere
    split
    · exact (later_pass procs _).trans (ih _ _)
    · exact Later.refl procs

/-- No process has the pid. -/
theorem sendSignal_gone {sig : Signal} (h : sendSignal procs pid sig = .error .esrch) :
    ∀ P ∈ procs, P.pid ≠ pid := by
  unfold sendSignal at h
  split at h
  · rename_i hfind
    intro P hP
    simpa using List.find?_eq_none.1 hfind P hP
  · split at h <;> cases h

theorem endproc_later (sig : Signal) (procs : List Process) (pid : ℤ) (sleeps : List (List ProcEvent)) :
    Later procs (endproc sig procs pid sleeps).1 ∧
      ((endproc sig procs pid sleeps).2 = .ok () ∨ (endproc sig procs pid sleeps).2 = .error .esrch →
        ∀ P ∈ (endproc sig procs pid sleeps).1, P.pid ≠ pid) := by
  unfold endproc
  cases hfirst : sendSignal procs pid sig with
  | error e =>
    refine ⟨Later.refl procs, fun h => ?_⟩
    rcases h with h | h
    · cases h
    · cases h
      exact sendSignal_gone hfirst
  | ok u =>
    simp only
    have hlater := @later_sleep pid (3 * 1000000 / 250000) sleeps procs
    cases hlast : sendSignal (sleepWhileThere pid (3 * 1000000 / 250000) sleeps procs) pid .none with
    | ok u => exact ⟨hlater, fun h => by rcases h with h | h <;> cases h⟩
    | error e =>
      cases e with
      | esrch => exact ⟨hlater, fun _ => sendSignal_gone hlast⟩
      | eperm => exact ⟨hlater, fun h => by rcases h with h | h <;> cases h⟩
      | ebusy => exact ⟨hlater, fun h => by rcases h with h | h <;> cases h⟩

theorem applicationKill_eq (procs : List Process) (force : Bool) (sleeps : List (List ProcEvent))
    (hpid : pid ≠ 0) : ∃ sig, (applicationKill procs pid force sleeps).1 = (endproc sig procs pid sleeps).1 ∧
      ((applicationKill procs pid force sleeps).2 = true → (endproc sig procs pid sleeps).2 = .ok () ∨
        (endproc sig procs pid sleeps).2 = .error .esrch) := by
  unfold applicationKill
  rw [if_neg hpid]
  have hsig : (if force then killproc procs pid sleeps else stopproc procs pid sleeps) =
      endproc (if force then .kill else .term) procs pid sleeps := by
    cases force
    · rfl
    · rfl
  refine ⟨if force then .kill else .term, ?_⟩
  simp only [hsig]
  generalize endproc (if force then .kill else .term) procs pid sleeps = r
  obtain ⟨procs', res⟩ := r
  cases res with
  | ok u => exact ⟨rfl, fun _ => Or.inl rfl⟩
  | error e =>
    refine ⟨rfl, fun h => Or.inr ?_⟩
    have he : e = .esrch := by simpa using h
    rw [he]

/-- **A process that was ended is gone**, and for a pid of 0 there is nothing to end. -/
theorem applicationKill_gone {force : Bool} {sleeps : List (List ProcEvent)} {gone : Bool}
    (hp : ProcsOK procs) (h : applicationKill procs pid force sleeps = (procs', gone)) :
    Later procs procs' ∧ (gone = true → ∀ P ∈ procs', P.pid ≠ pid) := by
  by_cases hpid : pid = 0
  · unfold applicationKill at h
    rw [if_pos hpid] at h
    cases h
    refine ⟨Later.refl _, fun _ P hP => ?_⟩
    have := hp.pos P hP
    omega
  · obtain ⟨sig, hprocs, hres⟩ := applicationKill_eq procs force sleeps hpid
    obtain ⟨hlater, hgone⟩ := endproc_later sig procs pid sleeps
    rw [h] at hprocs hres
    rw [← hprocs] at hlater hgone
    exact ⟨hlater, fun hg => hgone (hres hg)⟩

/-- A fork that fails starts nothing. -/
theorem applicationExec_none (h : applicationExec procs path m = (procs', none)) : Later procs procs' := by
  simp only [applicationExec] at h
  split at h
  · split at h
    · cases h
    · cases h
      exact later_pass procs m.beforeFork
  · cases h
    exact later_pass procs m.beforeFork

/-- The child is the only webapp that is new. -/
theorem applicationExec_some (hp : ProcsOK procs) (h : applicationExec procs path m = (procs', some pid)) :
    ProcsOK procs' ∧ ∀ P ∈ procs', P.webapp ≠ none → P ∈ procs ∨ P = ⟨pid, true, some path⟩ := by
  simp only [applicationExec] at h
  split at h
  · split at h
    · rename_i hfree
      cases h
      have hbefore := later_pass procs m.beforeFork
      have hwait := later_pass (pass procs m.beforeFork ++ [⟨pid, true, some path⟩]) m.waiting
      refine ⟨hwait.ok ((hbefore.ok hp).cons_free hfree _ rfl fun _ => rfl), fun P hP hw => ?_⟩
      rcases List.mem_append.1 (hwait.old P hP hw) with hP | hP
      · exact Or.inl (hbefore.old P hP hw)
      · exact Or.inr (List.mem_singleton.1 hP)
    · cases h
  · cases h

/-! ## The entries -/

/-- What `findApp` finds is all there is. -/
theorem EntriesOK.find (he : EntriesOK apps) (path : List UInt8) :
    ∃ found, findApp path apps = .ok found ∧ entriesOf path apps = found.toList := by
  have hok : ∃ found, findApp path apps = .ok found := by
    have hnamed := he.named
    clear he
    induction apps with
    | nil => exact ⟨none, rfl⟩
    | cons app apps ih =>
      obtain ⟨p, hp⟩ := Option.ne_none_iff_exists'.1 (hnamed app List.mem_cons_self)
      simp only [findApp, hp]
      split
      · exact ⟨_, rfl⟩
      · exact ih fun app happ => hnamed app (List.mem_cons_of_mem _ happ)
  obtain ⟨found, hfound⟩ := hok
  refine ⟨found, hfound, ?_⟩
  have hhead := findApp_entries hfound
  have hlen := he.single path
  cases hl : entriesOf path apps with
  | nil =>
    rw [hl] at hhead
    rw [← hhead]
    rfl
  | cons app rest =>
    rw [hl] at hhead hlen
    have hrest : rest = [] := by
      apply List.eq_nil_of_length_eq_zero
      rw [List.length_cons] at hlen
      omega
    rw [← hhead, hrest]
    rfl

theorem EntriesOK.save (he : EntriesOK apps) : ∃ node, zcnfStateSave apps = .ok node := by
  have happs : ∃ nodes, saveApps apps = .ok nodes := by
    have hnamed := he.named
    clear he
    induction apps with
    | nil => exact ⟨[], rfl⟩
    | cons app apps ih =>
      obtain ⟨p, hp⟩ := Option.ne_none_iff_exists'.1 (hnamed app List.mem_cons_self)
      obtain ⟨nodes, hnodes⟩ := ih fun app happ => hnamed app (List.mem_cons_of_mem _ happ)
      have hnode : ∃ node, saveApp app = .ok node := by
        unfold saveApp
        rw [hp]
        exact ⟨_, rfl⟩
      obtain ⟨node, hnode⟩ := hnode
      refine ⟨node :: nodes, ?_⟩
      rw [saveApps, hnode, hnodes]
      rfl
  obtain ⟨nodes, hnodes⟩ := happs
  exact ⟨_, by rw [zcnfStateSave, hnodes]; rfl⟩

theorem setApp_mem {stopped : Bool} (h : zcnfStateSetApp path pid stopped apps = .ok apps')
    (happ : app ∈ apps') : app ∈ apps ∨ app = ⟨some path, pid, stopped⟩ := by
  induction apps generalizing apps' with
  | nil =>
    cases h
    exact Or.inr (List.mem_singleton.1 happ)
  | cons app₀ apps ih =>
    cases hp : app₀.path with
    | none =>
      simp only [zcnfStateSetApp, hp] at h
      cases h
    | some p =>
      simp only [zcnfStateSetApp, hp] at h
      split at h
      · rename_i heq
        cases h
        rcases List.mem_cons.1 happ with rfl | happ
        · right
          rw [← heq, ← hp]
        · exact Or.inl (List.mem_cons_of_mem _ happ)
      · obtain ⟨apps₁, h₁, rfl⟩ := map_inv h
        rcases List.mem_cons.1 happ with rfl | happ
        · exact Or.inl List.mem_cons_self
        · exact (ih h₁ happ).imp_left (List.mem_cons_of_mem _)

/-- Entries that are one each at most, except those of a webapp that gets others. -/
theorem single_of_others {n : List StateApp} (he : EntriesOK apps) (hself : entriesOf path apps' = n)
    (hn : n.length ≤ 1) (hother : ∀ q, q ≠ path → entriesOf q apps' = entriesOf q apps) :
    ∀ p, (entriesOf p apps').length ≤ 1 := by
  intro p
  by_cases hp : p = path
  · rw [hp, hself]
    exact hn
  · rw [hother p hp]
    exact he.single p

theorem EntriesOK.set {stopped : Bool} (he : EntriesOK apps) (path : List UInt8)
    (hstop : stopped = true → pid = 0) :
    ∃ apps', zcnfStateSetApp path pid stopped apps = .ok apps' ∧ EntriesOK apps' ∧
      entriesOf path apps' = [⟨some path, pid, stopped⟩] ∧
      ∀ q, q ≠ path → entriesOf q apps' = entriesOf q apps := by
  have hok : ∃ apps', zcnfStateSetApp path pid stopped apps = .ok apps' := by
    have hnamed := he.named
    clear he
    induction apps with
    | nil => exact ⟨_, rfl⟩
    | cons app apps ih =>
      obtain ⟨p, hp⟩ := Option.ne_none_iff_exists'.1 (hnamed app List.mem_cons_self)
      simp only [zcnfStateSetApp, hp]
      split
      · exact ⟨_, rfl⟩
      · obtain ⟨apps', h'⟩ := ih fun app happ => hnamed app (List.mem_cons_of_mem _ happ)
        exact ⟨app :: apps', by rw [h']; rfl⟩
  obtain ⟨apps', hset⟩ := hok
  obtain ⟨hself, hother⟩ := setApp_entries hset
  have htail : (entriesOf path apps).tail = [] := by
    apply List.eq_nil_of_length_eq_zero
    have := he.single path
    rw [List.length_tail]
    omega
  rw [htail] at hself
  refine ⟨apps', hset, ⟨?_, single_of_others he hself le_rfl hother, ?_⟩, hself, hother⟩
  · intro app happ
    rcases setApp_mem hset happ with happ | rfl
    · exact he.named app happ
    · exact Option.some_ne_none path
  · intro app happ
    rcases setApp_mem hset happ with happ | rfl
    · exact he.disabled app happ
    · exact hstop

/-- What `application_function` leaves behind. -/
structure Outcome (h : UserHost) (type : CmdType) (path : List UInt8) (h' : UserHost) (ret : Bool) :
    Prop where
  recorded : Recorded h'
  failed : ret = false → h'.file = h.file
  others : ∀ q, q ≠ path → SameEntries q h.file h'.file
  ended : ret = true → type = .stop ∨ type = .remove → ∀ P ∈ h'.procs, P.webapp ≠ some path

/-- Nothing was saved, and no webapp was started. -/
theorem Recorded.quit (hr : Recorded h) (hlater : Later h.procs procs) (type : CmdType)
    (path : List UInt8) : Outcome h type path ⟨h.file, procs⟩ false := by
  refine ⟨⟨hlater.ok hr.procs, hr.entries, fun P hP q hq => ?_⟩, fun _ => rfl, fun q _ => rfl,
    fun hret => by cases hret⟩
  exact hr.running P (hlater.old P hP (by rw [hq]; exact Option.some_ne_none q)) q hq

/-- The new webapps are saved. The processes of `path` are as its entry says; those of the others are
the ones that were there. -/
theorem Recorded.saved {node : YamlNode} (hr : Recorded h) (hp : ProcsOK procs)
    (he : EntriesOK apps) (hnode : zcnfStateSave apps = .ok node)
    (hother : ∀ q, q ≠ path → entriesOf q apps = entriesOf q (zcnfStateLoad h.file))
    (hold : ∀ P ∈ procs, ∀ q, q ≠ path → P.webapp = some q → P ∈ h.procs)
    (hself : ∀ P ∈ procs, P.webapp = some path → ∃ app ∈ entriesOf path apps, app.pid = P.pid)
    (hended : type = .stop ∨ type = .remove → ∀ P ∈ procs, P.webapp ≠ some path) :
    Outcome h type path ⟨some node, procs⟩ true := by
  have hload : zcnfStateLoad (some node) = apps := load_save hnode
  refine ⟨⟨hp, by rw [hload]; exact he, ?_⟩, fun hret => (by cases hret), ?_, fun _ => hended⟩
  · intro P hP q hq
    rw [hload]
    by_cases hqp : q = path
    · subst hqp
      exact hself P hP hq
    · rw [hother q hqp]
      exact hr.running P (hold P hP q hqp hq) q hq
  · intro q hq
    show entriesOf q (zcnfStateLoad (some node)) = _
    rw [hload]
    exact hother q hq

/-- The same for `zcnf_state_set_app`. -/
theorem Recorded.savedSet {stopped : Bool} (hr : Recorded h) (hp : ProcsOK procs)
    (hstop : stopped = true → pid = 0)
    (hold : ∀ P ∈ procs, ∀ q, q ≠ path → P.webapp = some q → P ∈ h.procs)
    (hself : ∀ P ∈ procs, P.webapp = some path → P.pid = pid)
    (hended : type = .stop ∨ type = .remove → ∀ P ∈ procs, P.webapp ≠ some path) :
    ∃ h', UserHost.save (zcnfStateSetApp path pid stopped (zcnfStateLoad h.file)) procs = .ok (h', true) ∧
      Outcome h type path h' true := by
  obtain ⟨apps, hset, he, hentry, hother⟩ := hr.entries.set path hstop
  obtain ⟨node, hnode⟩ := he.save
  refine ⟨⟨some node, procs⟩, ?_, hr.saved hp he hnode hother hold ?_ hended⟩
  · rw [UserHost.save, hset, ok_bind, hnode]
    rfl
  · intro P hP hw
    rw [hentry]
    exact ⟨_, List.mem_singleton_self _, (hself P hP hw).symm⟩

/-- The process of a webapp with one entry. -/
theorem Recorded.pid_eq (hr : Recorded h) (hone : entriesOf path (zcnfStateLoad h.file) = [app])
    {P : Process} (hP : P ∈ h.procs) (hw : P.webapp = some path) : P.pid = app.pid := by
  obtain ⟨app', happ', hpid⟩ := hr.running P hP path hw
  rw [hone, List.mem_singleton] at happ'
  rw [← happ', hpid]

/-- A new background process of a webapp that does not run. -/
theorem Recorded.exec (hr : Recorded h) (hlater : Later h.procs procs)
    (hgone : ∀ P ∈ procs, P.webapp ≠ some path) (m : Meets)
    (htype : ¬(type = .stop ∨ type = .remove)) :
    ∃ h' ret, (match applicationExec procs path m with
      | (procs, none) => (return (⟨h.file, procs⟩, false) : Except BufFault (UserHost × Bool))
      | (procs, some pid) =>
        UserHost.save (zcnfStateSetApp path pid false (zcnfStateLoad h.file)) procs) = .ok (h', ret) ∧
      Outcome h type path h' ret := by
  cases hexec : applicationExec procs path m with
  | mk procs' res =>
    cases res with
    | none => exact ⟨_, _, rfl, hr.quit (hlater.trans (applicationExec_none hexec)) type path⟩
    | some pid =>
      obtain ⟨hp, hnew⟩ := applicationExec_some (hlater.ok hr.procs) hexec
      have hold : ∀ P ∈ procs', ∀ q, q ≠ path → P.webapp = some q → P ∈ h.procs := by
        intro P hP q hq hw
        have hne : P.webapp ≠ none := by rw [hw]; exact Option.some_ne_none q
        rcases hnew P hP hne with hold | hchild
        · exact hlater.old P hold hne
        · rw [hchild] at hw
          exact (hq (Option.some.inj hw).symm).elim
      have hself : ∀ P ∈ procs', P.webapp = some path → P.pid = pid := by
        intro P hP hw
        rcases hnew P hP (by rw [hw]; exact Option.some_ne_none path) with hold | hchild
        · exact (hgone P hold hw).elim
        · rw [hchild]
      have hsaved : ∃ h', UserHost.save (zcnfStateSetApp path pid false (zcnfStateLoad h.file)) procs' =
          .ok (h', true) ∧ Outcome h type path h' true :=
        hr.savedSet hp (fun hstop => by cases hstop) hold hself fun ht => (htype ht).elim
      obtain ⟨h', hsave, hout⟩ := hsaved
      exact ⟨h', true, hsave, hout⟩

/-- After `application_kill` of its pid a webapp does not run. -/
theorem Recorded.killed {force gone : Bool} {sleeps : List (List ProcEvent)} (hr : Recorded h)
    (hone : entriesOf path (zcnfStateLoad h.file) = [app]) (hlater : Later h.procs procs)
    (hkill : applicationKill procs app.pid force sleeps = (procs', gone)) :
    Later h.procs procs' ∧ (gone = true → ∀ P ∈ procs', P.webapp ≠ some path) := by
  obtain ⟨hlater', hgone⟩ := applicationKill_gone (hlater.ok hr.procs) hkill
  have hall := hlater.trans hlater'
  refine ⟨hall, fun hg P hP hw => hgone hg P hP ?_⟩
  exact hr.pid_eq hone (hall.old P hP (by rw [hw]; exact Option.some_ne_none path)) hw

end Zimr
