import Zimr.Spec.State

/-!
# The `zimr` program and its webapps (`zimr/main.c`)

The commands with the processes they start and end: `application_function` and `state_function`,
with `application_kill`, `application_exec` and, of `general.c`, `stopproc` and `killproc`. One
command runs at a time; while it sleeps or waits, and between commands, processes may come and go.
-/

namespace Zimr

/-- A process: its pid, whether the user of the state file may signal it, and the webapp that it is
the background process of. -/
structure Process where
  pid : ℤ
  mine : Bool
  webapp : Option (List UInt8)
  deriving DecidableEq, Repr

/-- What may happen to the processes at any time: one ends, or one that is no webapp begins. -/
inductive ProcEvent
  | ended (pid : ℤ)
  | began (pid : ℤ) (mine : Bool)
  deriving DecidableEq, Repr

/-- `SIGTERM`, `SIGKILL`, or no signal at all. -/
inductive Signal
  | none | term | kill
  deriving DecidableEq, Repr

/-- `errno` after `kill`, `stopproc` or `killproc`. -/
inductive ProcErrno
  | esrch | eperm | ebusy
  deriving DecidableEq, Repr

/-- `kill`, for a pid that is not 0. A process that gets a signal ends at some later time, or not. -/
def sendSignal (procs : List Process) (pid : ℤ) (_sig : Signal) : Except ProcErrno Unit :=
  match procs.find? (·.pid = pid) with
  | none => .error .esrch
  | some p => if p.mine then .ok () else .error .eperm

/-- `kill( pid, 0 ) != -1`. -/
def stillThere (procs : List Process) (pid : ℤ) : Bool := (sendSignal procs pid .none).isOk

/-- A pid that the system can give to a new process. -/
def freePid (procs : List Process) (pid : ℤ) : Prop := 0 < pid ∧ ∀ p ∈ procs, p.pid ≠ pid

instance (procs : List Process) (pid : ℤ) : Decidable (freePid procs pid) :=
  inferInstanceAs (Decidable (_ ∧ _))

def ProcEvent.step (procs : List Process) : ProcEvent → List Process
  | .ended pid => procs.filter (·.pid ≠ pid)
  | .began pid mine => if freePid procs pid then procs ++ [⟨pid, mine, none⟩] else procs

/-- Some time passes. -/
def pass (procs : List Process) (evs : List ProcEvent) : List Process := evs.foldl ProcEvent.step procs

/-! ## Ending a process -/

/-- The loop of `stopproc`, with what happens in each `usleep`. `time` goes up to three million by
250000, so it may sleep twelve times. -/
def sleepWhileThere (pid : ℤ) : ℕ → List (List ProcEvent) → List Process → List Process
  | 0, _, procs => procs
  | left + 1, sleeps, procs =>
    if stillThere procs pid then
      sleepWhileThere pid left sleeps.tail (pass procs (sleeps.headD []))
    else procs

/-- `stopproc` and `killproc` but for the signal: the processes after it, and `true` or `errno`. -/
def endproc (sig : Signal) (procs : List Process) (pid : ℤ) (sleeps : List (List ProcEvent)) :
    List Process × Except ProcErrno Unit :=
  match sendSignal procs pid sig with
  | .error e => (procs, .error e)
  | .ok () =>
    let procs := sleepWhileThere pid (3 * 1000000 / 250000) sleeps procs
    match sendSignal procs pid .none with
    | .ok () => (procs, .error .ebusy)
    | .error .esrch => (procs, .ok ())
    | .error e => (procs, .error e)

/-- `stopproc`. -/
def stopproc := endproc .term

/-- `killproc`. -/
def killproc := endproc .kill

/-- `application_kill`. -/
def applicationKill (procs : List Process) (pid : ℤ) (force : Bool) (sleeps : List (List ProcEvent)) :
    List Process × Bool :=
  if pid = 0 then (procs, true)
  else
    let (procs, res) := if force then killproc procs pid sleeps else stopproc procs pid sleeps
    match res with
    | .ok () => (procs, true)
    | .error e => (procs, e = .esrch)

/-! ## A command -/

/-- What a command meets: what happens before it looks at the processes, while it sleeps, before it
forks, the pid that `fork` would give (if it can), and what happens while it waits for the child.
`between` is the time before a command for all webapps comes to this one. -/
structure Meets where
  between : List ProcEvent := []
  before : List ProcEvent := []
  sleeps : List (List ProcEvent) := []
  beforeFork : List ProcEvent := []
  fork : Option ℤ := none
  waiting : List ProcEvent := []
  deriving DecidableEq, Repr

/-- `application_exec`: the pid of the child, which runs the webapp in the background, or -1. -/
def applicationExec (procs : List Process) (path : List UInt8) (m : Meets) : List Process × Option ℤ :=
  let procs := pass procs m.beforeFork
  match m.fork with
  | some pid =>
    if freePid procs pid then (pass (procs ++ [⟨pid, true, some path⟩]) m.waiting, some pid)
    else (procs, none)
  | none => (procs, none)

/-- The state file of a user, and the processes. -/
structure UserHost where
  file : Option YamlNode
  procs : List Process

/-- `zcnf_state_save` at the end of a command that went well. -/
def UserHost.save (file : Except BufFault (List StateApp)) (procs : List Process) :
    Except BufFault (UserHost × Bool) := do
  return (⟨some (← zcnfStateSave (← file)), procs⟩, true)

/-- `application_function`, and what it returns. -/
def UserHost.applicationFunction (h : UserHost) (type : CmdType) (path : List UInt8)
    (force allowDisable : Bool) (m : Meets) : Except BufFault (UserHost × Bool) := do
  let apps := zcnfStateLoad h.file
  let procs := pass h.procs m.before
  let quit (procs : List Process) : Except BufFault (UserHost × Bool) := return (⟨h.file, procs⟩, false)
  match ← findApp path apps, type with
  | some _, .add => quit procs
  | none, .add => save (zcnfStateSetApp path 0 true apps) procs
  | none, _ => quit procs
  | some app, .start =>
    if !app.stopped && app.pid ≠ 0 && stillThere procs app.pid then quit procs
    else
      match applicationExec procs path m with
      | (procs, none) => quit procs
      | (procs, some pid) => save (zcnfStateSetApp path pid false apps) procs
  | some app, .restart =>
    if app.stopped then quit procs
    else
      match applicationKill procs app.pid force m.sleeps with
      | (procs, false) => quit procs
      | (procs, true) =>
        match applicationExec procs path m with
        | (procs, none) => quit procs
        | (procs, some pid) => save (zcnfStateSetApp path pid false apps) procs
  | some app, .stop =>
    match applicationKill procs app.pid force m.sleeps with
    | (procs, false) => quit procs
    | (procs, true) => save (zcnfStateSetApp path 0 allowDisable apps) procs
  | some app, .remove =>
    match applicationKill procs app.pid force m.sleeps with
    | (procs, false) => quit procs
    | (procs, true) => save (.ok (deleteApp path apps)) procs
  | some _, .status => save (.ok apps) procs

/-! ## A command for all webapps of a user -/

/-- The options `-ignore-disabled` and `-no-disable`. -/
structure StateOpts where
  ignoreDisabled : Bool
  noDisable : Bool
  deriving DecidableEq, Repr

/-- Whether `state_function` leaves this webapp alone. -/
def skipApp (procs : List Process) (type : CmdType) (opts : StateOpts) (app : StateApp) : Bool :=
  match type with
  | .start => (opts.ignoreDisabled && app.stopped) || (app.pid ≠ 0 && stillThere procs app.pid)
  | .stop => app.stopped
  | .restart => app.stopped
  | _ => false

/-- The loop of `state_function`, over the webapps it has loaded; a webapp without a path would be
compared with `strcmp`. -/
def UserHost.eachApp (type : CmdType) (opts : StateOpts) :
    UserHost → List StateApp → List Meets → Except BufFault UserHost
  | h, [], _ => .ok h
  | h, app :: apps, ms => do
    let m := ms.headD {}
    let h := { h with procs := pass h.procs m.between }
    if skipApp h.procs type opts app then eachApp type opts h apps ms.tail
    else
      match app.path with
      | none => throw .nullDeref
      | some path =>
        let (h, _) ← h.applicationFunction type path false (!opts.noDisable) m
        eachApp type opts h apps ms.tail

/-- `state_function`. For `STATUS`, `list_sort` has put the webapps in the order `sorted`. -/
def UserHost.stateFunction (h : UserHost) (type : CmdType) (opts : StateOpts)
    (sorted : List StateApp) (ms : List Meets) : Except BufFault UserHost :=
  let apps := zcnfStateLoad h.file
  h.eachApp type opts (if type = .status ∧ sorted.Perm apps then sorted else apps) ms

/-- What a user does, and what happens by itself. -/
inductive UserEvent
  | procs (evs : List ProcEvent)
  | application (type : CmdType) (path : List UInt8) (force allowDisable : Bool) (m : Meets)
  | state (type : CmdType) (opts : StateOpts) (sorted : List StateApp) (ms : List Meets)

def UserHost.step (h : UserHost) : UserEvent → Except BufFault UserHost
  | .procs evs => .ok { h with procs := pass h.procs evs }
  | .application type path force allowDisable m =>
    (h.applicationFunction type path force allowDisable m).map Prod.fst
  | .state type opts sorted ms => h.stateFunction type opts sorted ms

end Zimr
