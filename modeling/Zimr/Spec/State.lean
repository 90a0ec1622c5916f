import Zimr.Lib.Snapshot
import Zimr.Spec.Headers
import Zimr.Spec.Reply

/-!
# The state file of the webapps (`zcnf.c`, and `application_function` of `zimr/main.c`)

The state file is a YAML document, `none` when it is empty; that it is stored and read back as it is
written is taken from libyaml. A scalar is the C string of its value.
-/

namespace Zimr

/-- `yaml_node_t`. -/
inductive YamlNode
  | scalar (value : List UInt8)
  | sequence (items : List YamlNode)
  | mapping (pairs : List (YamlNode × YamlNode))

/-- `zcnf_state_app_t`; without a `path` the pointer is `NULL`. -/
structure StateApp where
  path : Option (List UInt8)
  pid : ℤ
  stopped : Bool
  deriving DecidableEq, Repr

/-! ## Loading and saving -/

/-- The loop over the attributes, and whether `zcnf_state_load_apps` goes on behind it. -/
def loadAppAttrs : StateApp → List (YamlNode × YamlNode) → StateApp × Bool
  | app, [] => (app, true)
  | app, (.scalar key, .scalar value) :: pairs =>
    if key = ascii "path" then loadAppAttrs { app with path := some value } pairs
    else if key = ascii "pid" then loadAppAttrs { app with pid := atoi value } pairs
    else if key = ascii "stopped" then loadAppAttrs { app with stopped := atoi value ≠ 0 } pairs
    else loadAppAttrs app pairs
  | app, (.scalar key, _) :: pairs =>
    if key = ascii "path" then (app, false) else loadAppAttrs app pairs
  | app, _ :: pairs => loadAppAttrs app pairs

/-- The loop of `zcnf_state_load_apps`. -/
def loadApps : List YamlNode → List StateApp
  | .mapping pairs :: items =>
    let (app, more) := loadAppAttrs ⟨none, 0, false⟩ pairs
    app :: (if more then loadApps items else [])
  | _ => []

/-- `zcnf_state_load_apps`: the webapps it appends. -/
def zcnfStateLoadApps : YamlNode → List StateApp
  | .sequence items => loadApps items
  | _ => []

/-- `zcnf_state_load`. -/
def zcnfStateLoad : Option YamlNode → List StateApp
  | some (.mapping pairs) =>
    pairs.flatMap fun pair =>
      match pair.1 with
      | .scalar key => if key = ascii "applications" then zcnfStateLoadApps pair.2 else []
      | _ => []
  | _ => []

/-- The mapping of a webapp, of which `zcnf_state_save` takes the length of the path. -/
def saveApp (app : StateApp) : Except BufFault YamlNode :=
  match app.path with
  | none => .error .nullDeref
  | some path => .ok (.mapping [(.scalar (ascii "path"), .scalar path),
      (.scalar (ascii "pid"), .scalar (intText app.pid)),
      (.scalar (ascii "stopped"), .scalar (intText (if app.stopped then 1 else 0)))])

/-- The loop of `zcnf_state_save`. -/
def saveApps : List StateApp → Except BufFault (List YamlNode)
  | [] => .ok []
  | app :: apps => do return (← saveApp app) :: (← saveApps apps)

/-- `zcnf_state_save`. -/
def zcnfStateSave (apps : List StateApp) : Except BufFault YamlNode := do
  return .mapping [(.scalar (ascii "applications"), .sequence (← saveApps apps))]

/-! ## The commands -/

/-- The search of `application_function`, with `strcmp`. -/
def findApp (path : List UInt8) : List StateApp → Except BufFault (Option StateApp)
  | [] => .ok none
  | app :: apps =>
    match app.path with
    | none => .error .nullDeref
    | some p => if p = path then .ok (some app) else findApp path apps

/-- `zcnf_state_set_app`. -/
def zcnfStateSetApp (path : List UInt8) (pid : ℤ) (stopped : Bool) :
    List StateApp → Except BufFault (List StateApp)
  | [] => .ok [⟨some path, pid, stopped⟩]
  | app :: apps =>
    match app.path with
    | none => .error .nullDeref
    | some p =>
      if p = path then .ok ({ app with pid, stopped } :: apps)
      else (zcnfStateSetApp path pid stopped apps).map (app :: ·)

/-- `list_delete_at( &state->apps, i )`, of the first webapp with the path. -/
def deleteApp (path : List UInt8) (apps : List StateApp) : List StateApp :=
  apps.eraseP (·.path = some path)

/-- `ADD`, `START`, `STOP`, `RESTART`, `REMOVE`, `STATUS`. -/
inductive CmdType
  | add | start | stop | restart | remove | status
  deriving DecidableEq, Repr

/-- A command with its arguments, and what it is answered: whether the process is there, whether
`application_kill` could end it, and the pid from `application_exec`. -/
structure Command where
  type : CmdType
  path : List UInt8
  allowDisable : Bool
  alive : Bool
  killed : Bool
  exec : Option ℤ

/-- `application_function` between the load and the save; `none` is a failure, and nothing is saved. -/
def applicationFunction (cmd : Command) (apps : List StateApp) :
    Except BufFault (Option (List StateApp)) := do
  let setApp (pid : ℤ) (stopped : Bool) : Except BufFault (Option (List StateApp)) :=
    (zcnfStateSetApp cmd.path pid stopped apps).map some
  match ← findApp cmd.path apps, cmd.type with
  | some _, .add => return none
  | none, .add => setApp 0 true
  | none, _ => return none
  | some app, .start =>
    if !app.stopped && app.pid ≠ 0 && cmd.alive then return none
    match cmd.exec with
    | none => return none
    | some pid => setApp pid false
  | some app, .restart =>
    if app.stopped || !cmd.killed then return none
    match cmd.exec with
    | none => return none
    | some pid => setApp pid false
  | some app, .stop =>
    if app.pid ≠ 0 && !cmd.killed then return none else setApp 0 cmd.allowDisable
  | some app, .remove =>
    if app.pid ≠ 0 && !cmd.killed then return none else return some (deleteApp cmd.path apps)
  | some _, .status => return some apps

/-- A command on the file: what it saves, if it succeeds. -/
def Command.work (cmd : Command) (file : Option YamlNode) : Option (Option YamlNode) :=
  match applicationFunction cmd (zcnfStateLoad file) with
  | .ok (some apps) => (zcnfStateSave apps).toOption.map some
  | _ => none

/-! ## What a command is for -/

/-- The entries of a webapp. -/
def entriesOf (path : List UInt8) (apps : List StateApp) : List StateApp :=
  apps.filter (·.path = some path)

/-- What a command makes of the entries of its webapp: the first is new, or gone. -/
def Command.effect (cmd : Command) (entries : List StateApp) : List StateApp :=
  match cmd.type with
  | .add => [⟨some cmd.path, 0, true⟩]
  | .start => ⟨some cmd.path, cmd.exec.getD 0, false⟩ :: entries.tail
  | .restart => ⟨some cmd.path, cmd.exec.getD 0, false⟩ :: entries.tail
  | .stop => ⟨some cmd.path, 0, cmd.allowDisable⟩ :: entries.tail
  | .remove => entries.tail
  | .status => entries

/-- The new file has the effect of the command on the old one. -/
def Command.Done (cmd : Command) (file file' : Option YamlNode) : Prop :=
  entriesOf cmd.path (zcnfStateLoad file') = cmd.effect (entriesOf cmd.path (zcnfStateLoad file))

/-- The new file has of a webapp what the old one had. -/
def SameEntries (path : List UInt8) (file file' : Option YamlNode) : Prop :=
  entriesOf path (zcnfStateLoad file') = entriesOf path (zcnfStateLoad file)

end Zimr
