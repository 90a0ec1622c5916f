import Zimr.Proof.Range
import Zimr.Spec.State

/-!
# Commands that run at the same time

* `load_save` — a state that is saved is loaded as it was
* `applicationFunction_effect` — a command changes the entries of its webapp only
* `concurrent_commands` — what two commands for different webapps leave in the file
-/

namespace Zimr

open Run Snapshot

variable {path q : List UInt8} {apps apps' : List StateApp} {app : StateApp} {cmd : Command}
  {file file' : Option YamlNode}

/-! ## Loading what was saved -/

theorem decimal_decText (n : ℕ) : Decimal (decText n) := by
  refine ⟨decText_digits n, fun h => ?_⟩
  have hlen := (decText_length (n := n) (k := 1) (by decide)).1
  rw [h] at hlen
  have hn := hlen (Nat.zero_le 1)
  rw [decText_small (by simpa using hn)] at h
  cases h

/-- `atoi` reads what `%d` writes. -/
theorem atoi_intText (n : ℤ) : atoi (intText n) = n := by
  unfold intText
  split
  · rename_i hneg
    obtain ⟨-, -, -, hdigits⟩ := decimal_read (t := []) (decimal_decText n.natAbs) fun c hc => by cases hc
    rw [List.append_nil] at hdigits
    have hminus : startswith (45 :: decText n.natAbs) (ascii "-") = true := rfl
    have hdrop : (45 :: decText n.natAbs).dropWhile isspace = 45 :: decText n.natAbs := rfl
    unfold atoi
    simp only [hdrop, hminus, Bool.true_or, if_true, List.drop_one, List.tail_cons, hdigits,
      numOf_decText]
    omega
  · rw [atoi_decimal (decimal_decText n.toNat), numOf_decText]
    omega

theorem load_saveApp {node : YamlNode} (h : saveApp app = .ok node) (nodes : List YamlNode) :
    loadApps (node :: nodes) = app :: loadApps nodes := by
  have hpid : ascii "pid" ≠ ascii "path" := by decide
  have hstopped : ascii "stopped" ≠ ascii "path" ∧ ascii "stopped" ≠ ascii "pid" := by decide
  obtain ⟨p, pid, stopped⟩ := app
  cases p with
  | none => cases h
  | some path =>
    cases h
    have hflag : decide ((if stopped = true then (1 : ℤ) else 0) ≠ 0) = stopped := by
      cases stopped <;> rfl
    rw [loadApps]
    simp only [loadAppAttrs, if_true, if_neg hpid, if_neg hstopped.1, if_neg hstopped.2, atoi_intText,
      hflag]

theorem load_saveApps {nodes : List YamlNode} (h : saveApps apps = .ok nodes) : loadApps nodes = apps := by
  induction apps generalizing nodes with
  | nil =>
    cases h
    rfl
  | cons app apps ih =>
    obtain ⟨node, hnode, h⟩ := bind_inv h
    obtain ⟨rest, hrest, h⟩ := bind_inv h
    cases h
    rw [load_saveApp hnode, ih hrest]

/-- **A state that is saved is loaded as it was.** -/
theorem load_save {node : YamlNode} (h : zcnfStateSave apps = .ok node) :
    zcnfStateLoad (some node) = apps := by
  obtain ⟨nodes, hnodes, h⟩ := bind_inv h
  cases h
  show (if ascii "applications" = ascii "applications" then loadApps nodes else []) ++ [] = apps
  rw [if_pos rfl, List.append_nil, load_saveApps hnodes]

/-! ## One command -/

theorem entriesOf_cons_self (h : app.path = some path) (apps : List StateApp) :
    entriesOf path (app :: apps) = app :: entriesOf path apps :=
  List.filter_cons_of_pos (by simpa using h)

theorem entriesOf_cons_other (h : app.path ≠ some path) (apps : List StateApp) :
    entriesOf path (app :: apps) = entriesOf path apps :=
  List.filter_cons_of_neg (by simpa using h)

/-- What is found is the first entry. -/
theorem findApp_entries {found : Option StateApp} (h : findApp path apps = .ok found) :
    (entriesOf path apps).head? = found := by
  induction apps with
  | nil =>
    cases h
    rfl
  | cons app apps ih =>
    cases hp : app.path with
    | none =>
      simp only [findApp, hp] at h
      cases h
    | some p =>
      simp only [findApp, hp] at h
      split at h
      · rename_i heq
        cases h
        rw [entriesOf_cons_self (by rw [hp, heq])]
        rfl
      · rename_i hne
        rw [entriesOf_cons_other (by rw [hp]; simpa using hne), ih h]

/-- The first entry is replaced, or there is one more. -/
theorem setApp_entries {pid : ℤ} {stopped : Bool} (h : zcnfStateSetApp path pid stopped apps = .ok apps') :
    entriesOf path apps' = ⟨some path, pid, stopped⟩ :: (entriesOf path apps).tail ∧
      ∀ q, q ≠ path → entriesOf q apps' = entriesOf q apps := by
  induction apps generalizing apps' with
  | nil =>
    cases h
    refine ⟨entriesOf_cons_self rfl [], fun q hq => entriesOf_cons_other ?_ []⟩
    exact fun h => hq (Option.some.inj h).symm
  | cons app apps ih =>
    cases hp : app.path with
    | none =>
      simp only [zcnfStateSetApp, hp] at h
      cases h
    | some p =>
      simp only [zcnfStateSetApp, hp] at h
      split at h
      · rename_i heq
        cases h
        subst heq
        refine ⟨?_, fun q hq => ?_⟩
        · rw [entriesOf_cons_self rfl, entriesOf_cons_self hp]
          rfl
        · have hne : some p ≠ some q := fun h => hq (Option.some.inj h).symm
          rw [entriesOf_cons_other hne, entriesOf_cons_other (by rw [hp]; exact hne)]
      · rename_i hne
        obtain ⟨apps₁, h₁, rfl⟩ := map_inv h
        obtain ⟨hself, hother⟩ := ih h₁
        refine ⟨?_, fun q hq => ?_⟩
        · have hne' : app.path ≠ some path := by rw [hp]; simpa using hne
          rw [entriesOf_cons_other hne', entriesOf_cons_other hne', hself]
        · by_cases hpq : app.path = some q
          · rw [entriesOf_cons_self hpq, entriesOf_cons_self hpq, hother q hq]
          · rw [entriesOf_cons_other hpq, entriesOf_cons_other hpq, hother q hq]

/-- The first entry goes. -/
theorem deleteApp_entries (apps : List StateApp) :
    entriesOf path (deleteApp path apps) = (entriesOf path apps).tail ∧
      ∀ q, q ≠ path → entriesOf q (deleteApp path apps) = entriesOf q apps := by
  unfold deleteApp
  induction apps with
  | nil => exact ⟨rfl, fun _ _ => rfl⟩
  | cons app apps ih =>
    by_cases hp : app.path = some path
    · rw [List.eraseP_cons_of_pos (by simpa using hp)]
      refine ⟨by rw [entriesOf_cons_self hp]; rfl, fun q hq => ?_⟩
      rw [entriesOf_cons_other fun h => hq (Option.some.inj (h.symm.trans hp))]
    · rw [List.eraseP_cons_of_neg (by simpa using hp)]
      refine ⟨by rw [entriesOf_cons_other hp, entriesOf_cons_other hp, ih.1], fun q hq => ?_⟩
      by_cases hpq : app.path = some q
      · rw [entriesOf_cons_self hpq, entriesOf_cons_self hpq, ih.2 q hq]
      · rw [entriesOf_cons_other hpq, entriesOf_cons_other hpq, ih.2 q hq]

/-- **A command changes the entries of its webapp**, and no others. -/
theorem applicationFunction_effect (h : applicationFunction cmd apps = .ok (some apps')) :
    entriesOf cmd.path apps' = cmd.effect (entriesOf cmd.path apps) ∧
      ∀ q, q ≠ cmd.path → entriesOf q apps' = entriesOf q apps := by
  obtain ⟨found, hfound, h⟩ := bind_inv h
  have hhead := findApp_entries hfound
  unfold Command.effect
  cases found with
  | none =>
    have hno : entriesOf cmd.path apps = [] := List.head?_eq_none_iff.1 hhead
    cases ht : cmd.type with
    | add =>
      rw [ht] at h
      obtain ⟨apps₁, hset, heq⟩ := map_inv h
      cases heq
      obtain ⟨hself, hother⟩ := setApp_entries hset
      rw [hno] at hself
      exact ⟨hself, hother⟩
    | _ =>
      rw [ht] at h
      cases h
  | some app =>
    have hset : ∀ {pid : ℤ} {stopped : Bool},
        (zcnfStateSetApp cmd.path pid stopped apps).map some = .ok (some apps') →
          entriesOf cmd.path apps' = ⟨some cmd.path, pid, stopped⟩ :: (entriesOf cmd.path apps).tail ∧
            ∀ q, q ≠ cmd.path → entriesOf q apps' = entriesOf q apps := by
      intro pid stopped h
      obtain ⟨apps₁, hset, heq⟩ := map_inv h
      cases heq
      exact setApp_entries hset
    cases ht : cmd.type with
    | add =>
      rw [ht] at h
      cases h
    | start =>
      rw [ht] at h
      simp only at h
      split at h
      · cases h
      · cases hexec : cmd.exec with
        | none => rw [hexec] at h; cases h
        | some pid => rw [hexec] at h; exact hset h
    | restart =>
      rw [ht] at h
      simp only at h
      split at h
      · cases h
      · cases hexec : cmd.exec with
        | none => rw [hexec] at h; cases h
        | some pid => rw [hexec] at h; exact hset h
    | stop =>
      rw [ht] at h
      simp only at h
      split at h
      · cases h
      · exact hset h
    | remove =>
      rw [ht] at h
      simp only at h
      split at h
      · cases h
      · cases h
        exact deleteApp_entries apps
    | status =>
      rw [ht] at h
      cases h
      exact ⟨rfl, fun _ _ => rfl⟩

/-- The same for the file. -/
theorem work_done (h : cmd.work file = some file') :
    cmd.Done file file' ∧ ∀ q, q ≠ cmd.path → SameEntries q file file' := by
  unfold Command.work at h
  split at h
  · rename_i apps happ
    obtain ⟨node, hnode, rfl⟩ := Option.map_eq_some_iff.1 h
    have hsave : zcnfStateSave apps = .ok node := by
      cases hs : zcnfStateSave apps with
      | error e => rw [hs] at hnode; cases hnode
      | ok n => rw [hs] at hnode; cases hnode; rfl
    unfold Command.Done SameEntries
    rw [load_save hsave]
    exact applicationFunction_effect happ
  · cases h

/-! ## Two commands -/

/-- The second has loaded what the first saved. -/
theorem both_done {c d : Command} {mid : Option YamlNode} (hne : c.path ≠ d.path)
    (hc : c.work file = some mid) (hd : d.work mid = some file') :
    d.Done file file' ∧ c.Done file file' := by
  obtain ⟨hcdone, hcother⟩ := work_done hc
  obtain ⟨hddone, hdother⟩ := work_done hd
  unfold Command.Done SameEntries at *
  constructor
  · rw [hddone, hcother d.path hne.symm]
  · rw [hdother c.path hne, hcdone]

/-- **Two commands for different webapps**: the file has the effect of the one that saves last. If it
loaded what the other had saved it has the effect of both, otherwise nothing of the other's. -/
theorem concurrent_commands (cmd : Bool → Command) (hne : (cmd false).path ≠ (cmd true).path)
    (file : Option YamlNode) (l : List (Snapshot.Event Bool))
    (hl : Interleaved (script false) (script true) l) (σ : Shared Bool (Option YamlNode))
    (hrun : run (step fun p => (cmd p).work) (start file) l = .ok σ) (p : Bool)
    (hlast : l.getLast? = some (.save p)) :
    (cmd p).Done file σ.file ∧
      (l = script (!p) ++ script p → (cmd (!p)).Done file σ.file) ∧
      (l ≠ script (!p) ++ script p → SameEntries (cmd (!p)).path file σ.file) := by
  have happ : ∀ b, (cmd b).path ≠ (cmd (!b)).path := by
    intro b
    cases b
    · exact hne
    · exact hne.symm
  have hpair : ∀ b, l = script (!b) ++ script b → b = p →
      (cmd p).Done file σ.file ∧ (l = script (!p) ++ script p → (cmd (!p)).Done file σ.file) ∧
        (l ≠ script (!p) ++ script p → SameEntries (cmd (!p)).path file σ.file) := by
    rintro b hb rfl
    rw [hb] at hrun
    obtain ⟨mid, h₁, h₂⟩ := apart hrun
    obtain ⟨hd, hc⟩ := both_done (happ b).symm h₁ h₂
    exact ⟨hd, fun _ => hc, fun h => (h hb).elim⟩
  have hover : ∀ b, (l = [.load (!b), .load b, .save (!b), .save b] ∨
      l = [.load b, .load (!b), .save (!b), .save b]) → b = p →
      (cmd p).Done file σ.file ∧ (l = script (!p) ++ script p → (cmd (!p)).Done file σ.file) ∧
        (l ≠ script (!p) ++ script p → SameEntries (cmd (!p)).path file σ.file) := by
    rintro b hb rfl
    obtain ⟨-, hw⟩ := overlapped (Bool.not_ne_self b) hb hrun
    obtain ⟨hdone, hother⟩ := work_done hw
    refine ⟨hdone, fun h => ?_, fun _ => hother _ (happ b).symm⟩
    rcases hb with rfl | rfl <;> cases b <;> exact absurd h (by decide)
  have hp : ∀ b, l.getLast? = some (.save b) → b = p := by
    intro b hb
    have := Option.some.inj (hb.symm.trans hlast)
    cases this
    rfl
  rcases interleaved_cases hl with h | h | h | h
  · exact hpair true h (hp true (by rw [h]; rfl))
  · exact hpair false h (hp false (by rw [h]; rfl))
  · exact hover true h (hp true (by rcases h with rfl | rfl <;> rfl))
  · exact hover false h (hp false (by rcases h with rfl | rfl <;> rfl))

/-- `zimr add a` and `zimr add b`. -/
def addCommand (p : Bool) : Command := ⟨.add, if p then ascii "b" else ascii "a", false, false, false, none⟩

theorem apart_interleaved : Interleaved (script false) (script true) (script false ++ script true) :=
  .left (.left (.right (.right .nil)))

theorem overlap_interleaved : Interleaved (script false) (script true)
    [.load false, .load true, .save false, .save true] :=
  .left (.right (.left (.right .nil)))

theorem concurrent_commands_apart : ∃ σ : Shared Bool (Option YamlNode),
    run (step fun p => (addCommand p).work) (start none) (script false ++ script true) = .ok σ ∧
      (addCommand true).Done none σ.file ∧ (addCommand false).Done none σ.file := by
  refine ⟨_, rfl, ?_⟩
  obtain ⟨hlast, hboth, -⟩ := concurrent_commands addCommand (by decide) none (script false ++ script true)
    apart_interleaved _ rfl true rfl
  exact ⟨hlast, hboth rfl⟩

/-- The webapp `a` is not in the file. -/
theorem update_lost : ¬∀ (cmd : Bool → Command), (cmd false).path ≠ (cmd true).path →
    ∀ (file : Option YamlNode) (l : List (Snapshot.Event Bool)),
      Interleaved (script false) (script true) l →
        ∀ σ : Shared Bool (Option YamlNode),
          run (step fun p => (cmd p).work) (start file) l = .ok σ →
            (cmd false).Done file σ.file ∧ (cmd true).Done file σ.file := by
  intro h
  obtain ⟨σ, hrun, hfile⟩ : ∃ σ : Shared Bool (Option YamlNode),
      run (step fun p => (addCommand p).work) (start none)
        [.load false, .load true, .save false, .save true] = .ok σ ∧
      entriesOf (ascii "a") (zcnfStateLoad σ.file) = [] := ⟨_, rfl, rfl⟩
  obtain ⟨hdone, -⟩ := h addCommand (by decide) none _ overlap_interleaved σ hrun
  have heq : ([] : List StateApp) = [⟨some (ascii "a"), 0, true⟩] := hfile.symm.trans hdone
  cases heq

end Zimr
