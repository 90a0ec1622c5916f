import Mathlib.Data.List.Basic
import Mathlib.Logic.Function.Basic
import Mathlib.Tactic.Tauto
import Zimr.Lib.Run

/-!
# Work on a snapshot

Processes share a file. Each loads it, works on what it has loaded, and saves the result over the
file. What is in the file at the end depends on the order of the loads and the saves: with one process
after the other it is the work of both (`apart`), otherwise that of the one that saves last
(`overlapped`). `interleaved_cases` lists the orders of two processes.
-/

namespace Snapshot

open Run

inductive Event (P : Type*)
  | load (p : P)
  | save (p : P)
  deriving DecidableEq

/-- The file, and what each process has loaded. -/
structure Shared (P S : Type*) where
  file : S
  held : P → Option S

variable {P S : Type*}

/-- The elements of two lists, each in its order. -/
inductive Interleaved {α : Type*} : List α → List α → List α → Prop
  | nil : Interleaved [] [] []
  | left {a : α} {x y l : List α} (h : Interleaved x y l) : Interleaved (a :: x) y (a :: l)
  | right {b : α} {x y l : List α} (h : Interleaved x y l) : Interleaved x (b :: y) (b :: l)

/-- What a process does. -/
def script (p : P) : List (Event P) := [.load p, .save p]

variable {p q : P}

/-- The orders of two processes. -/
theorem interleaved_cases {l : List (Event P)} (h : Interleaved (script p) (script q) l) :
    l = [.load p, .save p, .load q, .save q] ∨ l = [.load q, .save q, .load p, .save p] ∨
      (l = [.load p, .load q, .save p, .save q] ∨ l = [.load q, .load p, .save p, .save q]) ∨
      l = [.load q, .load p, .save q, .save p] ∨ l = [.load p, .load q, .save q, .save p] := by
  cases h with
  | left h =>
    cases h with
    | left h =>
      cases h with
      | right h => cases h with
        | right h => cases h; tauto
    | right h =>
      cases h with
      | left h => cases h with
        | right h => cases h; tauto
      | right h => cases h with
        | left h => cases h; tauto
  | right h =>
    cases h with
    | right h =>
      cases h with
      | left h => cases h with
        | left h => cases h; tauto
    | left h =>
      cases h with
      | left h => cases h with
        | right h => cases h; tauto
      | right h => cases h with
        | left h => cases h; tauto

/-! ## Steps -/

variable [DecidableEq P]

/-- A process whose work fails saves nothing. -/
def step (work : P → S → Option S) (σ : Shared P S) : Event P → Except P (Shared P S)
  | .load p => .ok { σ with held := Function.update σ.held p (some σ.file) }
  | .save p =>
    match (σ.held p).bind (work p) with
    | some file => .ok { σ with file }
    | none => .error p

def start (file : S) : Shared P S := ⟨file, fun _ => none⟩

variable {work : P → S → Option S} {σ σ' : Shared P S} {s : S}

theorem step_save (h : step work σ (.save p) = .ok σ') :
    ∃ s, σ.held p = some s ∧ work p s = some σ'.file ∧ σ'.held = σ.held := by
  cases hw : (σ.held p).bind (work p) with
  | none =>
    simp only [step, hw] at h
    cases h
  | some file =>
    simp only [step, hw] at h
    cases h
    obtain ⟨s, hs, hw⟩ := Option.bind_eq_some_iff.1 hw
    exact ⟨s, hs, hw, rfl⟩

theorem step_load (h : step work σ (.load p) = .ok σ') :
    σ'.file = σ.file ∧ σ'.held = Function.update σ.held p (some σ.file) := by
  cases h
  exact ⟨rfl, rfl⟩

/-- One process after the other. -/
theorem apart (h : run (step work) (start s) [.load p, .save p, .load q, .save q] = .ok σ) :
    ∃ t, work p s = some t ∧ work q t = some σ.file := by
  obtain ⟨σ₁, h₁, h⟩ := run_cons_ok h
  obtain ⟨σ₂, h₂, h⟩ := run_cons_ok h
  obtain ⟨σ₃, h₃, h⟩ := run_cons_ok h
  obtain ⟨σ₄, h₄, h⟩ := run_cons_ok h
  obtain rfl : σ₄ = σ := Except.ok.inj h
  obtain ⟨hf₁, hh₁⟩ := step_load h₁
  obtain ⟨t, ht, hw, -⟩ := step_save h₂
  obtain ⟨hf₃, hh₃⟩ := step_load h₃
  obtain ⟨u, hu, hw', -⟩ := step_save h₄
  rw [hh₁, Function.update_self] at ht
  rw [hh₃, Function.update_self] at hu
  obtain rfl := Option.some.inj ht
  obtain rfl := Option.some.inj hu
  exact ⟨_, hw, hw'⟩

/-- Both have loaded before one of them saves. -/
theorem overlapped (hne : p ≠ q) {l : List (Event P)}
    (hl : l = [.load p, .load q, .save p, .save q] ∨ l = [.load q, .load p, .save p, .save q])
    (h : run (step work) (start s) l = .ok σ) :
    (∃ t, work p s = some t) ∧ work q s = some σ.file := by
  rcases hl with rfl | rfl
  all_goals
    obtain ⟨σ₁, h₁, h⟩ := run_cons_ok h
    obtain ⟨σ₂, h₂, h⟩ := run_cons_ok h
    obtain ⟨σ₃, h₃, h⟩ := run_cons_ok h
    obtain ⟨σ₄, h₄, h⟩ := run_cons_ok h
    obtain rfl : σ₄ = σ := Except.ok.inj h
    obtain ⟨hf₁, hh₁⟩ := step_load h₁
    obtain ⟨hf₂, hh₂⟩ := step_load h₂
    obtain ⟨t, ht, hw, hheld⟩ := step_save h₃
    obtain ⟨u, hu, hw', -⟩ := step_save h₄
    rw [hh₂, hh₁, hf₁] at ht
    rw [hheld, hh₂, hh₁, hf₁] at hu
    simp only [Function.update_self, Function.update_of_ne hne, Function.update_of_ne hne.symm, start,
      Option.some.injEq] at ht hu
    subst ht hu
    exact ⟨⟨_, hw⟩, hw'⟩

end Snapshot
