import Mathlib.Logic.Basic

/-! # Labelled runs and their histories

A transition system with labelled steps, and its finite runs. A run carries the
labels of its steps, newest first, so a statement about everything that has
happened so far is a structural recursion on one list. The rules below turn a
step lemma into a statement about every run.
-/

namespace Foundation

variable {κ ε κ' ε' : Type*}

/-- The runs of a labelled transition system, with the labels of their steps,
newest first. -/
inductive Trace (init : κ → Prop) (step : κ → ε → κ → Prop) : List ε → κ → Prop
  | start {state : κ} : init state → Trace init step [] state
  | turn {history : List ε} {state next : κ} {label : ε} :
      Trace init step history state → step state label next →
        Trace init step (label :: history) next

namespace Trace

variable {init : κ → Prop} {step : κ → ε → κ → Prop} {history : List ε} {state : κ}

/-- What holds at the start and is kept by every step of a run holds throughout.
The step may use that its own starting point was reached. -/
theorem invariant (property : List ε → κ → Prop)
    (initial : ∀ state, init state → property [] state)
    (preserved : ∀ history state label next, Trace init step history state →
      property history state → step state label next → property (label :: history) next)
    (trace : Trace init step history state) : property history state := by
  induction trace with
  | start begins => exact initial _ begins
  | turn earlier moved ih => exact preserved _ _ _ _ earlier ih moved

/-- The rule for a property that needs an assumption on the history. The
assumption is one that every older part of a history inherits. -/
theorem invariant_under (assumption : List ε → Prop) (property : List ε → κ → Prop)
    (inherited : ∀ label history, assumption (label :: history) → assumption history)
    (initial : ∀ state, init state → property [] state)
    (preserved : ∀ history state label next, Trace init step history state →
      assumption (label :: history) → property history state → step state label next →
        property (label :: history) next)
    (trace : Trace init step history state) (assumed : assumption history) :
    property history state := by
  induction trace with
  | start begins => exact initial _ begins
  | turn earlier moved ih =>
      exact preserved _ _ _ _ earlier assumed (ih (inherited _ _ assumed)) moved

/-- A run of one system is, through a projection that respects steps, a run of
the other with the same history. -/
theorem map {init' : κ' → Prop} {step' : κ' → ε → κ' → Prop} (project : κ → κ')
    (initial : ∀ state, init state → init' (project state))
    (simulates : ∀ state label next, step state label next →
      step' (project state) label (project next))
    (trace : Trace init step history state) : Trace init' step' history (project state) := by
  induction trace with
  | start begins => exact .start (initial _ begins)
  | turn _ moved ih => exact .turn ih (simulates _ _ _ moved)

/-- A run of one system refines one of another when each of its steps is one step there,
or none. What the other run tells is read off the history and the state it leads to. -/
theorem refines {init' : κ' → Prop} {step' : κ' → ε' → κ' → Prop} (project : κ → κ')
    (told : κ → List ε → List ε')
    (initial : ∀ state, init state → init' (project state) ∧ told state [] = [])
    (simulates : ∀ history state label next, Trace init step history state →
      step state label next →
        project next = project state ∧ told next (label :: history) = told state history ∨
        ∃ label', step' (project state) label' (project next) ∧
          told next (label :: history) = label' :: told state history)
    (trace : Trace init step history state) :
    Trace init' step' (told state history) (project state) := by
  induction trace with
  | start begins =>
      obtain ⟨begins', nothing⟩ := initial _ begins
      rw [nothing]
      exact .start begins'
  | turn earlier moved ih =>
      rcases simulates _ _ _ _ earlier moved with ⟨stays, silent⟩ | ⟨label', moved', spoken⟩
      · rw [stays, silent]
        exact ih
      · rw [spoken]
        exact .turn ih moved'

/-- The last step of a run, and the run before it. -/
theorem last {label : ε} (trace : Trace init step (label :: history) state) :
    ∃ before, Trace init step history before ∧ step before label state := by
  cases trace with
  | turn earlier moved => exact ⟨_, earlier, moved⟩

/-- Every older part of a history is the history of a run. -/
theorem older {newer older : List ε} (trace : Trace init step (newer ++ older) state) :
    ∃ before, Trace init step older before := by
  induction newer generalizing state with
  | nil => exact ⟨state, trace⟩
  | cons label newer ih =>
      obtain ⟨before, earlier, _⟩ := trace.last
      exact ih earlier

end Trace
end Foundation
