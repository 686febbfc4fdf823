import IfStack.Foundation.Trace

/-! # Runs that count down

A run along which every step either reaches a goal or lowers a rank reaches the goal
within as many steps as the rank allows. Runs that go on from a reached state are runs
that start there.
-/

namespace Foundation.Trace

variable {κ ε : Type*} {init : κ → Prop} {step : κ → ε → κ → Prop}

/-- A run and one that goes on from its end. -/
theorem append {older newer : List ε} {middle state : κ} (first : Trace init step older middle)
    (second : Trace (· = middle) step newer state) : Trace init step (newer ++ older) state := by
  induction second with
  | start begins => exact begins ▸ first
  | turn _ moved ih => exact .turn ih moved

/-- The rule of the rank. Where the labels are as assumed, a step from a state that keeps the
invariant reaches the goal, or keeps the invariant and lowers the rank. -/
theorem reaches (assumption : ε → Prop) (goal : List ε → ε → Prop) (invariant : κ → Prop)
    (rank : κ → Nat) (bound : Nat)
    (begins : ∀ state, init state → invariant state ∧ rank state ≤ bound)
    (advances : ∀ history state label next, Trace init step history state → invariant state →
      assumption label → step state label next →
        goal history label ∨ invariant next ∧ rank next < rank state)
    {history : List ε} {state : κ} (trace : Trace init step history state)
    (assumed : ∀ label ∈ history, assumption label) (enough : bound < history.length) :
    ∃ newer label older, history = newer ++ label :: older ∧ goal older label ∧
      older.length ≤ bound := by
  -- Before the goal, the rank and the steps made stay within the bound together.
  have reached := Trace.invariant_under (fun history => ∀ label ∈ history, assumption label)
    (fun history state =>
      (∃ newer label older, history = newer ++ label :: older ∧ goal older label ∧
        older.length ≤ bound) ∨ invariant state ∧ rank state + history.length ≤ bound)
    (fun _ _ assumed label member => assumed label (List.mem_cons_of_mem _ member))
    (fun state first => .inr (begins state first))
    (by
      intro history state label next earlier assumed progress moved
      rcases progress with ⟨newer, other, older, rfl, hit, near⟩ | ⟨kept, within⟩
      · exact .inl ⟨label :: newer, other, older, rfl, hit, near⟩
      · rcases advances history state label next earlier kept (assumed label List.mem_cons_self)
          moved with hit | ⟨kept', lower⟩
        · exact .inl ⟨[], label, history, rfl, hit, by omega⟩
        · refine .inr ⟨kept', ?_⟩
          rw [List.length_cons]
          omega)
    trace assumed
  rcases reached with found | ⟨_, within⟩
  · exact found
  · omega

end Foundation.Trace
