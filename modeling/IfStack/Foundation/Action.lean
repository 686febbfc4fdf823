/-! # Actions that may stop

Actions on a state that end with a value or stop early, as `EStateM` has them. Where
two actions in sequence end is said by where each of them ends.
-/

namespace Foundation

variable {ε σ α β : Type} {action : EStateM ε σ α} {next : α → EStateM ε σ β}
  {state middle after : σ} {value : α} {value' : β} {stop : ε}

/-- The state in which an action ends or stops. -/
def reached : EStateM.Result ε σ α → σ
  | .ok _ after => after
  | .error _ after => after

/-- The value with which an action ends. -/
def ended : EStateM.Result ε σ α → Option α
  | .ok value _ => some value
  | .error _ _ => none

/-- The reason for which an action stops. -/
def stopped : EStateM.Result ε σ α → Option ε
  | .ok _ _ => none
  | .error stop _ => some stop

/-- An action that ended with a value returned it in the state it reached. -/
theorem eq_ok_of_ended {result : EStateM.Result ε σ α} (same : ended result = some value) :
    result = .ok value (reached result) := by
  cases result with
  | ok value' after =>
      cases same
      rfl
  | error stop after => cases same

/-- A sequence goes on where its first action ends. -/
theorem bind_ok (first : action state = .ok value middle) :
    (action >>= next) state = next value middle := by
  change EStateM.bind action next state = _
  rw [EStateM.bind, first]

/-- A sequence stops where its first action stops. -/
theorem bind_error (first : action state = .error stop after) :
    (action >>= next) state = .error stop after := by
  change EStateM.bind action next state = _
  rw [EStateM.bind, first]

/-- A sequence that ends has gone through both of its actions. -/
theorem bind_eq_ok (ended : (action >>= next) state = .ok value' after) :
    ∃ value middle, action state = .ok value middle ∧ next value middle = .ok value' after := by
  cases first : action state with
  | ok value middle => exact ⟨value, middle, rfl, (bind_ok first).symm.trans ended⟩
  | error stop middle => cases (bind_error first).symm.trans ended

/-- A sequence that stops has stopped in one of its actions. -/
theorem bind_eq_error (stopped : (action >>= next) state = .error stop after) :
    action state = .error stop after ∨
      ∃ value middle, action state = .ok value middle ∧ next value middle = .error stop after := by
  cases first : action state with
  | ok value middle => exact .inr ⟨value, middle, rfl, (bind_ok first).symm.trans stopped⟩
  | error stop' middle =>
      cases (bind_error first).symm.trans stopped
      exact .inl rfl

/-- An action stops for certain reasons only. -/
def StopsBy (permits : ε → Prop) (action : EStateM ε σ α) : Prop :=
  ∀ state stop after, action state = .error stop after → permits stop

namespace StopsBy

variable {permits : ε → Prop}

/-- A sequence stops by what its parts may stop by. -/
theorem bind (first : StopsBy permits action) (second : ∀ value, StopsBy permits (next value)) :
    StopsBy permits (action >>= next) := by
  intro state stop after stopped
  rcases bind_eq_error stopped with here | ⟨value, middle, _, later⟩
  · exact first state stop after here
  · exact second value middle stop after later

theorem pure (value : α) : StopsBy permits (Pure.pure value : EStateM ε σ α) := by
  intro state stop after stopped
  cases stopped

end StopsBy
end Foundation
