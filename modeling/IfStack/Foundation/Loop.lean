import Mathlib.Logic.Basic

/-! # Loops that are left from inside

A loop whose body either goes on with a new state or leaves with a result. The
loop has a result when some number of passes reaches one. What a pass keeps while
it goes on, and what it gives when it leaves, is a property of the result.
-/

namespace Foundation
namespace Loop

variable {α β : Type*}

/-- At most so many passes. -/
def passes (body : α → Except β α) : Nat → α → Except β α
  | 0, state => .ok state
  | count + 1, state =>
      match body state with
      | .ok next => passes body count next
      | .error left => .error left

open Classical in
/-- Run a body until it leaves; none when it never does. -/
noncomputable def run (body : α → Except β α) (state : α) : Option β :=
  if leaves : ∃ left count, passes body count state = .error left then some leaves.choose else none

variable {body : α → Except β α}

/-- Passes that go on are followed by more. -/
theorem passes_append {count : Nat} {state next : α}
    (goes : passes body count state = .ok next) (more : Nat) :
    passes body (count + more) state = passes body more next := by
  induction count generalizing state with
  | zero =>
      cases goes
      rw [Nat.zero_add]
  | succ count ih =>
      rw [Nat.succ_add]
      unfold passes at goes
      rw [passes]
      cases moved : body state with
      | ok middle =>
          simp only [moved] at goes
          exact ih goes
      | error left =>
          simp only [moved] at goes
          cases goes

/-- What the passes leave with does not change when more are allowed. -/
theorem passes_add {count : Nat} {state : α} {left : β}
    (leaves : passes body count state = .error left) (more : Nat) :
    passes body (count + more) state = .error left := by
  induction count generalizing state with
  | zero => cases leaves
  | succ count ih =>
      rw [Nat.succ_add]
      unfold passes at leaves ⊢
      cases moved : body state with
      | ok next =>
          simp only [moved] at leaves
          exact ih leaves
      | error out =>
          simp only [moved] at leaves
          cases leaves
          rfl

/-- The loop leaves with what some number of passes leaves with. -/
theorem run_eq_some_iff {state : α} {left : β} :
    run body state = some left ↔ ∃ count, passes body count state = .error left := by
  unfold run
  constructor
  · intro result
    split at result
    · rename_i leaves
      cases result
      exact leaves.choose_spec
    · cases result
  · rintro ⟨count, reached⟩
    have leaves : ∃ left count, passes body count state = .error left := ⟨left, count, reached⟩
    obtain ⟨other, chosen⟩ := leaves.choose_spec
    rw [dif_pos leaves]
    have first := passes_add reached other
    have second := passes_add chosen count
    rw [Nat.add_comm, first] at second
    cases second
    rfl

/-- Passes keep an invariant while they go on, and what a pass gives when it
leaves holds of what the passes leave with. -/
theorem passes_invariant (kept : α → Prop) (given : β → Prop)
    (goes : ∀ state next, kept state → body state = .ok next → kept next)
    (leaves : ∀ state left, kept state → body state = .error left → given left)
    (count : Nat) {state : α} (begins : kept state) :
    match passes body count state with
    | .ok next => kept next
    | .error left => given left := by
  induction count generalizing state with
  | zero => exact begins
  | succ count ih =>
      unfold passes
      cases moved : body state with
      | ok next => exact ih (goes state next begins moved)
      | error left => exact leaves state left begins moved

/-- The invariant rule for the whole loop. -/
theorem run_invariant (kept : α → Prop) (given : β → Prop)
    (goes : ∀ state next, kept state → body state = .ok next → kept next)
    (leaves : ∀ state left, kept state → body state = .error left → given left)
    {state : α} {left : β} (begins : kept state) (result : run body state = some left) :
    given left := by
  obtain ⟨count, reached⟩ := run_eq_some_iff.mp result
  have outcome := passes_invariant kept given goes leaves count begins
  rwa [reached] at outcome

/-- The termination rule: where every pass that goes on grows a size, and no pass goes on from
a size at a limit or above it, the loop leaves. -/
theorem run_isSome (kept : α → Prop) (size : α → Nat) (limit : Nat)
    (goes : ∀ state next, kept state → body state = .ok next → kept next ∧ size state < size next)
    (stops : ∀ state, kept state → limit ≤ size state → ∃ left, body state = .error left)
    {state : α} (begins : kept state) : (run body state).isSome := by
  have leaves : ∃ left count, passes body count state = .error left := by
    induction room : limit - size state using Nat.strongRecOn generalizing state with
    | ind room ih =>
        cases moved : body state with
        | error left => exact ⟨left, 1, by simp only [passes, moved]⟩
        | ok next =>
            obtain ⟨again, grows⟩ := goes state next begins moved
            have below : size state < limit := Nat.lt_of_not_le fun reached => by
              obtain ⟨left, stopped⟩ := stops state begins reached
              cases moved.symm.trans stopped
            obtain ⟨left, count, ends⟩ := ih (limit - size next) (by omega) again rfl
            exact ⟨left, count + 1, by simp only [passes, moved, ends]⟩
  obtain ⟨left, count, ends⟩ := leaves
  rw [run_eq_some_iff.mpr ⟨count, ends⟩]
  rfl

end Loop
end Foundation
