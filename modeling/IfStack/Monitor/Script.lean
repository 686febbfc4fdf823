import IfStack.Monitor.Run

/-! # Running the monitor on a script

The loop as a function of the number of steps, and a source that answers from
prepared lists. Together they run the monitor on any finite course of events.
-/

namespace IfStack

open Foundation

section

variable {σ ID : Type} [AgentxId ID] [Acquisition σ]

/-- The history and the state after a number of steps. -/
def Monitor.steps : Nat → Monitor σ ID → Option (List Entry × Monitor σ ID)
  | 0, monitor => some ([], monitor)
  | count + 1, monitor => do
      let (history, monitor) ← monitor.steps count
      let (entry, next) ← monitor.step
      return (entry :: history, next)

/-- What the loop computes from a state are its steps from there. -/
theorem Monitor.trace_of_steps {before monitor : Monitor σ ID} {count : Nat}
    {history : List Entry} (computed : before.steps count = some (history, monitor)) :
    Trace (· = before) (fun monitor entry next => monitor.step = some (entry, next)) history
      monitor := by
  induction count generalizing history monitor with
  | zero =>
      cases computed
      exact .start rfl
  | succ count ih =>
      obtain ⟨⟨older, middle⟩, earlier, rest⟩ := Option.bind_eq_some_iff.mp computed
      obtain ⟨⟨entry, next⟩, moved, final⟩ := Option.bind_eq_some_iff.mp rest
      cases final
      exact .turn (ih earlier) moved

/-- What the loop computes is a run. -/
theorem Run.of_steps {source : σ} {reconcile : Duration} {count : Nat} {history : List Entry}
    {monitor : Monitor σ ID}
    (computed : (⟨source, .initial reconcile⟩ : Monitor σ ID).steps count =
      some (history, monitor)) :
    Run source reconcile history monitor :=
  Monitor.trace_of_steps computed

/-- What the computed history and state show, a run shows. -/
theorem Run.of_shown (source : σ) (reconcile : Duration) (count : Nat)
    (shown : List Entry → Monitor σ ID → Prop)
    [∀ history monitor, Decidable (shown history monitor)]
    (computed : ((⟨source, .initial reconcile⟩ : Monitor σ ID).steps count).any
      (fun reached => decide (shown reached.1 reached.2)) = true) :
    ∃ history monitor, Run source reconcile history monitor ∧ shown history monitor := by
  obtain ⟨⟨history, monitor⟩, steps, holds⟩ := Option.any_eq_true _ _ |>.mp computed
  exact ⟨history, monitor, Run.of_steps steps, of_decide_eq_true holds⟩

end

/-- A source that answers from lists: clock readings, and the outcomes of the
three calls. The clock stops at its last reading, an inventory without an answer
never returns, and a wait without one runs to its deadline. -/
structure Script where
  readings : List Duration
  subscriptions : List (Except Error Unit)
  inventories : List (Except AcquisitionError Inventory)
  waits : List (Except Error WaitOutcome)

namespace Script

/-- Take the next clock reading; the last one stays. -/
def read (script : Script) : Duration × Script :=
  match script.readings with
  | [] => (.zero, script)
  | [last] => (last, script)
  | reading :: readings => (reading, { script with readings })

instance : Acquisition Script where
  now := read
  subscribe script :=
    match script.subscriptions with
    | [] => (.ok (), script)
    | outcome :: subscriptions => (outcome, { script with subscriptions })
  inventory _ script :=
    match script.inventories with
    | [] => none
    | outcome :: inventories => some (outcome, { script with inventories })
  wait _ script :=
    match script.waits with
    | [] => (.ok .deadline, script)
    | outcome :: waits => (outcome, { script with waits })

/-- One empty inventory at time zero, and one change five seconds later. -/
def changed : Script where
  readings := []
  subscriptions := []
  inventories := [.ok ⟨⟨0⟩, [], ⟨none, none⟩⟩]
  waits := [.ok (.linkChanged (.fromSecs 5))]

end Script
end IfStack
