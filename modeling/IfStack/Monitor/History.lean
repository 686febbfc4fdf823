import IfStack.Foundation.Register
import IfStack.Monitor.Turn

/-! # What a history says

Questions about the past of a run, answered from its history alone: the losses
and the generation they count, the inventories accepted, the changes delivered
and the clock readings taken. Histories are newest first.
-/

namespace IfStack

open Foundation

namespace Entry

/-- A continuity loss: an inventory that returned `Lost`, or a failed wait. -/
def isLoss : Entry → Bool
  | .lost .. | .waitFailed .. => true
  | _ => false

/-- The clock readings of a step, newest first. -/
def readings : Entry → List Duration
  | .skipped now | .subscribing now | .started now _ | .waiting now _ => [now]
  | .completed _ finished failed => failed.toList ++ [finished]
  | .subscribeFailed _ failed | .ordinary _ _ failed | .lost _ _ failed | .waitFailed _ failed =>
      [failed]
  | .subscribed | .deadline | .linkChanged _ => []

end Entry

namespace History

/-- The number of continuity losses. -/
def losses (history : List Entry) : Nat := history.countP Entry.isLoss

/-- The continuity generation: the number of losses, as the counter holds it. -/
def generation (history : List Entry) : UInt64 := .ofNat (losses history)

/-- The clock readings of a history, newest first. -/
def readings (history : List Entry) : List Duration := history.flatMap Entry.readings

/-- The clock never runs backwards. -/
def Nondecreasing (history : List Entry) : Prop :=
  (readings history).Pairwise fun newer older => older ≤ newer

/-- The topology an entry publishes, given what came before it. -/
def accepted (older : List Entry) : Entry → Option Topology
  | .completed inventory _ _ => inventory.topologyIn (generation older)
  | _ => none

/-- The link changes an entry delivers, given what came before it, in order: one
found by a wait, or those of an inventory's event batch that the monitor takes. -/
def changes (older : List Entry) : Entry → List Duration
  | .completed inventory _ _ => inventory.changesIn (generation older)
  | .ordinary _ events _ | .lost _ events _ => events.changes
  | .linkChanged time => [time]
  | _ => []

/-- The losses of a history, by its newest entry. -/
theorem losses_cons (entry : Entry) (history : List Entry) :
    losses (entry :: history) = losses history + if entry.isLoss then 1 else 0 :=
  List.countP_cons

/-- While the counter has not wrapped, the generation is the number of losses. -/
theorem generation_toNat {history : List Entry} (few : losses history < 2 ^ 64) :
    (generation history).toNat = losses history := by
  rw [generation, UInt64.toNat_ofNat_of_lt' few]

/-- A loss starts a new generation. -/
theorem generation_cons_of_loss {entry : Entry} (history : List Entry) (loss : entry.isLoss) :
    generation (entry :: history) = generation history + 1 := by
  rw [generation, losses_cons, loss, if_pos rfl, UInt64.ofNat_add]
  rfl

/-- Any other entry stays in its generation. -/
theorem generation_cons_of_not_loss {entry : Entry} (history : List Entry)
    (kept : entry.isLoss = false) : generation (entry :: history) = generation history := by
  rw [generation, losses_cons, kept]
  rfl

/-- Losses only grow. -/
theorem losses_le_append (newer older : List Entry) : losses older ≤ losses (newer ++ older) := by
  unfold losses
  rw [List.countP_append]
  exact Nat.le_add_left _ _

/-- The clock of an older history does not go back. -/
theorem Nondecreasing.older {entry : Entry} {history : List Entry}
    (monotone : Nondecreasing (entry :: history)) : Nondecreasing history := by
  unfold Nondecreasing readings at monotone ⊢
  rw [List.flatMap_cons] at monotone
  exact (List.pairwise_append.mp monotone).2.1

/-- A new reading is no earlier than any before it. -/
theorem Nondecreasing.le {entry : Entry} {history : List Entry}
    (monotone : Nondecreasing (entry :: history)) {newer older : Duration}
    (here : newer ∈ entry.readings) (before : older ∈ readings history) : older ≤ newer := by
  unfold Nondecreasing readings at monotone
  rw [List.flatMap_cons] at monotone
  exact (List.pairwise_append.mp monotone).2.2 newer here older before

end History

namespace State

/-- What one change leaves alone, several do. -/
theorem recordAll_keeps {α : Type} (field : State → α)
    (kept : ∀ state time, field (recordEvent state time) = field state) (state : State)
    (times : List Duration) : field (state.recordAll times) = field state := by
  induction times generalizing state with
  | nil => rfl
  | cons time times ih =>
      rw [recordAll_cons, ih]
      exact kept state time

@[simp] theorem recordAll_reconcile (state : State) (times : List Duration) :
    (state.recordAll times).reconcile = state.reconcile :=
  recordAll_keeps reconcile (fun _ _ => rfl) state times

@[simp] theorem recordAll_continuity (state : State) (times : List Duration) :
    (state.recordAll times).continuity = state.continuity :=
  recordAll_keeps continuity (fun _ _ => rfl) state times

@[simp] theorem recordAll_subscribed (state : State) (times : List Duration) :
    (state.recordAll times).subscribed = state.subscribed :=
  recordAll_keeps subscribed (fun _ _ => rfl) state times

@[simp] theorem recordAll_needsInventory (state : State) (times : List Duration) :
    (state.recordAll times).needsInventory = state.needsInventory :=
  recordAll_keeps needsInventory (fun _ _ => rfl) state times

@[simp] theorem recordAll_failureDelay (state : State) (times : List Duration) :
    (state.recordAll times).failureDelay = state.failureDelay :=
  recordAll_keeps failureDelay (fun _ _ => rfl) state times

end State

section

variable {ID : Type} [AgentxId ID] {reconcile : Duration} {history : List Entry}
  {actor : Actor ID}

/-- The reconciliation interval never changes. -/
theorem Schedule.reconcile_eq (schedule : Schedule reconcile history actor) :
    actor.state.reconcile = reconcile := by
  refine Trace.invariant (fun _ actor => actor.state.reconcile = reconcile)
    (fun _ begins => begins ▸ rfl) ?_ schedule
  intro history before entry next _ same turn
  cases turn <;> first | exact same | exact (State.recordAll_reconcile _ _).trans same

/-- The continuity counter counts the losses. -/
theorem Schedule.continuity_eq (schedule : Schedule reconcile history actor) :
    actor.state.continuity = History.generation history := by
  refine Trace.invariant
    (fun history actor => actor.state.continuity = History.generation history)
    (fun _ begins => begins ▸ rfl) ?_ schedule
  intro history before entry next _ same turn
  cases turn with
  | lost | waitFailed =>
      rw [History.generation_cons_of_loss history rfl, ← same]
      simp only [State.loseContinuity, State.fail, State.recordAll_continuity]
  | accepted | rejected | ordinary =>
      rw [History.generation_cons_of_not_loss history rfl, ← same]
      simp only [State.succeed, State.fail, State.recordAll_continuity]
  | _ =>
      rw [History.generation_cons_of_not_loss history rfl]
      exact same

end
end IfStack
