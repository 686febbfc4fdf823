import IfStack.Monitor.Run

/-! # What a step of the monitor can do

A step of the loop over any source, seen from the loop's own variables: a
relation with one rule per outcome. Every step of a run follows one of the rules
(`Monitor.turn_of_step`), so a property of runs is proved by cases on them, and
the source is forgotten.
-/

namespace IfStack

open Foundation

namespace EventBatch

/-- The batches `record_batch` takes: empty, or two ordered times less than
`eventReset` apart. -/
def Valid (batch : EventBatch) : Prop :=
  match batch.first, batch.last with
  | none, none => True
  | some first, some last => first ≤ last ∧ last.saturatingSub first < eventReset
  | _, _ => False

instance (batch : EventBatch) : Decidable batch.Valid := by
  unfold Valid
  split <;> infer_instance

/-- The changes a batch brings to the state, in order. -/
def changes (batch : EventBatch) : List Duration :=
  if batch.Valid then
    batch.first.toList ++ if batch.first = batch.last then [] else batch.last.toList
  else []

end EventBatch

namespace State

/-- Several changes, one after the other. -/
def recordAll (state : State) (times : List Duration) : State := times.foldl recordEvent state

@[simp] theorem recordAll_nil (state : State) : state.recordAll [] = state := rfl

@[simp] theorem recordAll_cons (state : State) (time : Duration) (times : List Duration) :
    state.recordAll (time :: times) = (state.recordEvent time).recordAll times := rfl

/-- A valid batch is recorded, and nothing else is. -/
theorem recordBatch_of_valid {state : State} {batch : EventBatch} (valid : batch.Valid) :
    state.recordBatch batch = (.ok (), state.recordAll batch.changes) := by
  obtain ⟨first, last⟩ := batch
  have shown := valid
  cases first with
  | none =>
      cases last with
      | none => simp [recordBatch, EventBatch.changes]
      | some last => exact valid.elim
  | some first =>
      cases last with
      | none => exact valid.elim
      | some last =>
          change first ≤ last ∧ last.saturatingSub first < eventReset at shown
          simp only [recordBatch, shown, and_self, ↓reduceIte, EventBatch.changes, valid]
          by_cases same : first = last
          · subst same
            simp
          · simp [same]

/-- Any other batch is refused and leaves the state as it was. -/
theorem recordBatch_of_not_valid {state : State} {batch : EventBatch} (invalid : ¬ batch.Valid) :
    state.recordBatch batch = (.error (.other "invalid inventory notification timestamps"),
      state) := by
  obtain ⟨first, last⟩ := batch
  cases first with
  | none =>
      cases last with
      | none => exact (invalid trivial).elim
      | some last => rfl
  | some first =>
      cases last with
      | none => rfl
      | some last =>
          change ¬ (first ≤ last ∧ last.saturatingSub first < eventReset) at invalid
          simp only [recordBatch, invalid, ↓reduceIte]

/-- A failed inventory leaves the changes of its batch behind. -/
theorem retainFailedEvents_eq (state : State) (batch : EventBatch) :
    state.retainFailedEvents batch = state.recordAll batch.changes := by
  unfold retainFailedEvents
  by_cases valid : batch.Valid
  · rw [recordBatch_of_valid valid]
  · rw [recordBatch_of_not_valid valid]
    simp only [EventBatch.changes, valid, ↓reduceIte, recordAll_nil]

/-- The effect of an accepted inventory on the retry ladder and the schedule. -/
def succeed (state : State) (now : Duration) : State :=
  { state with retryNotBefore := none, failureDelay := initialDelay, lastSuccess := some now }

end State

namespace Inventory

/-- The changes an inventory brings when it completes in a generation. A stale
inventory brings none. -/
def changesIn (generation : UInt64) (inventory : Inventory) : List Duration :=
  if inventory.attempt.continuity = generation then inventory.events.changes else []

/-- The topology an inventory publishes when it completes in a generation, if it
is accepted: its attempt is of the generation, its event times are valid, and its
links form a topology. -/
def topologyIn (generation : UInt64) (inventory : Inventory) : Option Topology :=
  if inventory.attempt.continuity = generation ∧ inventory.events.Valid then
    (Topology.fromObserved inventory.links).toOption
  else none

/-- An inventory gives a topology when it is of the generation and its batch and links are
valid. -/
theorem topologyIn_eq_some {generation : UInt64} {inventory : Inventory} {topology : Topology} :
    inventory.topologyIn generation = some topology ↔
      inventory.attempt.continuity = generation ∧ inventory.events.Valid ∧
        Topology.fromObserved inventory.links = .ok topology := by
  unfold topologyIn
  by_cases taken : inventory.attempt.continuity = generation ∧ inventory.events.Valid
  · rw [if_pos taken]
    cases formed : Topology.fromObserved inventory.links with
    | error error => simp [Except.toOption]
    | ok found => simp [Except.toOption, taken.1, taken.2]
  · rw [if_neg taken]
    exact ⟨fun absent => (nomatch absent), fun shown => (taken ⟨shown.1, shown.2.1⟩).elim⟩

end Inventory

/-- An inventory is accepted exactly when it yields a topology in the current
generation. -/
theorem State.acceptInventory_of_some {state : State} {inventory : Inventory}
    {topology : Topology} {now : Duration}
    (taken : inventory.topologyIn state.continuity = some topology) :
    state.acceptInventory inventory now =
      (.ok topology, (state.recordAll (inventory.changesIn state.continuity)).succeed now) := by
  obtain ⟨current, valid, formed⟩ := Inventory.topologyIn_eq_some.mp taken
  simp only [acceptInventory, current, ne_eq, not_true_eq_false, ↓reduceIte,
    recordBatch_of_valid valid, formed, Inventory.changesIn, succeed]

/-- A refused inventory leaves at most its changes behind. -/
theorem State.acceptInventory_of_none {state : State} {inventory : Inventory} (now : Duration)
    (refused : inventory.topologyIn state.continuity = none) :
    ∃ error, state.acceptInventory inventory now =
      (.error error, state.recordAll (inventory.changesIn state.continuity)) := by
  by_cases current : inventory.attempt.continuity = state.continuity
  · by_cases valid : inventory.events.Valid
    · cases formed : Topology.fromObserved inventory.links with
      | ok topology =>
          have taken := Inventory.topologyIn_eq_some.mpr ⟨current, valid, formed⟩
          exact nomatch refused.symm.trans taken
      | error error =>
          exact ⟨error, by simp only [acceptInventory, current, ne_eq, not_true_eq_false,
            ↓reduceIte, recordBatch_of_valid valid, formed, Inventory.changesIn]⟩
    · exact ⟨_, by simp only [acceptInventory, current, ne_eq, not_true_eq_false, ↓reduceIte,
        recordBatch_of_not_valid valid, Inventory.changesIn, EventBatch.changes, valid,
        recordAll_nil]; rfl⟩
  · exact ⟨_, by simp only [acceptInventory, current, ne_eq, not_false_eq_true, ↓reduceIte,
      Inventory.changesIn, recordAll_nil]; rfl⟩

/-- The steps of the loop, by outcome. -/
inductive Turn {ID : Type} [AgentxId ID] : Actor ID → Entry → Actor ID → Prop
  | skip {state : State} {publication : Publication ID} {now : Duration}
      (idle : ¬ (state.subscribed = false ∧ state.retryReady now = true)) :
      Turn ⟨.head, state, publication⟩ (.skipped now) ⟨.ready, state, publication⟩
  | subscribing {state : State} {publication : Publication ID} {now : Duration}
      (missing : state.subscribed = false) (due : state.retryReady now = true) :
      Turn ⟨.head, state, publication⟩ (.subscribing now)
        ⟨.subscribing now, state, publication⟩
  | subscribed {state : State} {publication : Publication ID} {now : Duration} :
      Turn ⟨.subscribing now, state, publication⟩ .subscribed
        ⟨.ready, { state with subscribed := true, needsInventory := true }, publication⟩
  | subscribeFailed {state : State} {publication : Publication ID} {now failed : Duration}
      {error : Error} :
      Turn ⟨.subscribing now, state, publication⟩ (.subscribeFailed error failed)
        ⟨.ready, state.fail failed, publication⟩
  | started {state : State} {publication : Publication ID} {now : Duration}
      (present : state.subscribed = true) (due : state.acquisitionReady now = true) :
      Turn ⟨.ready, state, publication⟩ (.started now ⟨state.continuity⟩)
        ⟨.inventorying now ⟨state.continuity⟩, state.startAcquisition, publication⟩
  | accepted {state : State} {publication : Publication ID} {now finished : Duration}
      {attempt : Attempt} {inventory : Inventory} {topology : Topology}
      (taken : inventory.topologyIn state.continuity = some topology) :
      Turn ⟨.inventorying now attempt, state, publication⟩ (.completed inventory finished none)
        ⟨.head, (state.recordAll (inventory.changesIn state.continuity)).succeed finished,
          publication.publish (Mib.fromTopology topology)⟩
  | rejected {state : State} {publication : Publication ID} {now finished failed : Duration}
      {attempt : Attempt} {inventory : Inventory}
      (refused : inventory.topologyIn state.continuity = none) :
      Turn ⟨.inventorying now attempt, state, publication⟩
        (.completed inventory finished (some failed))
        ⟨.head, (state.recordAll (inventory.changesIn state.continuity)).fail failed,
          publication⟩
  | ordinary {state : State} {publication : Publication ID} {now failed : Duration}
      {attempt : Attempt} {error : Error} {events : EventBatch} :
      Turn ⟨.inventorying now attempt, state, publication⟩ (.ordinary error events failed)
        ⟨.head, (state.recordAll events.changes).fail failed, publication⟩
  | lost {state : State} {publication : Publication ID} {now failed : Duration}
      {attempt : Attempt} {error : Error} {events : EventBatch} :
      Turn ⟨.inventorying now attempt, state, publication⟩ (.lost error events failed)
        ⟨.head, (state.recordAll events.changes).loseContinuity failed, publication.unavailable⟩
  | waiting {state : State} {publication : Publication ID} {now : Duration}
      (idle : ¬ (state.subscribed = true ∧ state.acquisitionReady now = true)) :
      Turn ⟨.ready, state, publication⟩
        (.waiting now ((state.nextDeadline now).saturatingSub now))
        ⟨.waiting now ((state.nextDeadline now).saturatingSub now), state, publication⟩
  | deadline {state : State} {publication : Publication ID} {now timeout : Duration} :
      Turn ⟨.waiting now timeout, state, publication⟩ .deadline ⟨.head, state, publication⟩
  | linkChanged {state : State} {publication : Publication ID} {now timeout time : Duration} :
      Turn ⟨.waiting now timeout, state, publication⟩ (.linkChanged time)
        ⟨.head, state.recordEvent time, publication⟩
  | waitFailed {state : State} {publication : Publication ID} {now timeout failed : Duration}
      {error : Error} :
      Turn ⟨.waiting now timeout, state, publication⟩ (.waitFailed error failed)
        ⟨.head, state.loseContinuity failed, publication.unavailable⟩

section

variable {σ ID : Type} [AgentxId ID] [Acquisition σ]

/-- The runs of the loop with the source forgotten. -/
def Schedule (reconcile : Duration) : List Entry → Actor ID → Prop :=
  Trace (· = Actor.initial reconcile) Turn

namespace Monitor

private theorem turn_of_head (source : σ) (state : State) (publication : Publication ID)
    (entry : Entry) (next : Monitor σ ID)
    (moved : head ⟨source, ⟨.head, state, publication⟩⟩ = (entry, next)) :
    Turn ⟨.head, state, publication⟩ entry next.actor := by
  unfold head at moved
  by_cases due : (!state.subscribed && state.retryReady (Acquisition.now source).1) = true
  · simp only [due, ↓reduceIte] at moved
    cases moved
    simp only [Bool.and_eq_true, Bool.not_eq_true'] at due
    exact .subscribing due.1 due.2
  · simp only [due, Bool.false_eq_true, ↓reduceIte] at moved
    cases moved
    simp only [Bool.and_eq_true, Bool.not_eq_true'] at due
    exact .skip due

private theorem turn_of_subscribe (source : σ) (now : Duration) (state : State)
    (publication : Publication ID) (entry : Entry) (next : Monitor σ ID)
    (moved : subscribe ⟨source, ⟨.subscribing now, state, publication⟩⟩ = (entry, next)) :
    Turn ⟨.subscribing now, state, publication⟩ entry next.actor := by
  unfold subscribe at moved
  cases answer : Acquisition.subscribe source with
  | mk outcome after =>
      cases outcome with
      | ok _ =>
          simp only [answer] at moved
          cases moved
          exact .subscribed
      | error error =>
          simp only [answer] at moved
          cases moved
          exact .subscribeFailed

private theorem turn_of_ready (source : σ) (state : State) (publication : Publication ID)
    (entry : Entry) (next : Monitor σ ID)
    (moved : ready ⟨source, ⟨.ready, state, publication⟩⟩ = (entry, next)) :
    Turn ⟨.ready, state, publication⟩ entry next.actor := by
  unfold ready at moved
  by_cases due : (state.subscribed && state.acquisitionReady (Acquisition.now source).1) = true
  · simp only [due, ↓reduceIte] at moved
    cases moved
    simp only [Bool.and_eq_true] at due
    exact .started due.1 due.2
  · simp only [due, Bool.false_eq_true, ↓reduceIte] at moved
    cases moved
    simp only [Bool.and_eq_true] at due
    exact .waiting due

private theorem turn_of_inventory (source : σ) (now : Duration) (attempt : Attempt)
    (state : State) (publication : Publication ID) (entry : Entry) (next : Monitor σ ID)
    (moved : inventory attempt ⟨source, ⟨.inventorying now attempt, state, publication⟩⟩ =
      some (entry, next)) :
    Turn ⟨.inventorying now attempt, state, publication⟩ entry next.actor := by
  unfold inventory at moved
  cases answer : Acquisition.inventory attempt source with
  | none => simp only [answer] at moved; cases moved
  | some result =>
      obtain ⟨outcome, after⟩ := result
      match outcome with
      | .error (.ordinary error events) =>
          simp only [answer, State.retainFailedEvents_eq] at moved
          cases moved
          exact .ordinary
      | .error (.lost error events) =>
          simp only [answer, State.retainFailedEvents_eq] at moved
          cases moved
          exact .lost
      | .ok completed =>
          cases taken : completed.topologyIn state.continuity with
          | some topology =>
              simp only [answer, State.acceptInventory_of_some taken] at moved
              cases moved
              exact .accepted taken
          | none =>
              obtain ⟨error, refused⟩ := State.acceptInventory_of_none
                (Acquisition.now after).1 taken
              simp only [answer, refused] at moved
              cases moved
              exact .rejected taken

private theorem turn_of_wait (source : σ) (now timeout : Duration) (state : State)
    (publication : Publication ID) (entry : Entry) (next : Monitor σ ID)
    (moved : wait timeout ⟨source, ⟨.waiting now timeout, state, publication⟩⟩ = (entry, next)) :
    Turn ⟨.waiting now timeout, state, publication⟩ entry next.actor := by
  unfold wait at moved
  cases answer : Acquisition.wait timeout source with
  | mk outcome after =>
      match outcome with
      | .ok .deadline => simp only [answer] at moved; cases moved; exact .deadline
      | .ok (.linkChanged time) => simp only [answer] at moved; cases moved; exact .linkChanged
      | .error error => simp only [answer] at moved; cases moved; exact .waitFailed

/-- Every step follows one of the rules. -/
theorem turn_of_step {monitor next : Monitor σ ID} {entry : Entry}
    (moved : monitor.step = some (entry, next)) : Turn monitor.actor entry next.actor := by
  obtain ⟨source, ⟨point, state, publication⟩⟩ := monitor
  cases point with
  | head => exact turn_of_head source state publication entry next (Option.some.inj moved)
  | subscribing now =>
      exact turn_of_subscribe source now state publication entry next (Option.some.inj moved)
  | ready => exact turn_of_ready source state publication entry next (Option.some.inj moved)
  | inventorying now attempt =>
      exact turn_of_inventory source now attempt state publication entry next moved
  | waiting now timeout =>
      exact turn_of_wait source now timeout state publication entry next (Option.some.inj moved)

end Monitor

/-- A run over any source is a run of the rules. -/
theorem Run.schedule {source : σ} {reconcile : Duration} {history : List Entry}
    {monitor : Monitor σ ID} (run : Run source reconcile history monitor) :
    Schedule reconcile history monitor.actor :=
  Trace.map Monitor.actor (fun _ begins => congrArg Monitor.actor begins)
    (fun _ _ _ => Monitor.turn_of_step) run

end
end IfStack
