import IfStack.Link.Topology
import IfStack.Std.Duration

/-! # The monitor's scheduling state

The pure part of `monitor.rs`: when a subscription or an inventory is due, how
events and failures back off, and how long to sleep. Every operation returns the
state it leaves, also where it fails.
-/

namespace IfStack

/-- `INITIAL_DELAY`. -/
def initialDelay : Duration := .fromSecs 1

/-- `MAX_DELAY`. -/
def maxDelay : Duration := .fromSecs 30

/-- `EVENT_RESET`. -/
def eventReset : Duration := .fromSecs 60

/-- The continuity generation an inventory was requested in. -/
structure Attempt where
  continuity : UInt64
deriving DecidableEq, Repr

/-- The first and last link changes noticed while an inventory ran. -/
structure EventBatch where
  first : Option Duration
  last : Option Duration
deriving DecidableEq

/-- A completed inventory. -/
structure Inventory where
  attempt : Attempt
  links : List ObservedLink
  events : EventBatch
deriving DecidableEq

/-- How an acquisition fails: with the subscription kept, or lost. The changes noticed before
it are kept with it. -/
inductive AcquisitionError
  | ordinary (error : Error) (events : EventBatch)
  | lost (error : Error) (events : EventBatch)
deriving DecidableEq

/-- How a wait ends without an error: at its deadline, or by a change of a link. -/
inductive WaitOutcome
  | deadline
  | linkChanged (time : Duration)
deriving DecidableEq

/-- `next_delay`. The doubling cannot overflow on the delays the monitor keeps,
which stay below `maxDelay`. -/
def nextDelay (delay : Duration) : Duration := min (delay.saturatingAdd delay) maxDelay

/-- `State`: what the monitor keeps between its iterations. -/
structure State where
  reconcile : Duration
  continuity : UInt64
  subscribed : Bool
  needsInventory : Bool
  retryNotBefore : Option Duration
  failureDelay : Duration
  eventDeadline : Option Duration
  eventDelay : Duration
  lastEvent : Option Duration
  lastSuccess : Option Duration
deriving DecidableEq

namespace State

/-- `State::new`. -/
def new (reconcile : Duration) : State where
  reconcile := reconcile
  continuity := 0
  subscribed := false
  needsInventory := true
  retryNotBefore := none
  failureDelay := initialDelay
  eventDeadline := none
  eventDelay := initialDelay
  lastEvent := none
  lastSuccess := none

/-- `State::retry_ready`. -/
def retryReady (state : State) (now : Duration) : Bool :=
  state.retryNotBefore.all fun deadline => decide (deadline ≤ now)

@[simp] theorem retryReady_iff {state : State} {now : Duration} :
    state.retryReady now = true ↔ ∀ deadline ∈ state.retryNotBefore, deadline ≤ now := by
  unfold retryReady
  cases state.retryNotBefore <;> simp

/-- `State::acquisition_ready`. -/
def acquisitionReady (state : State) (now : Duration) : Bool :=
  if !state.retryReady now then false
  else state.needsInventory ||
    state.eventDeadline.any (fun deadline => decide (deadline ≤ now)) ||
    state.lastSuccess.any fun success => decide (success.saturatingAdd state.reconcile ≤ now)

/-- An acquisition is due when no retry holds it back and there is a reason for one. -/
theorem acquisitionReady_iff {state : State} {now : Duration} :
    state.acquisitionReady now = true ↔ state.retryReady now = true ∧
      (state.needsInventory = true ∨ (∃ deadline ∈ state.eventDeadline, deadline ≤ now) ∨
        ∃ success ∈ state.lastSuccess, success.saturatingAdd state.reconcile ≤ now) := by
  unfold acquisitionReady
  cases state.retryReady now with
  | false => simp
  | true => simp [or_assoc, Option.any_eq_true]

/-- `State::start_acquisition`. -/
def startAcquisition (state : State) : State :=
  { state with
    needsInventory := false
    eventDeadline := none
    eventDelay := if state.eventDeadline.isSome then nextDelay state.eventDelay
      else state.eventDelay }

/-- `State::record_event`. -/
def recordEvent (state : State) (time : Duration) : State :=
  let eventDelay :=
    if state.lastEvent.all fun last => decide (eventReset ≤ time.saturatingSub last) then
      initialDelay
    else state.eventDelay
  { state with
    eventDelay := eventDelay
    lastEvent := some time
    eventDeadline := some (state.eventDeadline.getD (time.saturatingAdd eventDelay)) }

/-- `State::record_batch`. -/
def recordBatch (state : State) (batch : EventBatch) : Except Error Unit × State :=
  match batch.first, batch.last with
  | none, none => (.ok (), state)
  | some first, some last =>
      if first ≤ last ∧ last.saturatingSub first < eventReset then
        let state := state.recordEvent first
        (.ok (), if first ≠ last then state.recordEvent last else state)
      else (.error (.other "invalid inventory notification timestamps"), state)
  | _, _ => (.error (.other "invalid inventory notification timestamps"), state)

/-- `State::accept_inventory`. -/
def acceptInventory (state : State) (inventory : Inventory) (now : Duration) :
    Except Error Topology × State :=
  if inventory.attempt.continuity ≠ state.continuity then
    (.error (.other "stale inventory from an earlier continuity generation"), state)
  else
    match state.recordBatch inventory.events with
    | (.error error, state) => (.error error, state)
    | (.ok (), state) =>
        match Topology.fromObserved inventory.links with
        | .error error => (.error error, state)
        | .ok topology =>
            (.ok topology, { state with
              retryNotBefore := none
              failureDelay := initialDelay
              lastSuccess := some now })

/-- `State::retain_failed_events`: a batch that cannot be recorded is dropped. -/
def retainFailedEvents (state : State) (events : EventBatch) : State := (state.recordBatch events).2

/-- `State::fail`. -/
def fail (state : State) (now : Duration) : State :=
  { state with
    needsInventory := true
    retryNotBefore := some (now.saturatingAdd state.failureDelay)
    failureDelay := nextDelay state.failureDelay }

/-- `State::lose_continuity`, but for the publication it makes unavailable. -/
def loseContinuity (state : State) (now : Duration) : State :=
  { state with
    continuity := state.continuity + 1
    subscribed := false
    needsInventory := true }.fail now

/-- `State::next_deadline`. -/
def nextDeadline (state : State) (now : Duration) : Duration :=
  match state.retryNotBefore with
  | some deadline => max deadline now
  | none =>
      if !state.subscribed || state.needsInventory then now
      else
        let event := state.eventDeadline.getD .maximum
        let reconcile := state.lastSuccess.elim now fun success =>
          success.saturatingAdd state.reconcile
        max (min event reconcile) now

end State
end IfStack
