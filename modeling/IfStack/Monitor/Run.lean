import IfStack.Foundation.Trace
import IfStack.Mib.Table
import IfStack.Monitor.State

/-! # The monitor's loop

`monitor::run` against an arbitrary acquisition source. The loop is cut at its
calls of the source: a point says which call comes next, and a step makes that
call and does what the loop does with its answer. A step also reports what
happened, with the clock readings it took, so that a run carries its history.
The statements of the loop body are those of the source, in its order; only the
test-only shutdown is left out.
-/

namespace IfStack

open Foundation

/-- `trait Acquisition`: what the loop asks of its source. The source is a state
that every call may change, the clock included, and an inventory may never
return. -/
class Acquisition (σ : Type) where
  now : σ → Duration × σ
  subscribe : σ → Except Error Unit × σ
  inventory : Attempt → σ → Option (Except AcquisitionError Inventory × σ)
  wait : Duration → σ → Except Error WaitOutcome × σ

/-- Where the loop stands: the call of the source it makes next. -/
inductive Point
  /-- The top of the loop, before the first clock reading. -/
  | head
  /-- `source.subscribe()`, decided at the reading `now`. -/
  | subscribing (now : Duration)
  /-- Before the second clock reading. -/
  | ready
  /-- `source.inventory(attempt)`, decided at the reading `now`. -/
  | inventorying (now : Duration) (attempt : Attempt)
  /-- `source.wait(timeout)`, with the deadline computed at the reading `now`. -/
  | waiting (now timeout : Duration)
deriving DecidableEq

/-- What a step of the loop did. The durations are clock readings, in the order
they were taken, except for the timeout of a wait and the time of a change. -/
inductive Entry
  /-- The first reading found nothing to subscribe. -/
  | skipped (now : Duration)
  /-- The first reading started a subscription. -/
  | subscribing (now : Duration)
  | subscribed
  | subscribeFailed (error : Error) (failed : Duration)
  /-- The second reading started an inventory. -/
  | started (now : Duration) (attempt : Attempt)
  /-- The source completed an inventory, and the loop accepted it or failed it. -/
  | completed (inventory : Inventory) (finished : Duration) (failed : Option Duration)
  | ordinary (error : Error) (events : EventBatch) (failed : Duration)
  | lost (error : Error) (events : EventBatch) (failed : Duration)
  /-- The second reading started a wait. -/
  | waiting (now timeout : Duration)
  | deadline
  | linkChanged (time : Duration)
  | waitFailed (error : Error) (failed : Duration)
deriving DecidableEq

/-- The published cell: `Arc<RwLock<Option<Arc<Mib>>>>`. -/
structure Publication (ID : Type) [AgentxId ID] where
  table : Option (Mib ID)

namespace Publication

variable {ID : Type} [AgentxId ID]

/-- `publication`. -/
def initial : Publication ID := ⟨none⟩

/-- `TableReader::snapshot`. -/
def snapshot (publication : Publication ID) : Option (Mib ID) := publication.table

/-- `TablePublisher::publish`. -/
def publish (_ : Publication ID) (mib : Mib ID) : Publication ID := ⟨some mib⟩

/-- `TablePublisher::unavailable`. -/
def unavailable (_ : Publication ID) : Publication ID := ⟨none⟩

end Publication

/-- The loop's own variables, and the cell it publishes through. -/
structure Actor (ID : Type) [AgentxId ID] where
  point : Point
  state : State
  publication : Publication ID

/-- The loop with the source it drives. -/
structure Monitor (σ ID : Type) [AgentxId ID] where
  source : σ
  actor : Actor ID

section

variable {σ ID : Type} [AgentxId ID]

/-- The loop at its start. -/
def Actor.initial (reconcile : Duration) : Actor ID where
  point := .head
  state := .new reconcile
  publication := .initial

namespace Monitor

variable [Acquisition σ]

/-- The top of the loop: is a subscription missing and due? -/
def head (monitor : Monitor σ ID) : Entry × Monitor σ ID :=
  let ⟨source, actor⟩ := monitor
  let (now, source) := Acquisition.now source
  if !actor.state.subscribed && actor.state.retryReady now then
    (.subscribing now, ⟨source, { actor with point := .subscribing now }⟩)
  else (.skipped now, ⟨source, { actor with point := .ready }⟩)

/-- The subscription and its outcome. -/
def subscribe (monitor : Monitor σ ID) : Entry × Monitor σ ID :=
  let ⟨source, actor⟩ := monitor
  match Acquisition.subscribe source with
  | (.ok (), source) =>
      let state := { actor.state with subscribed := true, needsInventory := true }
      (.subscribed, ⟨source, { actor with point := .ready, state }⟩)
  | (.error error, source) =>
      let (failed, source) := Acquisition.now source
      let state := actor.state.fail failed
      (.subscribeFailed error failed, ⟨source, { actor with point := .ready, state }⟩)

/-- The second reading: is an inventory due, or how long may the loop sleep? -/
def ready (monitor : Monitor σ ID) : Entry × Monitor σ ID :=
  let ⟨source, actor⟩ := monitor
  let (now, source) := Acquisition.now source
  if actor.state.subscribed && actor.state.acquisitionReady now then
    let state := actor.state.startAcquisition
    let attempt := { continuity := state.continuity }
    (.started now attempt, ⟨source, { actor with point := .inventorying now attempt, state }⟩)
  else
    let timeout := (actor.state.nextDeadline now).saturatingSub now
    (.waiting now timeout, ⟨source, { actor with point := .waiting now timeout }⟩)

/-- The inventory and its outcome, back to the top of the loop. -/
def inventory (attempt : Attempt) (monitor : Monitor σ ID) : Option (Entry × Monitor σ ID) :=
  let ⟨source, actor⟩ := monitor
  match Acquisition.inventory attempt source with
  | none => none
  | some (.ok inventory, source) =>
      let (finished, source) := Acquisition.now source
      match actor.state.acceptInventory inventory finished with
      | (.ok topology, state) =>
          let publication := actor.publication.publish (Mib.fromTopology topology)
          some (.completed inventory finished none,
            ⟨source, { point := .head, state, publication }⟩)
      | (.error _, state) =>
          let (failed, source) := Acquisition.now source
          some (.completed inventory finished (some failed),
            ⟨source, { actor with point := .head, state := state.fail failed }⟩)
  | some (.error (.ordinary error events), source) =>
      let state := actor.state.retainFailedEvents events
      let (failed, source) := Acquisition.now source
      some (.ordinary error events failed,
        ⟨source, { actor with point := .head, state := state.fail failed }⟩)
  | some (.error (.lost error events), source) =>
      let state := actor.state.retainFailedEvents events
      let (failed, source) := Acquisition.now source
      some (.lost error events failed,
        ⟨source, { point := .head, state := state.loseContinuity failed,
                   publication := actor.publication.unavailable }⟩)

/-- The wait and its outcome, back to the top of the loop. -/
def wait (timeout : Duration) (monitor : Monitor σ ID) : Entry × Monitor σ ID :=
  let ⟨source, actor⟩ := monitor
  match Acquisition.wait timeout source with
  | (.ok .deadline, source) => (.deadline, ⟨source, { actor with point := .head }⟩)
  | (.ok (.linkChanged time), source) =>
      let state := actor.state.recordEvent time
      (.linkChanged time, ⟨source, { actor with point := .head, state }⟩)
  | (.error error, source) =>
      let (failed, source) := Acquisition.now source
      (.waitFailed error failed,
        ⟨source, { point := .head, state := actor.state.loseContinuity failed,
                   publication := actor.publication.unavailable }⟩)

/-- One step of the loop; none when an inventory never returns. -/
def step (monitor : Monitor σ ID) : Option (Entry × Monitor σ ID) :=
  match monitor.actor.point with
  | .head => some monitor.head
  | .subscribing _ => some monitor.subscribe
  | .ready => some monitor.ready
  | .inventorying _ attempt => monitor.inventory attempt
  | .waiting _ timeout => some (monitor.wait timeout)

end Monitor

/-- `monitor::run`: the loop's runs over a source, with their histories. -/
def Run [Acquisition σ] (source : σ) (reconcile : Duration) :
    List Entry → Monitor σ ID → Prop :=
  Trace (· = ⟨source, .initial reconcile⟩) fun monitor entry next =>
    monitor.step = some (entry, next)

end
end IfStack
