import IfStack.Monitor.Progress
import IfStack.Netlink.Steps

/-! # An inventory ends

An inventory fixes its deadline at the first reading of the clock. Every poll is given what is
left until then, and the first reading at the deadline or after it is the last call. So on a
clock that goes on for ever every inventory returns, and the monitor never hangs.
-/

namespace IfStack

open Foundation

section

variable {S : Type}

/-- The calls of an inventory before its deadline, over the sockets of a subscription and of
the dump. -/
inductive Calls.Within (notification dump : S) (deadline : Nat) : List (Call S) → Prop
  | begun {reading : Nat} {bytes : List UInt8}
      (fixed : deadline = reading + inventoryTimeout.nanos) :
      Within notification dump deadline
        [.instant reading, .sent dump bytes (.ok ()), .opened 0 (.ok dump)]
  | polled {older : List (Call S)} {reading : Nat} {answer : Except Error Ready}
      (earlier : Within notification dump deadline older) (early : reading < deadline) :
      Within notification dump deadline
        (.polled notification (some dump) (durationSince deadline reading) answer ::
          .instant reading :: older)
  | received {older : List (Call S)} {call : Call S}
      (earlier : Within notification dump deadline older)
      (receives : call.Receives notification dump) :
      Within notification dump deadline (call :: older)

/-- Receiving more stays within the deadline. -/
theorem Calls.Within.append {notification dump : S} {deadline : Nat} {calls older : List (Call S)}
    (earlier : Calls.Within notification dump deadline older)
    (receives : ∀ call ∈ calls, call.Receives notification dump) :
    Calls.Within notification dump deadline (calls ++ older) := by
  induction calls with
  | nil => exact earlier
  | cons call calls ih =>
      obtain ⟨first, rest⟩ := List.forall_mem_cons.mp receives
      exact .received (ih rest) first

/-- How an inventory that has begun its dump ends: before its deadline, or with the first
reading at it or after it. -/
inductive Calls.Ends (notification dump : S) (deadline : Nat) :
    List (Call S) → Except AcquisitionError Inventory → Prop
  | within {calls : List (Call S)} {outcome : Except AcquisitionError Inventory}
      (bounded : Within notification dump deadline calls) :
      Ends notification dump deadline calls outcome
  | expired {calls : List (Call S)} {reading : Nat} {events : EventBatch}
      (bounded : Within notification dump deadline calls) (passed : deadline ≤ reading) :
      Ends notification dump deadline (.instant reading :: calls)
        (NetlinkSource.timedOut events)

/-- The clock of a behaviour passes every instant, whatever calls are made. -/
def Behaviour.Advances (behaviour : Behaviour S) : Prop :=
  ∀ bound, ∃ count, ∀ log : List (Call S), count ≤ log.length → bound ≤ behaviour.clock log

/-- Every call of the bonded world takes time. -/
theorem World.bonded_advances : World.bonded.behaviour.Advances := by
  have counts (log : List (Call Nat)) : log.length ≤ Calls.elapsedNanos log := by
    induction log with
    | nil => exact le_rfl
    | cons call log ih =>
        cases call <;> simp only [Calls.elapsedNanos, List.length_cons] <;> omega
  exact fun bound => ⟨bound, fun log long => long.trans (counts log)⟩

namespace NetlinkSource

variable {notification : S} {start source after : NetlinkSource S} {request : DumpRequest S}

/-- How an inventory fails before its dump begins. -/
inductive Refused : List (Call S) → Except AcquisitionError Inventory → Prop
  | opened {error : Error} :
      Refused [.opened 0 (.error error)] (.error (.ordinary error ⟨none, none⟩))
  | sent {dump : S} {bytes : List UInt8} {error : Error} :
      Refused [.sent dump bytes (.error error), .opened 0 (.ok dump)]
        (.error (.ordinary error ⟨none, none⟩))

/-- A poll before the deadline is one of an inventory within it. -/
theorem Polled.within {polled older : List (Call S)} {answer : Except Error Ready}
    (polls : Polled request notification polled answer)
    (earlier : Calls.Within notification request.socket request.deadline older) :
    Calls.Within notification request.socket request.deadline (polled ++ older) := by
  cases polls with
  | early early => exact .polled earlier early

/-- The calls of a delivery are made within the deadline. -/
theorem within_of_delivery {calls : List (Call S)} {events : EventBatch}
    (delivery : DumpDelivery start request calls events)
    (subscribed : start.notification = some notification) :
    Calls.Within notification request.socket request.deadline calls := by
  induction delivery with
  | begun fixed => exact .begun fixed
  | pass _ same polls _ _ hears takes ih =>
      cases same.symm.trans subscribed
      rw [List.append_assoc, List.append_assoc]
      exact ((polls.within ih).append (hears.receives _)).append (takes.receives _)

/-- A pass that leaves the loop ends the inventory, within the deadline or at it. -/
theorem Passing.ends {state : DumpState S} {calls older : List (Call S)} {returned : Returned S}
    (passing : Passing request state calls (.error returned))
    (subscribed : state.source.notification = some notification)
    (within : Calls.Within notification request.socket request.deadline older) :
    Calls.Ends notification request.socket request.deadline (calls ++ older) returned.1 := by
  cases passing with
  | expired passed => exact .expired within passed
  | absent _ missing => cases missing.symm.trans subscribed
  | unpolled same polls | broken same polls | cut same polls =>
      cases same.symm.trans subscribed
      exact .within (polls.within within)
  | unheard same polls _ _ receipt =>
      cases same.symm.trans subscribed
      obtain ⟨call, rfl, _, receives⟩ := receipt.fault
      exact .within (.received (polls.within within) (receives _))
  | heard same polls _ _ hears taking =>
      cases same.symm.trans subscribed
      rw [List.append_assoc, List.append_assoc]
      exact .within (((polls.within within).append (hears.receives _)).append (taking.receives _))

/-- What an inventory has done when it returns. -/
theorem inventory_within {attempt : Attempt} {outcome : Except AcquisitionError Inventory}
    (subscribed : source.notification = some notification)
    (result : source.inventory attempt = some (outcome, after)) :
    ∃ calls, after.world = source.world.extend calls ∧
      (Refused calls outcome ∨
        ∃ dump deadline, Calls.Ends notification dump deadline calls outcome) := by
  obtain ⟨calls, course⟩ := inventory_course result
  obtain ⟨_, returned⟩ := course.returns
  refine ⟨calls, returned.world, ?_⟩
  cases course with
  | failed begun =>
      cases begun with
      | unopened => exact .inl .opened
      | unsent made => exact .inl (made ▸ .sent)
  | left running _ _ passing =>
      have within := within_of_delivery running.delivery subscribed
      exact .inr ⟨_, _, passing.ends (running.subscription.trans subscribed) within⟩

/-- A pass that goes on has made a call, and found the clock before the deadline. -/
theorem Passing.goes {state next : DumpState S} {calls : List (Call S)}
    (passing : Passing request state calls (.ok next))
    (answers : state.source.world.Answers calls) :
    calls ≠ [] ∧ state.source.world.behaviour.clock state.source.world.log < request.deadline := by
  cases passing with
  | heard _ polls _ _ _ _ =>
      have first := (World.answers_append.mp (World.answers_append.mp answers).1).1
      cases polls with
      | early early =>
          obtain ⟨_, clock, _⟩ := first
          refine ⟨?_, ?_⟩
          · exact List.append_ne_nil_of_right_ne_nil _
              (List.append_ne_nil_of_right_ne_nil _ (List.cons_ne_nil _ _))
          · exact (show state.source.world.behaviour.clock _ = _ from clock).trans_lt early

/-- On a clock that advances every inventory returns. -/
theorem inventory_isSome (advances : source.world.behaviour.Advances) (attempt : Attempt) :
    (source.inventory attempt).isSome := by
  obtain ⟨_, _, begun⟩ := beginDump_begun attempt source
  unfold inventory
  cases first : beginDump attempt source with
  | error early => rfl
  | ok begins =>
      obtain ⟨request, state⟩ := begins
      rw [first] at begun
      obtain ⟨_, _, running⟩ := begun.running
      obtain ⟨limit, passes⟩ := advances request.deadline
      refine Loop.run_isSome (fun state => ∃ calls, DumpRunning source request state calls)
        (fun state => state.source.world.log.length) limit ?_ ?_ ⟨_, running⟩
      · rintro state next ⟨_, running⟩ moved
        obtain ⟨calls, answers, passing⟩ := dumpPass_passing request state
        rw [moved] at passing
        refine ⟨⟨_, running.pass passing⟩, ?_⟩
        have grown : next.source.world.log = calls ++ state.source.world.log := by
          rcases passing.leaves with same | same <;>
            exact congrArg (fun source => World.log (NetlinkSource.world source)) same
        have made := List.length_pos_iff.mpr (passing.goes answers).1
        rw [grown, List.length_append]
        omega
      · rintro state ⟨_, running⟩ long
        obtain ⟨_, answers, passing⟩ := dumpPass_passing request state
        cases moved : dumpPass request state with
        | error left => exact ⟨left, rfl⟩
        | ok next =>
            rw [moved] at passing
            have late := passes state.source.world.log long
            have early := (passing.goes answers).2
            rw [running.source] at early late
            exact absurd early (not_lt.mpr late)

/-- **An inventory ends.** Every poll of an inventory is given exactly what is left of the
three seconds after its first reading of the clock, and the first reading at their end or
after it is its last call, after which it answers that it has timed out. On a clock that
advances, it returns, whatever the kernel answers. -/
theorem inventory_ends (source : NetlinkSource S) {notification : S} (attempt : Attempt)
    (subscribed : source.notification = some notification) :
    (∀ outcome after, source.inventory attempt = some (outcome, after) →
      ∃ calls, after.world = source.world.extend calls ∧
        (Refused calls outcome ∨
          ∃ dump deadline, Calls.Ends notification dump deadline calls outcome)) ∧
    (source.world.behaviour.Advances → (source.inventory attempt).isSome) :=
  ⟨fun _ _ => inventory_within subscribed,
    fun advances => inventory_isSome advances attempt⟩

/-- The inventory of the bonded world returns, within its deadline or at it. -/
theorem inventory_ends_bonded : (bonded.inventory ⟨0⟩).isSome ∧
    ∃ calls, bondedAfter.world = bonded.world.extend calls ∧
      ∃ dump deadline, Calls.Ends 2 dump deadline calls (.ok ⟨⟨0⟩, bondedLinks, bondedEvents⟩) := by
  have ends := inventory_ends bonded ⟨0⟩ rfl
  refine ⟨ends.2 World.bonded_advances, ?_⟩
  obtain ⟨calls, world, refused | ends⟩ := ends.1 _ _ bonded_inventory
  · cases refused
  · exact ⟨calls, world, ends⟩

/-- An inventory leaves the behaviour of the world alone. -/
theorem inventory_behaviour {attempt : Attempt} {outcome : Except AcquisitionError Inventory}
    (result : source.inventory attempt = some (outcome, after)) :
    after.world.behaviour = source.world.behaviour := by
  obtain ⟨_, _, returned⟩ := inventory_spec result
  rw [show after.world = _ from returned.world]
  rfl

/-- Subscribing leaves how the world answers. -/
theorem subscribe_behaviour (source : NetlinkSource S) :
    source.subscribe.2.world.behaviour = source.world.behaviour := by
  obtain ⟨_, subscribed⟩ := source.subscribe_subscribed
  generalize source.subscribe = returned at subscribed
  cases subscribed <;> rfl

/-- Waiting leaves how the world answers. -/
theorem wait_behaviour (source : NetlinkSource S) (timeout : Duration) :
    (source.wait timeout).2.world.behaviour = source.world.behaviour := by
  obtain ⟨_, waited⟩ := source.wait_waited timeout
  rcases waited.leaves with after | after <;> rw [after] <;> rfl

end NetlinkSource

variable {ID : Type} [AgentxId ID] {world : World S} {reconcile : Duration}
  {history : List Entry} {monitor : Monitor (NetlinkSource S) ID}

/-- A run leaves the behaviour of the world alone. -/
theorem Run.behaviour_eq (run : Run (NetlinkSource.withIo world) reconcile history monitor) :
    monitor.source.world.behaviour = world.behaviour := by
  refine Trace.invariant (fun _ (monitor : Monitor (NetlinkSource S) ID) =>
    monitor.source.world.behaviour = world.behaviour) (by rintro _ rfl; rfl) ?_ run
  intro history monitor entry next earlier same moved
  refine Consults.keeps (fun source => source.world.behaviour = world.behaviour)
    (fun _ same => same) (fun source same => source.subscribe_behaviour.trans same) ?_
    (fun timeout source same => (source.wait_behaviour timeout).trans same)
    (Monitor.consults_of_step moved) same
  exact fun _ _ _ _ _ result => (NetlinkSource.inventory_behaviour result).trans same

/-- **The monitor never hangs.** On a clock that advances, a run over the netlink source goes
on from wherever it stands, for any number of steps, whatever the kernel answers. -/
theorem Run.proceeds (advances : world.behaviour.Advances)
    (run : Run (NetlinkSource.withIo world) reconcile history monitor) (count : Nat) :
    ∃ newer next, monitor.Onward newer next ∧ newer.length = count := by
  induction count with
  | zero => exact ⟨[], monitor, .start rfl, rfl⟩
  | succ count ih =>
      obtain ⟨newer, middle, onward, length⟩ := ih
      have whole : Run (NetlinkSource.withIo world) reconcile (newer ++ history) middle :=
        run.append onward
      obtain ⟨entry, next, moved⟩ := @Monitor.exists_step _ _ _ _ middle fun _ attempt _ =>
        NetlinkSource.inventory_isSome (whole.behaviour_eq ▸ advances) attempt
      exact ⟨entry :: newer, next, .turn onward moved, congrArg Nat.succ length⟩

/-- From its first inventory on, the monitor of the bonded world goes on through losses and
subscriptions. -/
theorem Run.proceeds_bonded :
    ∃ newer, ∃ next : Monitor (NetlinkSource Nat) PlainId,
      (∃ now, Monitor.bonded.actor.point = .inventorying now ⟨0⟩) ∧
        Monitor.bonded.Onward newer next ∧ newer.length = 1000 := by
  obtain ⟨newer, next, onward, length⟩ := Run.bonded.proceeds World.bonded_advances 1000
  exact ⟨newer, next, ⟨_, rfl⟩, onward, length⟩

end
end IfStack
