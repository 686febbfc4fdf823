import IfStack.Monitor.Deadline
import IfStack.Netlink.Complete

/-! # Losses and the subscription

The source classifies every failure: a fault of the notification stream loses it
and drops its socket, anything else keeps both. The monitor keeps the same fact as
a flag. In every run the flag and the socket agree, so no inventory and no wait
ever misses a socket it relies on.
-/

namespace IfStack

open Foundation

/-- An inventory that lost the notification stream. -/
def Lost : Except AcquisitionError Inventory → Prop
  | .error (.lost ..) => True
  | _ => False

/-- An inventory that failed and kept the notification stream. -/
def FailedOrdinarily : Except AcquisitionError Inventory → Prop
  | .error (.ordinary ..) => True
  | _ => False

/-- What an entry makes of the subscription. -/
def Entry.subscription (before : Bool) : Entry → Bool
  | .subscribed => true
  | .lost .. | .waitFailed .. => false
  | _ => before

section

variable {S : Type}

/-- The calls classify an inventory: it is lost exactly on a fault of the stream, it
fails ordinarily exactly on any other failure, and it drops the socket exactly when
it is lost. Its calls are those of a request, and then between the sockets of the
subscription and of the dump. -/
structure InventoryClassified (source : NetlinkSource S) (deadline : Nat) (calls : List (Call S))
    (result : Except AcquisitionError Inventory) (after : NetlinkSource S) : Prop where
  log : after.world.log = calls ++ source.world.log
  begun : EndsBy deadline calls
  asked : ∀ notification, source.notification = some notification →
    Calls.Asked source.world.platform source.nextSequence.1 notification calls
  lost : Lost result ↔ ∃ call ∈ calls, call.Fault source.world.platform
  ordinary : FailedOrdinarily result ↔
    (∀ call ∈ calls, ¬ call.Fault source.world.platform) ∧
      ¬ ((∀ call ∈ calls, call.Clean source.world.platform deadline) ∧
        ∃ links, CompleteDump source.world.platform source.nextSequence.1
          (Calls.dumpAnswers calls) links)
  dropped : Lost result → after.notification = none
  kept : ¬ Lost result → after.notification = source.notification

/-- The calls classify a wait: it fails exactly on a fault of the stream, and it
drops the socket exactly when it fails. -/
structure WaitClassified (source : NetlinkSource S) (calls : List (Call S))
    (result : Except Error WaitOutcome) (after : NetlinkSource S) : Prop where
  log : after.world.log = calls ++ source.world.log
  failed : (∃ error, result = .error error) ↔ ∃ call ∈ calls, call.Fault source.world.platform
  dropped : (∃ error, result = .error error) → after.notification = none
  kept : (¬ ∃ error, result = .error error) → after.notification = source.notification

/-- A wait that fails on a fault and drops the socket is classified. -/
theorem WaitClassified.of_fault {source : NetlinkSource S} {calls : List (Call S)}
    (fault : ∃ call ∈ calls, call.Fault source.world.platform) (error : Error) :
    WaitClassified source calls (.error error) (source.extend calls).dropped where
  log := rfl
  failed := ⟨fun _ => fault, fun _ => ⟨error, rfl⟩⟩
  dropped _ := rfl
  kept sound := absurd ⟨error, rfl⟩ sound

/-- A wait that succeeds without a fault and keeps the socket is classified. -/
theorem WaitClassified.of_calm {source : NetlinkSource S} {calls : List (Call S)}
    (calm : ∀ call ∈ calls, ¬ call.Fault source.world.platform) (outcome : WaitOutcome) :
    WaitClassified source calls (.ok outcome) (source.extend calls) where
  log := rfl
  failed := by
    constructor
    · rintro ⟨_, failed⟩
      cases failed
    · rintro ⟨call, member, fault⟩
      exact absurd fault (calm call member)
  dropped := by
    rintro ⟨_, failed⟩
    cases failed
  kept _ := rfl

namespace NetlinkSource

/-- A subscribed source classifies its inventories. -/
theorem inventory_classified {source after : NetlinkSource S} {attempt : Attempt}
    {result : Except AcquisitionError Inventory} (subscribed : source.notification.isSome)
    (returns : source.inventory attempt = some (result, after)) :
    ∃ deadline calls, InventoryClassified source deadline calls result after := by
  obtain ⟨deadline, calls, returned⟩ := inventory_spec returns
  refine ⟨deadline, calls, ?_⟩
  have concludes := returned.concludes
  match result with
  | .ok inventory =>
      obtain ⟨_, complete, _, clean, kept, _⟩ := concludes
      have calm (call : Call S) (member : call ∈ calls) : ¬ call.Fault source.world.platform :=
        (clean call member).not_fault
      exact {
        log := congrArg World.log returned.world
        begun := returned.begun
        asked := returned.asked
        lost := ⟨False.elim, fun ⟨call, member, fault⟩ => calm call member fault⟩
        ordinary := ⟨False.elim, fun failed => failed.2 ⟨clean, _, complete⟩⟩
        dropped := False.elim
        kept := fun _ => kept }
  | .error (.ordinary ..) =>
      obtain ⟨calm, kept, incomplete⟩ := concludes
      have failed : ¬ ((∀ call ∈ calls, call.Clean source.world.platform deadline) ∧
          ∃ links, CompleteDump source.world.platform source.nextSequence.1
            (Calls.dumpAnswers calls) links) :=
        fun ⟨clean, links, complete⟩ => (incomplete clean links).2 complete
      exact {
        log := congrArg World.log returned.world
        begun := returned.begun
        asked := returned.asked
        lost := ⟨False.elim, fun ⟨call, member, fault⟩ => calm call member fault⟩
        ordinary := ⟨fun _ => ⟨calm, failed⟩, fun _ => trivial⟩
        dropped := False.elim
        kept := fun _ => kept }
  | .error (.lost ..) =>
      obtain ⟨dropped, faulty⟩ := concludes
      obtain ⟨call, member, fault⟩ := faulty subscribed
      exact {
        log := congrArg World.log returned.world
        begun := returned.begun
        asked := returned.asked
        lost := ⟨fun _ => ⟨call, member, fault⟩, fun _ => trivial⟩
        ordinary := ⟨False.elim, fun calm => calm.1 call member fault⟩
        dropped := fun _ => dropped
        kept := fun found => absurd trivial found }

/-- While an inventory of a subscribed source runs, the source stays subscribed, up
to its poll and after it. -/
theorem inventory_subscribed {source : NetlinkSource S} {attempt : Attempt}
    {request : DumpRequest S} {state next : DumpState S} {count : Nat}
    (subscribed : source.notification.isSome)
    (begins : beginDump attempt source = .ok (request, state))
    (passed : Loop.passes (dumpPass request) count state = .ok next) :
    next.source.notification.isSome ∧
      ∀ ready polled, pollDump request next = .ok (ready, polled) →
        polled.source.notification.isSome := by
  obtain ⟨_, _, begun⟩ := beginDump_begun attempt source
  rw [begins] at begun
  obtain ⟨_, numbered, running⟩ := begun.running
  have reached := @passes_running S source request state _ request.attempt rfl numbered running
    count
  rw [passed] at reached
  obtain ⟨calls, running⟩ := reached
  have present : next.source.notification.isSome := running.subscription ▸ subscribed
  refine ⟨present, fun ready polled poll => ?_⟩
  rcases pollDump_cases request next with ⟨_, _, left, _⟩ | ⟨_, _, _, _, _, _, _, _, goes⟩
  · cases poll.symm.trans left
  · cases poll.symm.trans goes
    exact present

/-- Without a subscription a wait only sleeps. -/
theorem wait_unsubscribed {source : NetlinkSource S} (missing : source.notification = none)
    (timeout : Duration) :
    source.wait timeout = (.ok .deadline, { source with world := source.world.sleep timeout }) := by
  obtain ⟨world, notification, origin, sequence⟩ := source
  subst missing
  rfl

/-- A source classifies its waits. -/
theorem wait_classified (source : NetlinkSource S) (timeout : Duration) :
    ∃ calls, WaitClassified source calls (source.wait timeout).1 (source.wait timeout).2 := by
  obtain ⟨calls, waited⟩ := source.wait_waited timeout
  generalize source.wait timeout = returned at waited
  refine ⟨calls, ?_⟩
  cases waited with
  | slept => exact .of_calm (List.forall_mem_singleton.mpr id) _
  | unpolled =>
      refine .of_fault ⟨_, List.mem_cons_self, ?_⟩ _
      exact trivial
  | broken _ failed =>
      refine .of_fault ⟨_, List.mem_cons_self, ?_⟩ _
      exact failed
  | unheard _ _ receipt =>
      obtain ⟨call, rfl, fault, _⟩ := receipt.fault
      exact .of_fault ⟨call, List.mem_cons_self, fault⟩ _
  | heard _ sound hears =>
      refine .of_calm (List.forall_mem_append.mpr ⟨hears.calm, ?_⟩) _
      exact List.forall_mem_singleton.mpr fun fault => Bool.false_ne_true (sound.symm.trans fault)

end NetlinkSource

variable {ID : Type} [AgentxId ID]

/-- The flag follows the entries. -/
theorem Turn.subscription {before next : Actor ID} {entry : Entry}
    (turn : Turn before entry next) :
    next.state.subscribed = entry.subscription before.state.subscribed := by
  cases turn with
  | accepted | rejected | ordinary => exact State.recordAll_subscribed _ _
  | _ => rfl

namespace Monitor

variable {source : NetlinkSource S} {state : State} {publication : Publication ID} {entry : Entry}
  {next : Monitor (NetlinkSource S) ID}

private theorem subscription_of_head
    (moved : head ⟨source, ⟨.head, state, publication⟩⟩ = (entry, next)) :
    next.source.notification.isSome = entry.subscription source.notification.isSome := by
  unfold head at moved
  by_cases due : (!state.subscribed && state.retryReady (Acquisition.now source).1) = true
  · simp only [due, ↓reduceIte] at moved
    cases moved
    rfl
  · simp only [due, Bool.false_eq_true, ↓reduceIte] at moved
    cases moved
    rfl

private theorem subscription_of_subscribe {now : Duration}
    (moved : subscribe ⟨source, ⟨.subscribing now, state, publication⟩⟩ = (entry, next)) :
    next.source.notification.isSome = entry.subscription source.notification.isSome := by
  unfold subscribe at moved
  obtain ⟨_, subscribed⟩ := source.subscribe_subscribed
  cases answer : Acquisition.subscribe source with
  | mk outcome after =>
      rw [show source.subscribe = _ from answer] at subscribed
      cases subscribed with
      | refused =>
          simp only [answer] at moved
          cases moved
          rfl
      | opened =>
          simp only [answer] at moved
          cases moved
          rfl

private theorem subscription_of_ready
    (moved : ready ⟨source, ⟨.ready, state, publication⟩⟩ = (entry, next)) :
    next.source.notification.isSome = entry.subscription source.notification.isSome := by
  unfold ready at moved
  by_cases due : (state.subscribed && state.acquisitionReady (Acquisition.now source).1) = true
  · simp only [due, ↓reduceIte] at moved
    cases moved
    rfl
  · simp only [due, Bool.false_eq_true, ↓reduceIte] at moved
    cases moved
    rfl

private theorem subscription_of_inventory {now : Duration} {attempt : Attempt}
    (subscribed : source.notification.isSome)
    (moved : inventory attempt ⟨source, ⟨.inventorying now attempt, state, publication⟩⟩ =
      some (entry, next)) :
    next.source.notification.isSome = entry.subscription source.notification.isSome := by
  unfold inventory at moved
  cases answer : Acquisition.inventory attempt source with
  | none =>
      simp only [answer] at moved
      cases moved
  | some returned =>
      obtain ⟨result, after⟩ := returned
      obtain ⟨_, _, classified⟩ := NetlinkSource.inventory_classified subscribed answer
      match result with
      | .error (.lost error events) =>
          simp only [answer] at moved
          cases moved
          exact congrArg Option.isSome (classified.dropped trivial)
      | .error (.ordinary error events) =>
          simp only [answer] at moved
          cases moved
          exact congrArg Option.isSome (classified.kept id)
      | .ok completed =>
          simp only [answer] at moved
          -- accepted or not, the stream goes on
          split at moved
          · cases moved
            exact congrArg Option.isSome (classified.kept id)
          · cases moved
            exact congrArg Option.isSome (classified.kept id)

private theorem subscription_of_wait {now timeout : Duration}
    (moved : wait timeout ⟨source, ⟨.waiting now timeout, state, publication⟩⟩ = (entry, next)) :
    next.source.notification.isSome = entry.subscription source.notification.isSome := by
  unfold wait at moved
  obtain ⟨_, classified⟩ := source.wait_classified timeout
  cases answer : Acquisition.wait timeout source with
  | mk outcome after =>
      rw [show source.wait timeout = (outcome, after) from answer] at classified
      match outcome with
      | .ok .deadline =>
          simp only [answer] at moved
          cases moved
          exact congrArg Option.isSome (classified.kept (by rintro ⟨_, ⟨⟩⟩))
      | .ok (.linkChanged time) =>
          simp only [answer] at moved
          cases moved
          exact congrArg Option.isSome (classified.kept (by rintro ⟨_, ⟨⟩⟩))
      | .error error =>
          simp only [answer] at moved
          cases moved
          exact congrArg Option.isSome (classified.dropped ⟨error, rfl⟩)

/-- The socket follows the same entries, as long as inventories run subscribed. -/
theorem subscription {monitor : Monitor (NetlinkSource S) ID}
    (running : ∀ now attempt, monitor.actor.point = .inventorying now attempt →
      monitor.source.notification.isSome)
    (moved : monitor.step = some (entry, next)) :
    next.source.notification.isSome =
      entry.subscription monitor.source.notification.isSome := by
  obtain ⟨source, ⟨point, state, publication⟩⟩ := monitor
  cases point with
  | head => exact subscription_of_head (Option.some.inj moved)
  | subscribing now => exact subscription_of_subscribe (Option.some.inj moved)
  | ready => exact subscription_of_ready (Option.some.inj moved)
  | inventorying now attempt => exact subscription_of_inventory (running now attempt rfl) moved
  | waiting now timeout => exact subscription_of_wait (Option.some.inj moved)

end Monitor

/-- Inventories run subscribed. -/
theorem Schedule.subscribed_of_inventorying {reconcile : Duration} {history : List Entry}
    {actor : Actor ID} (schedule : Schedule reconcile history actor) {now : Duration}
    {attempt : Attempt} (inventorying : actor.point = .inventorying now attempt) :
    actor.state.subscribed = true := by
  cases schedule with
  | start begins =>
      subst begins
      cases inventorying
  | turn _ turn =>
      cases turn with
      | started present _ => exact present
      | _ => cases inventorying

/-- The flag agrees with the socket wherever the loop stands. -/
theorem Run.subscribed_eq {world : World S} {reconcile : Duration} {history : List Entry}
    {monitor : Monitor (NetlinkSource S) ID}
    (run : Run (NetlinkSource.withIo world) reconcile history monitor) :
    monitor.actor.state.subscribed = monitor.source.notification.isSome := by
  refine Trace.invariant
    (fun _ (monitor : Monitor (NetlinkSource S) ID) =>
      monitor.actor.state.subscribed = monitor.source.notification.isSome)
    (by rintro _ rfl; rfl) ?_ run
  intro history monitor entry next earlier agrees moved
  have running (now : Duration) (attempt : Attempt)
      (inventorying : monitor.actor.point = .inventorying now attempt) :
      monitor.source.notification.isSome := by
    rw [← agrees]
    exact (Run.schedule earlier).subscribed_of_inventorying inventorying
  rw [(Monitor.turn_of_step moved).subscription, Monitor.subscription running moved, agrees]

/-- A wait of an unsubscribed loop lasts until the subscription is retried. -/
theorem Schedule.unsubscribed_waiting {reconcile : Duration} {history : List Entry}
    {actor : Actor ID} (schedule : Schedule reconcile history actor) {now timeout : Duration}
    (waiting : actor.point = .waiting now timeout) (missing : actor.state.subscribed = false) :
    ∃ deadline, actor.state.retryNotBefore = some deadline ∧
      timeout = deadline.saturatingSub now := by
  have settled := schedule.settled
  unfold Actor.Settled at settled
  rw [waiting] at settled
  obtain ⟨deadline, retry⟩ := Option.isSome_iff_exists.mp (settled.2 missing)
  refine ⟨deadline, retry, ?_⟩
  rw [(schedule.waiting waiting).1]
  unfold State.nextDeadline
  rw [retry]
  rcases le_total deadline now with early | late
  · change (max deadline now).saturatingSub now = _
    rw [max_eq_right early]
    apply Duration.ext
    have order := Duration.le_def.mp early
    change now.nanos - now.nanos = deadline.nanos - now.nanos
    omega
  · change (max deadline now).saturatingSub now = _
    rw [max_eq_left late]

/-- **Continuity.** In every run the flag agrees with the socket. So an inventory
runs on its socket throughout, and its calls classify its outcome; a wait is
classified by its calls, and without a socket it only sleeps until the subscription
is retried. -/
theorem Run.loss_classified {world : World S} {reconcile : Duration} {history : List Entry}
    {monitor : Monitor (NetlinkSource S) ID}
    (run : Run (NetlinkSource.withIo world) reconcile history monitor) :
    (monitor.actor.state.subscribed = true ↔ monitor.source.notification.isSome) ∧
    (∀ now attempt, monitor.actor.point = .inventorying now attempt →
      (∀ request state, NetlinkSource.beginDump attempt monitor.source = .ok (request, state) →
        ∀ count next, Loop.passes (NetlinkSource.dumpPass request) count state = .ok next →
          next.source.notification.isSome ∧
            ∀ ready polled, NetlinkSource.pollDump request next = .ok (ready, polled) →
              polled.source.notification.isSome) ∧
      ∀ result after, monitor.source.inventory attempt = some (result, after) →
        ∃ deadline calls, InventoryClassified monitor.source deadline calls result after) ∧
    ∀ now timeout, monitor.actor.point = .waiting now timeout →
      (∃ calls, WaitClassified monitor.source calls (monitor.source.wait timeout).1
        (monitor.source.wait timeout).2) ∧
      (monitor.source.notification = none →
        monitor.source.wait timeout = (.ok .deadline,
          { monitor.source with world := monitor.source.world.sleep timeout }) ∧
        monitor.actor.state.subscribed = false ∧
        ∃ deadline, monitor.actor.state.retryNotBefore = some deadline ∧
          timeout = deadline.saturatingSub now) := by
  have agrees := run.subscribed_eq
  refine ⟨by rw [agrees], fun now attempt inventorying => ?_, fun now timeout waiting => ?_⟩
  · have subscribed : monitor.source.notification.isSome := by
      rw [← agrees]
      exact (Run.schedule run).subscribed_of_inventorying inventorying
    constructor
    · intro request state begins count next passed
      exact NetlinkSource.inventory_subscribed subscribed begins passed
    · intro result after returns
      exact NetlinkSource.inventory_classified subscribed returns
  · refine ⟨monitor.source.wait_classified timeout, fun none => ?_⟩
    have missing : monitor.actor.state.subscribed = false := by rw [agrees, none]; rfl
    exact ⟨NetlinkSource.wait_unsubscribed none timeout, missing,
      (Run.schedule run).unsubscribed_waiting waiting missing⟩

/-! ## A run -/

/-- The topology that the links of the bonded world form. -/
def bondedTopology : Topology := ⟨{2, 3}, {⟨3, 2⟩}⟩

namespace Monitor

/-- The monitor of the bonded world before its inventory. -/
def bonded : Monitor (NetlinkSource Nat) PlainId where
  source := .bonded
  actor := {
    point := .inventorying (durationSince 3000000 0) ⟨0⟩
    state := { State.new (.fromSecs 300) with
      subscribed := true
      needsInventory := false }
    publication := .initial }

/-- The monitor of the bonded world after its inventory. -/
def bondedServed : Monitor (NetlinkSource Nat) PlainId where
  source := NetlinkSource.bondedAfter.extend [.elapsed 17000000]
  actor := {
    point := .head
    state := { State.new (.fromSecs 300) with
      subscribed := true
      needsInventory := false
      eventDeadline := some (durationSince 1010000000 0)
      lastEvent := NetlinkSource.bondedEvents.last
      lastSuccess := some (durationSince 17000000 0) }
    publication := ⟨some (.fromTopology bondedTopology)⟩ }

/-- What the monitor has done before its inventory. -/
def bondedBegun : List Entry :=
  [.started (durationSince 3000000 0) ⟨0⟩, .subscribed, .subscribing (durationSince 1000000 0)]

/-- The inventory, as it is completed. -/
def bondedCompleted : Entry :=
  .completed ⟨⟨0⟩, bondedLinks, NetlinkSource.bondedEvents⟩ (durationSince 17000000 0) none

/-- The monitor accepts the inventory of the bonded world, with the changes that it has told. -/
theorem bonded_step : bonded.step = some (bondedCompleted, bondedServed) := by
  have accepted : bonded.actor.state.acceptInventory
      ⟨⟨0⟩, bondedLinks, NetlinkSource.bondedEvents⟩ (durationSince 17000000 0) =
        (.ok bondedTopology, bondedServed.actor.state) := by
    decide +kernel
  have ran : Acquisition.inventory ⟨0⟩ NetlinkSource.bonded = some _ :=
    NetlinkSource.bonded_inventory
  have read : Acquisition.now NetlinkSource.bondedAfter =
      (durationSince 17000000 0, bondedServed.source) := rfl
  change bonded.inventory ⟨0⟩ = _
  unfold inventory
  simp only [bonded] at accepted ⊢
  simp only [ran, read, accepted]
  rfl

end Monitor

/-- The monitor over the bonded world, up to its wait. -/
theorem Run.bonded : Run (NetlinkSource.withIo .bonded) (.fromSecs 300) Monitor.bondedBegun
    Monitor.bonded :=
  .turn (.turn (.turn (.start rfl) rfl) rfl) rfl

/-- The same run, with the table published. -/
theorem Run.bondedServed : Run (NetlinkSource.withIo .bonded) (.fromSecs 300)
    (Monitor.bondedCompleted :: Monitor.bondedBegun) Monitor.bondedServed :=
  .turn Run.bonded Monitor.bonded_step

/-- The first inventory of the bonded world keeps the stream, and the wait after it loses it. -/
theorem Run.loss_classified_bonded :
    (∃ deadline calls after, InventoryClassified .bonded deadline calls
      (.ok ⟨⟨0⟩, bondedLinks, NetlinkSource.bondedEvents⟩) after ∧
        after.notification = some 2) ∧
    ∃ history, ∃ monitor : Monitor (NetlinkSource Nat) PlainId,
      ∃ now timeout, ∃ calls : List (Call Nat),
        Run (NetlinkSource.withIo .bonded) (.fromSecs 300) history monitor ∧
        monitor.actor.point = .waiting now timeout ∧
          monitor.source.notification = some 2 ∧
            (monitor.source.wait timeout).2.notification = none ∧
              ∃ call ∈ calls, call.Fault monitor.source.world.platform := by
  constructor
  · have classified := ((Run.loss_classified Run.bonded).2.1 _ _ rfl).2 _ _
      NetlinkSource.bonded_inventory
    obtain ⟨deadline, calls, classified⟩ := classified
    exact ⟨deadline, calls, _, classified, classified.kept id⟩
  · have run := Trace.turn (Trace.turn Run.bondedServed rfl) rfl
    obtain ⟨calls, classified⟩ := ((Run.loss_classified run).2.2 _ _ rfl).1
    exact ⟨_, _, _, _, calls, run, rfl, rfl, classified.dropped ⟨_, rfl⟩,
      classified.failed.mp ⟨_, rfl⟩⟩

end
end IfStack
