import IfStack.Monitor.Consults
import IfStack.Netlink.Loss

/-! # The calls that a step of the monitor makes

A step of the loop over the netlink source, seen from the calls it makes of the world: which
calls its entry tells of, and what becomes of the subscription.
-/

namespace IfStack

open Foundation

section

variable {S : Type}

/-- The calls of a complete dump of links, from its request on, between the sockets of a
subscription and of the dump. -/
def DumpedIn (platform : Platform) (notification : S) (calls : List (Call S))
    (links : List ObservedLink) : Prop :=
  ∃ dump sequence loop, calls = loop ++ dumpCalls platform sequence dump ∧
    (∀ call ∈ loop, call.Between notification dump) ∧
    CompleteDump platform sequence (Calls.dumpAnswers calls) links

/-- An entry that only reads the clock. -/
def Entry.ReadsOnly : Entry → Prop
  | .skipped _ | .subscribing _ | .started .. | .waiting .. => True
  | _ => False

/-- The calls of the world that a step of the loop makes, with the subscription before and
after it. -/
inductive Made (platform : Platform) : Option S → Entry → List (Call S) → Option S → Prop
  | read {notification : Option S} {entry : Entry} (reads : entry.ReadsOnly) (reading : Nat) :
      Made platform notification entry [.elapsed reading] notification
  | subscribed {before : Option S} (socket : S) :
      Made platform before .subscribed [.opened linkMulticastGroup (.ok socket)] (some socket)
  | refused {notification : Option S} {error : Error} {failed : Duration} (reading : Nat) :
      Made platform notification (.subscribeFailed error failed)
        [.elapsed reading, .opened linkMulticastGroup (.error error)] notification
  | completed {socket : S} {calls readings : List (Call S)} {inventory : Inventory}
      {finished : Duration} {failed : Option Duration}
      (dumped : DumpedIn platform socket calls inventory.links)
      (calm : ∀ call ∈ calls, ¬ call.Fault platform)
      (reported : (∃ call ∈ calls, call.BringsChange platform) → inventory.events.first.isSome)
      (read : ∀ call ∈ readings, ∃ reading, call = .elapsed reading) :
      Made platform (some socket) (.completed inventory finished failed) (readings ++ calls)
        (some socket)
  | ordinary {notification : Option S} {calls : List (Call S)} {error : Error}
      {events : EventBatch} {failed : Duration} (calm : ∀ call ∈ calls, ¬ call.Fault platform) :
      Made platform notification (.ordinary error events failed) calls notification
  | lost {before : Option S} {calls : List (Call S)} {error : Error} {events : EventBatch}
      {failed : Duration} : Made platform before (.lost error events failed) calls none
  | deadline {notification : Option S} {calls : List (Call S)}
      (calm : ∀ call ∈ calls, ¬ call.Fault platform)
      (quiet : ∀ call ∈ calls, ¬ call.BringsChange platform) :
      Made platform notification .deadline calls notification
  | linkChanged {notification : Option S} {calls : List (Call S)} {time : Duration}
      (calm : ∀ call ∈ calls, ¬ call.Fault platform) :
      Made platform notification (.linkChanged time) calls notification
  | waitFailed {before : Option S} {calls : List (Call S)} {error : Error} {failed : Duration} :
      Made platform before (.waitFailed error failed) calls none

/-- A source is reached from another by the calls of a step. -/
def NetlinkSource.Makes (before : NetlinkSource S) (entry : Entry) (after : NetlinkSource S) :
    Prop :=
  after.world.platform = before.world.platform ∧
    ∃ calls, after.world.log = calls ++ before.world.log ∧
      Made before.world.platform before.notification entry calls after.notification

/-- A change among the calls is among the arrivals. -/
theorem Calls.Arrivals.ne_nil {platform : Platform} {origin : Nat} {calls : List (Call S)}
    {times : List Duration} (arrivals : Calls.Arrivals platform origin calls times)
    (brings : ∃ call ∈ calls, call.BringsChange platform) : times ≠ [] := by
  induction arrivals with
  | none =>
      obtain ⟨_, member, _⟩ := brings
      exact absurd member List.not_mem_nil
  | change => exact List.append_ne_nil_of_right_ne_nil _ (List.cons_ne_nil _ _)
  | other earlier quiet ih =>
      obtain ⟨call, member, brings⟩ := brings
      rcases List.mem_cons.mp member with rfl | older
      · exact absurd brings quiet
      · exact ih ⟨call, older, brings⟩

namespace NetlinkSource

/-- A completed inventory of a subscribed source has made the calls of a complete dump. -/
theorem inventory_dumped {notification : S} {source after : NetlinkSource S} {attempt : Attempt}
    {inventory : Inventory} (subscribed : source.notification = some notification)
    (result : source.inventory attempt = some (.ok inventory, after)) :
    ∃ calls, after.world = source.world.extend calls ∧ after.notification = some notification ∧
      DumpedIn source.world.platform notification calls inventory.links ∧
      (∀ call ∈ calls, ¬ call.Fault source.world.platform) ∧
      ((∃ call ∈ calls, call.BringsChange source.world.platform) →
        inventory.events.first.isSome) := by
  obtain ⟨_, calls, returned⟩ := inventory_spec result
  obtain ⟨_, complete, ⟨_, _, _, made⟩, clean, kept, _⟩ := returned.concludes
  obtain ⟨times, arrivals, batched⟩ := returned.events
  refine ⟨calls, returned.world, kept.trans subscribed, ?_, ?_, ?_⟩
  · cases returned.asked notification subscribed with
    | unopened | unsent => cases made
    | @requested dump loop between => exact ⟨dump, _, loop, rfl, between, complete⟩
  · exact fun call member => (clean call member).not_fault
  · intro brings
    obtain ⟨first, rest, rfl⟩ := List.exists_cons_of_ne_nil (arrivals.ne_nil brings)
    rw [show inventory.events = _ from batched]
    rfl

/-- A reading of the clock is all that these entries tell of. -/
theorem makes_now (source : NetlinkSource S) {entry : Entry} (reads : entry.ReadsOnly) :
    source.Makes entry source.now.2 :=
  ⟨rfl, [.elapsed _], rfl, .read reads _⟩

/-- A subscription makes its step. -/
theorem makes_subscribed {source after : NetlinkSource S}
    (answer : source.subscribe = (.ok (), after)) : source.Makes .subscribed after := by
  obtain ⟨_, subscribed⟩ := source.subscribe_subscribed
  rw [answer] at subscribed
  cases subscribed
  exact ⟨rfl, [_], rfl, .subscribed _⟩

/-- A refused subscription makes its step, with a reading of the clock behind it. -/
theorem makes_refused {source after : NetlinkSource S} {error : Error}
    (answer : source.subscribe = (.error error, after)) :
    source.Makes (.subscribeFailed error after.now.1) after.now.2 := by
  obtain ⟨_, subscribed⟩ := source.subscribe_subscribed
  rw [answer] at subscribed
  cases subscribed
  exact ⟨rfl, [_, _], rfl, .refused _⟩

/-- A completed inventory is followed by readings of the clock. -/
theorem makes_completed {source after last : NetlinkSource S} {attempt : Attempt}
    {inventory : Inventory} (subscribed : source.notification.isSome)
    (answer : source.inventory attempt = some (.ok inventory, after))
    {finished : Duration} {failed : Option Duration} (readings : List (Call S))
    (read : ∀ call ∈ readings, ∃ reading, call = .elapsed reading)
    (same : last.world.platform = after.world.platform)
    (held : last.notification = after.notification)
    (logged : last.world.log = readings ++ after.world.log) :
    source.Makes (.completed inventory finished failed) last := by
  obtain ⟨socket, subscribed⟩ := Option.isSome_iff_exists.mp subscribed
  obtain ⟨calls, world, kept, dumped, calm, reported⟩ := inventory_dumped subscribed answer
  obtain ⟨platform, log⟩ := World.extend_eq world
  refine ⟨same.trans platform, readings ++ calls, ?_, ?_⟩
  · rw [logged, log, List.append_assoc]
  · rw [held, kept, subscribed]
    exact .completed dumped calm reported read

/-- What the calls of a wait tell: it ran out on a stream without a fault or a change, it
found a change on a stream without a fault, or it dropped the stream. -/
def WaitTells (platform : Platform) (before : Option S) (calls : List (Call S)) :
    Except Error WaitOutcome → Option S → Prop
  | .ok .deadline, after => (∀ call ∈ calls, ¬ call.Fault platform) ∧
      (∀ call ∈ calls, ¬ call.BringsChange platform) ∧ after = before
  | .ok (.linkChanged _), after => (∀ call ∈ calls, ¬ call.Fault platform) ∧ after = before
  | .error _, after => after = none

/-- What a wait returns tells of its calls. -/
theorem Waited.tells {source : NetlinkSource S} {timeout : Duration} {calls : List (Call S)}
    {outcome : Except Error WaitOutcome × NetlinkSource S}
    (waited : Waited source timeout calls outcome) :
    WaitTells source.world.platform source.notification calls outcome.1
      outcome.2.notification := by
  cases waited with
  | slept =>
      exact ⟨List.forall_mem_singleton.mpr id, List.forall_mem_singleton.mpr id, rfl⟩
  | unpolled | broken | unheard => exact rfl
  | @heard socket ready calls time _ sound hears =>
      have calm : ∀ call ∈ calls ++ [.polled socket none timeout (.ok ready)],
          ¬ call.Fault source.world.platform :=
        List.forall_mem_append.mpr ⟨hears.calm, List.forall_mem_singleton.mpr fun fault =>
          Bool.false_ne_true (sound.symm.trans fault)⟩
      cases time with
      | none =>
          exact ⟨calm, List.forall_mem_append.mpr ⟨hears.quiet, List.forall_mem_singleton.mpr id⟩,
            rfl⟩
      | some time => exact ⟨calm, rfl⟩

/-- `wait` extends the log by calls that its outcome tells of. -/
theorem wait_told {source after : NetlinkSource S} {timeout : Duration}
    {outcome : Except Error WaitOutcome} (answer : source.wait timeout = (outcome, after)) :
    ∃ calls, after.world = source.world.extend calls ∧
      WaitTells source.world.platform source.notification calls outcome after.notification := by
  obtain ⟨calls, waited⟩ := source.wait_waited timeout
  rw [answer] at waited
  refine ⟨calls, ?_, waited.tells⟩
  rcases waited.leaves with same | same <;> exact congrArg NetlinkSource.world same

/-- Every step of a loop over the netlink source makes the calls that its entry tells. -/
theorem makes_of_consults {point : Point} {source after : NetlinkSource S} {entry : Entry}
    (running : ∀ now attempt, point = .inventorying now attempt → source.notification.isSome)
    (consults : Consults point source entry after) : source.Makes entry after := by
  cases consults with
  | skipped | subscribing | started | waiting => exact makes_now _ trivial
  | subscribed answer => exact makes_subscribed answer
  | subscribeFailed answer => exact makes_refused answer
  | accepted answer =>
      refine makes_completed (running _ _ rfl) answer [_] ?_ rfl rfl rfl
      exact List.forall_mem_singleton.mpr ⟨_, rfl⟩
  | rejected answer =>
      refine makes_completed (running _ _ rfl) answer [_, _] ?_ rfl rfl rfl
      exact List.forall_mem_cons.mpr ⟨⟨_, rfl⟩, List.forall_mem_singleton.mpr ⟨_, rfl⟩⟩
  | @ordinary _ _ _ middle _ _ answer =>
      obtain ⟨_, calls, returned⟩ := inventory_spec answer
      obtain ⟨calm, kept, _⟩ := returned.concludes
      obtain ⟨platform, log⟩ := World.extend_eq returned.world
      refine ⟨platform, .elapsed _ :: calls, congrArg (_ :: ·) log, ?_⟩
      rw [show (Acquisition.now middle).2.notification = _ from kept]
      exact .ordinary (List.forall_mem_cons.mpr ⟨id, calm⟩)
  | @lost _ _ _ middle _ _ answer =>
      obtain ⟨_, calls, returned⟩ := inventory_spec answer
      obtain ⟨dropped, _⟩ := returned.concludes
      obtain ⟨platform, log⟩ := World.extend_eq returned.world
      refine ⟨platform, .elapsed _ :: calls, congrArg (_ :: ·) log, ?_⟩
      rw [show (Acquisition.now middle).2.notification = _ from dropped]
      exact .lost
  | deadline answer =>
      obtain ⟨calls, world, calm, quiet, kept⟩ := wait_told answer
      obtain ⟨platform, log⟩ := World.extend_eq world
      exact ⟨platform, calls, log, kept ▸ .deadline calm quiet⟩
  | linkChanged answer =>
      obtain ⟨calls, world, calm, kept⟩ := wait_told answer
      obtain ⟨platform, log⟩ := World.extend_eq world
      exact ⟨platform, calls, log, kept ▸ .linkChanged calm⟩
  | @waitFailed _ _ _ middle _ answer =>
      obtain ⟨calls, world, told⟩ := wait_told answer
      obtain ⟨platform, log⟩ := World.extend_eq world
      refine ⟨platform, .elapsed _ :: calls, congrArg (_ :: ·) log, ?_⟩
      rw [show (Acquisition.now middle).2.notification = _ from told]
      exact .waitFailed

end NetlinkSource

/-- A loop that runs an inventory holds a subscription. -/
theorem Run.subscribed_of_inventorying {ID : Type} [AgentxId ID] {world : World S}
    {reconcile : Duration} {history : List Entry} {monitor : Monitor (NetlinkSource S) ID}
    (run : Run (NetlinkSource.withIo world) reconcile history monitor) {now : Duration}
    {attempt : Attempt} (running : monitor.actor.point = .inventorying now attempt) :
    ∃ socket, monitor.source.notification = some socket := by
  apply Option.isSome_iff_exists.mp
  rw [← run.subscribed_eq]
  exact run.schedule.subscribed_of_inventorying running

end
end IfStack
