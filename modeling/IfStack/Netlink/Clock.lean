import IfStack.Monitor.Consults
import IfStack.Monitor.RateLimit
import IfStack.Netlink.Batch
import Mathlib.Data.List.Flatten

/-! # The times of a run are readings of one clock

The loop over the netlink source takes its readings, and the times of the link changes that
it is told, from one clock. On one that never runs backwards its history is ordered, whatever
else the kernel answers.
-/

namespace IfStack

open Foundation

/-- The times of a step, newest first: of the link changes that it brings, and its readings. -/
def Entry.times : Entry → List Duration
  | .completed inventory finished failed =>
      failed.toList ++ finished :: inventory.events.changes.reverse
  | .ordinary _ events failed | .lost _ events failed => failed :: events.changes.reverse
  | .linkChanged time => [time]
  | entry => entry.readings

namespace History

/-- The times of a history, newest first. -/
def times (history : List Entry) : List Duration := history.flatMap Entry.times

/-- The readings of an entry are among its times, in their order. -/
theorem readings_sublist_times (entry : Entry) : entry.readings.Sublist entry.times := by
  cases entry with
  | completed inventory finished failed =>
      refine (List.Sublist.refl _).append ?_
      exact (List.nil_sublist _).cons_cons finished
  | ordinary | lost => exact (List.nil_sublist _).cons_cons _
  | linkChanged => exact List.nil_sublist _
  | _ => exact List.Sublist.refl _

/-- The changes that a step delivers are among its times. -/
theorem changes_subset_times {older : List Entry} {entry : Entry} {time : Duration}
    (delivered : time ∈ changes older entry) : time ∈ entry.times := by
  cases entry with
  | completed inventory finished failed =>
      simp only [changes, Inventory.changesIn] at delivered
      split at delivered
      · exact List.mem_append_right _ (List.mem_cons_of_mem _ (List.mem_reverse.mpr delivered))
      · exact absurd delivered List.not_mem_nil
  | ordinary | lost => exact List.mem_cons_of_mem _ (List.mem_reverse.mpr delivered)
  | linkChanged => exact delivered
  | _ => exact absurd delivered List.not_mem_nil

/-- A history whose times come in order is ordered. -/
theorem Ordered.of_times {history : List Entry}
    (sorted : (times history).Pairwise fun newer older => older ≤ newer) : Ordered history := by
  refine ⟨sorted.sublist (List.Sublist.flatMap_right history fun entry _ =>
    readings_sublist_times entry), ?_⟩
  induction history with
  | nil => trivial
  | cons entry older ih =>
      obtain ⟨_, rest, after⟩ := List.pairwise_append.mp sorted
      refine ⟨fun time delivered start latest => ?_, ih rest⟩
      refine after time (changes_subset_times delivered) start ?_
      have read := starts_subset_readings (List.mem_of_mem_head? latest)
      obtain ⟨other, member, taken⟩ := List.mem_flatMap.mp read
      exact List.mem_flatMap.mpr ⟨other, member, (readings_sublist_times other).subset taken⟩

end History

section

variable {S : Type}

/-- The readings of the clock among some calls, as a source with an origin tells them. -/
def Calls.clock (origin : Nat) (calls : List (Call S)) : List Duration :=
  (Calls.readings calls).map fun reading => durationSince reading origin

/-- The readings of calls, in two parts. -/
theorem Calls.clock_append (origin : Nat) (newer older : List (Call S)) :
    Calls.clock origin (newer ++ older) = Calls.clock origin newer ++ Calls.clock origin older := by
  simp only [Calls.clock, Calls.readings, List.filterMap_append, List.map_append]

/-- Readings of a clock that does not go back are ordered. -/
theorem Calls.Nondecreasing.clock {calls : List (Call S)} (monotone : Calls.Nondecreasing calls)
    (origin : Nat) : (Calls.clock origin calls).Pairwise fun newer older => older ≤ newer := by
  rw [Calls.clock, List.pairwise_map]
  exact monotone.imp (durationSince_mono origin)

/-- The arrivals, latest first, are readings in the order in which they were taken. -/
theorem Calls.Arrivals.sublist {platform : Platform} {origin : Nat} {calls : List (Call S)}
    {times : List Duration} (arrivals : Calls.Arrivals platform origin calls times) :
    times.reverse.Sublist (Calls.clock origin calls) := by
  induction arrivals with
  | none => exact List.nil_sublist _
  | @change older times socket datagram reading earlier brings ih =>
      rw [List.reverse_append]
      exact ih.cons_cons _
  | @other older times call earlier quiet ih =>
      rw [← List.singleton_append, Calls.clock_append]
      exact ih.trans (List.sublist_append_right _ _)

/-- The changes of a batch are some of the arrivals that it sums up. -/
theorem Calls.batch_changes_sublist (times : List Duration) :
    (Calls.batch times).changes.Sublist times := by
  unfold EventBatch.changes
  split
  · cases times with
    | nil => exact List.nil_sublist _
    | cons first rest =>
        refine List.Sublist.cons_cons first ?_
        split
        · exact List.nil_sublist _
        · rename_i apart
          cases rest with
          | nil => exact (apart rfl).elim
          | cons second rest =>
              obtain ⟨last, ends⟩ : ∃ last, (second :: rest).getLast? = some last :=
                ⟨_, List.getLast?_eq_some_getLast (List.cons_ne_nil _ _)⟩
              change (Option.toList (second :: rest).getLast?).Sublist _
              rw [ends]
              exact List.singleton_sublist.mpr (List.mem_of_getLast? ends)
  · exact List.nil_sublist _

/-- A source is reached from another by calls whose readings, newest first, include some
times in their order. -/
def NetlinkSource.Reads (before : NetlinkSource S) (times : List Duration)
    (after : NetlinkSource S) : Prop :=
  after.origin = before.origin ∧ ∃ calls, after.world.log = calls ++ before.world.log ∧
    times.Sublist (Calls.clock before.origin calls)

namespace NetlinkSource

variable {before middle after : NetlinkSource S}

/-- The readings of two steps in turn. -/
theorem Reads.trans {first second : List Duration} (reads : before.Reads first middle)
    (reads' : middle.Reads second after) : before.Reads (second ++ first) after := by
  obtain ⟨same, calls, log, sub⟩ := reads
  obtain ⟨same', calls', log', sub'⟩ := reads'
  refine ⟨same'.trans same, calls' ++ calls, ?_, ?_⟩
  · rw [log', log, List.append_assoc]
  · rw [Calls.clock_append]
    rw [same] at sub'
    exact sub'.append sub

/-- A reading of the clock. -/
theorem reads_now (source : NetlinkSource S) : source.Reads [source.now.1] source.now.2 :=
  ⟨rfl, [.elapsed _], rfl, List.Sublist.refl _⟩

/-- Subscribing does not read the clock. -/
theorem reads_subscribe (source : NetlinkSource S) : source.Reads [] source.subscribe.2 := by
  obtain ⟨_, subscribed⟩ := source.subscribe_subscribed
  generalize source.subscribe = returned at subscribed
  cases subscribed <;> exact ⟨rfl, _, rfl, List.nil_sublist _⟩

/-- An inventory reads the times of its batch. -/
theorem reads_inventory {source after : NetlinkSource S} {attempt : Attempt}
    {outcome : Except AcquisitionError Inventory}
    (result : source.inventory attempt = some (outcome, after)) :
    source.Reads (returnedEvents outcome).changes.reverse after := by
  obtain ⟨_, calls, returned⟩ := inventory_spec result
  obtain ⟨times, arrivals, batched⟩ := returned.events
  refine ⟨returned.origin, calls, congrArg World.log returned.world, ?_⟩
  rw [show returnedEvents outcome = _ from batched]
  exact (Calls.batch_changes_sublist times).reverse.trans arrivals.sublist

/-- What is heard is read off the clock. -/
theorem Heard.reads {platform : Platform} {origin : Nat} {socket : S} {some : Bool}
    {calls : List (Call S)} {time : Option Duration}
    (hears : Heard platform origin socket some calls time) :
    time.toList.Sublist (Calls.clock origin calls) := by
  cases hears with
  | nothing | silent => exact List.nil_sublist _
  | changed => exact List.Sublist.refl _

/-- The time that a wait tells. -/
def waitTimes : Except Error WaitOutcome → List Duration
  | .ok (.linkChanged time) => [time]
  | .ok .deadline | .error _ => []

/-- A wait reads the time that it tells. -/
theorem reads_wait (source : NetlinkSource S) (timeout : Duration) :
    source.Reads (waitTimes (source.wait timeout).1) (source.wait timeout).2 := by
  obtain ⟨calls, waited⟩ := source.wait_waited timeout
  generalize source.wait timeout = returned at waited
  cases waited with
  | slept | unpolled | broken | unheard => exact ⟨rfl, _, rfl, List.nil_sublist _⟩
  | @heard _ _ _ time _ _ hears =>
      have told : waitTimes (.ok (NetlinkSource.told time)) = time.toList := by cases time <;> rfl
      refine ⟨rfl, _, rfl, ?_⟩
      rw [told, Calls.clock_append]
      exact hears.reads.trans (List.sublist_append_left _ _)

/-- Every step of a loop over the netlink source reads its times. -/
theorem reads_of_consults {point : Point} {source after : NetlinkSource S} {entry : Entry}
    (consults : Consults point source entry after) : source.Reads entry.times after := by
  cases consults with
  | skipped | subscribing | started | waiting => exact reads_now _
  | subscribed answer =>
      have opened := source.reads_subscribe
      rwa [show source.subscribe = _ from answer] at opened
  | subscribeFailed answer =>
      have opened := source.reads_subscribe
      rw [show source.subscribe = _ from answer] at opened
      exact opened.trans (reads_now _)
  | accepted answer => exact (reads_inventory answer).trans (reads_now _)
  | rejected answer => exact ((reads_inventory answer).trans (reads_now _)).trans (reads_now _)
  | ordinary answer | lost answer => exact (reads_inventory answer).trans (reads_now _)
  | @deadline _ timeout _ _ answer | @linkChanged _ timeout _ _ _ answer =>
      have told := source.reads_wait timeout
      rwa [show source.wait timeout = _ from answer] at told
  | @waitFailed _ timeout _ _ _ answer =>
      have told := source.reads_wait timeout
      rw [show source.wait timeout = _ from answer] at told
      exact told.trans (reads_now _)

end NetlinkSource

variable {ID : Type} [AgentxId ID]

/-- The times of a run are readings of its clock, in the order in which they were taken. -/
theorem Run.times_sublist {world : World S} {reconcile : Duration} {history : List Entry}
    {monitor : Monitor (NetlinkSource S) ID}
    (run : Run (NetlinkSource.withIo world) reconcile history monitor) :
    (History.times history).Sublist
      (Calls.clock monitor.source.origin monitor.source.world.log) := by
  refine Trace.invariant (fun history (monitor : Monitor (NetlinkSource S) ID) =>
    (History.times history).Sublist
      (Calls.clock monitor.source.origin monitor.source.world.log))
    (fun _ _ => List.nil_sublist _) ?_ run
  intro history monitor entry next _ sub moved
  obtain ⟨same, calls, log, read⟩ :=
    NetlinkSource.reads_of_consults (Monitor.consults_of_step moved)
  rw [same, log, Calls.clock_append]
  exact read.append sub

/-- On a clock that never runs backwards, every history is ordered. -/
theorem Run.ordered {world : World S} {reconcile : Duration} {history : List Entry}
    {monitor : Monitor (NetlinkSource S) ID}
    (run : Run (NetlinkSource.withIo world) reconcile history monitor)
    (monotone : Calls.Nondecreasing monitor.source.world.log) : History.Ordered history :=
  .of_times ((monotone.clock _).sublist run.times_sublist)

end
end IfStack
