import IfStack.Monitor.Changes
import IfStack.Netlink.Steps

/-! # Where a published table comes from

A run of the monitor over the netlink source, against the calls it made. The table in
the cell is that of a complete dump, requested over a socket of its own after the
subscription whose stream has been intact ever since. And if the stream has reported
a change since that request, another inventory is scheduled.
-/

namespace IfStack

open Foundation

section

variable {S ID : Type} [AgentxId ID]

/-- The stream of a socket is intact: no call since the subscription that opened it was a
fault. -/
def Intact (platform : Platform) (socket : S) (log : List (Call S)) : Prop :=
  ∃ since before, log = since ++ .opened linkMulticastGroup (.ok socket) :: before ∧
    ∀ call ∈ since, ¬ call.Fault platform

/-- The calls of a world hold the dump of a topology: it was made over an intact stream, and
neither it nor anything after it was a fault. The recent calls are those since its request. -/
structure Dumped (platform : Platform) (socket : S) (log : List (Call S)) (topology : Topology)
    (recent : List (Call S)) : Prop where
  intact : ∃ older, log = recent ++ older ∧ Intact platform socket older
  calm : ∀ call ∈ recent, ¬ call.Fault platform
  dump : ∃ later calls links, recent = later ++ calls ∧ DumpedIn platform socket calls links ∧
    Topology.fromObserved links = .ok topology

section

variable {platform : Platform} {socket : S} {log calls recent : List (Call S)}
  {before after : Option S} {topology : Topology}

/-- Calls without a fault leave a subscription intact. -/
theorem Intact.later (intact : Intact platform socket log)
    (calm : ∀ call ∈ calls, ¬ call.Fault platform) : Intact platform socket (calls ++ log) := by
  obtain ⟨since, older, rfl, quiet⟩ := intact
  exact ⟨calls ++ since, older, (List.append_assoc _ _ _).symm,
    List.forall_mem_append.mpr ⟨calm, quiet⟩⟩

/-- Calls without a fault leave a dump the recent one. -/
theorem Dumped.later (dumped : Dumped platform socket log topology recent)
    (calm : ∀ call ∈ calls, ¬ call.Fault platform) :
    Dumped platform socket (calls ++ log) topology (calls ++ recent) where
  intact := by
    obtain ⟨older, rfl, intact⟩ := dumped.intact
    exact ⟨older, (List.append_assoc _ _ _).symm, intact⟩
  calm := List.forall_mem_append.mpr ⟨calm, dumped.calm⟩
  dump := by
    obtain ⟨later, dump, links, rfl, made, formed⟩ := dumped.dump
    exact ⟨calls ++ later, dump, links, (List.append_assoc _ _ _).symm, made, formed⟩

/-- A step that leaves a subscription has kept it without a fault, or made it. -/
theorem Made.kept {entry : Entry} (made : Made platform before entry calls after)
    (subscribed : after = some socket) :
    before = some socket ∧ (∀ call ∈ calls, ¬ call.Fault platform) ∨
      entry = .subscribed ∧ calls = [.opened linkMulticastGroup (.ok socket)] := by
  cases made with
  | read => exact .inl ⟨subscribed, List.forall_mem_singleton.mpr id⟩
  | subscribed =>
      cases subscribed
      exact .inr ⟨rfl, rfl⟩
  | refused =>
      exact .inl ⟨subscribed, List.forall_mem_cons.mpr ⟨id, List.forall_mem_singleton.mpr id⟩⟩
  | completed _ calm _ read =>
      refine .inl ⟨subscribed, List.forall_mem_append.mpr ⟨fun call member => ?_, calm⟩⟩
      obtain ⟨_, rfl⟩ := read call member
      exact id
  | ordinary calm | deadline calm | linkChanged calm => exact .inl ⟨subscribed, calm⟩
  | lost | waitFailed => cases subscribed

/-- A step that reads the clock, or waits in vain, brings no change. -/
theorem Made.quiet {entry : Entry} (made : Made platform before entry calls after)
    (idle : entry.ReadsOnly ∨ entry = .deadline) :
    ∀ call ∈ calls, ¬ call.BringsChange platform := by
  cases made with
  | read => exact List.forall_mem_singleton.mpr id
  | deadline _ quiet => exact quiet
  | _ => rcases idle with reads | same <;> contradiction

/-- A step that neither subscribes nor loses continuity keeps the subscription. -/
theorem Made.same {entry : Entry} (made : Made platform before entry calls after)
    (other : entry ≠ .subscribed) (kept : entry.isLoss = false) : after = before := by
  cases made with
  | subscribed => exact (other rfl).elim
  | lost | waitFailed => cases kept
  | _ => rfl

/-- Every step leaves the stream of its subscription intact. -/
theorem Made.intact {entry : Entry} (made : Made platform before entry calls after)
    (intact : ∀ socket, before = some socket → Intact platform socket log) :
    ∀ socket, after = some socket → Intact platform socket (calls ++ log) := by
  intro socket subscribed
  rcases made.kept subscribed with ⟨same, calm⟩ | ⟨_, rfl⟩
  · exact (intact socket same).later calm
  · exact ⟨[], log, rfl, fun _ member => absurd member List.not_mem_nil⟩

end

/-- Another inventory is scheduled: it is wanted, or due at the deadline of a change. -/
def State.pending (state : State) : Bool := state.needsInventory || state.eventDeadline.isSome

/-- What the cell and the schedule rest on: the stream of the subscription is intact, a
served table is that of a dump made over it, and a change reported since the request of that
dump is still to be served. -/
structure Monitor.Grounded (monitor : Monitor (NetlinkSource S) ID) : Prop where
  intact : ∀ socket, monitor.source.notification = some socket →
    Intact monitor.source.world.platform socket monitor.source.world.log
  served : ∀ table, monitor.actor.publication.snapshot = some table →
    ∃ socket topology recent, monitor.source.notification = some socket ∧
      table = .fromTopology topology ∧
      Dumped monitor.source.world.platform socket monitor.source.world.log topology recent ∧
      ((∀ now attempt, monitor.actor.point ≠ .inventorying now attempt) →
        (∃ call ∈ recent, call.BringsChange monitor.source.world.platform) →
          monitor.actor.state.pending = true)

/-- A loop that subscribes is not subscribed. -/
theorem Schedule.unsubscribed {reconcile : Duration} {history : List Entry} {actor : Actor ID}
    (schedule : Schedule reconcile history actor) {now : Duration}
    (subscribing : actor.point = .subscribing now) : actor.state.subscribed = false := by
  cases schedule with
  | start begins =>
      subst begins
      cases subscribing
  | turn _ turn =>
      cases turn with
      | subscribing missing => exact missing
      | _ => cases subscribing

namespace Monitor.Grounded

variable {monitor next : Monitor (NetlinkSource S) ID} {entry : Entry}

/-- A step that leaves the cell and the subscription alone leaves what a served table rests
on, if a change that it reports is pending after it. -/
theorem served_later (grounded : monitor.Grounded)
    (makes : monitor.source.Makes entry next.source) (other : entry ≠ .subscribed)
    (kept : entry.isLoss = false) (cell : next.actor.publication = monitor.actor.publication)
    (pending : ∀ calls, Made monitor.source.world.platform monitor.source.notification entry calls
        next.source.notification →
      (∀ now attempt, next.actor.point ≠ .inventorying now attempt) →
      next.actor.state.pending = true ∨
        (∀ call ∈ calls, ¬ call.BringsChange monitor.source.world.platform) ∧
          (∀ now attempt, monitor.actor.point ≠ .inventorying now attempt) ∧
          next.actor.state.pending = monitor.actor.state.pending) :
    ∀ table, next.actor.publication.snapshot = some table →
      ∃ socket topology recent, next.source.notification = some socket ∧
        table = .fromTopology topology ∧
        Dumped next.source.world.platform socket next.source.world.log topology recent ∧
        ((∀ now attempt, next.actor.point ≠ .inventorying now attempt) →
          (∃ call ∈ recent, call.BringsChange next.source.world.platform) →
            next.actor.state.pending = true) := by
  intro table shown
  rw [cell] at shown
  obtain ⟨platform, calls, log, made⟩ := makes
  obtain ⟨socket, topology, recent, subscribed, rfl, dumped, waiting⟩ :=
    grounded.served table shown
  have held := (made.same other kept).trans subscribed
  rcases made.kept held with ⟨_, calm⟩ | ⟨subscribing, _⟩
  · refine ⟨socket, topology, calls ++ recent, held, rfl, ?_, fun idle brings => ?_⟩
    · rw [platform, log]
      exact dumped.later calm
    · rw [platform] at brings
      rcases pending calls made idle with due | ⟨quiet, before, same⟩
      · exact due
      · obtain ⟨call, member, brings⟩ := brings
        rcases List.mem_append.mp member with new | old
        · exact absurd brings (quiet call new)
        · exact same.trans (waiting before ⟨call, old, brings⟩)
  · exact absurd subscribing other

/-- The table of an accepted inventory rests on the dump that the inventory made. -/
theorem served_accepted (grounded : monitor.Grounded)
    {inventory : Inventory} {finished : Duration} {topology : Topology}
    (makes : monitor.source.Makes (.completed inventory finished none) next.source)
    (taken : inventory.topologyIn monitor.actor.state.continuity = some topology)
    (cell : next.actor.publication.snapshot = some (.fromTopology topology))
    (state : next.actor.state = (monitor.actor.state.recordAll
      (inventory.changesIn monitor.actor.state.continuity)).succeed finished) :
    ∀ table, next.actor.publication.snapshot = some table →
      ∃ socket topology recent, next.source.notification = some socket ∧
        table = .fromTopology topology ∧
        Dumped next.source.world.platform socket next.source.world.log topology recent ∧
        ((∀ now attempt, next.actor.point ≠ .inventorying now attempt) →
          (∃ call ∈ recent, call.BringsChange next.source.world.platform) →
            next.actor.state.pending = true) := by
  intro table shown
  cases cell.symm.trans shown
  obtain ⟨platform, calls, log, made⟩ := makes
  obtain ⟨current, valid, formed⟩ := Inventory.topologyIn_eq_some.mp taken
  generalize held : monitor.source.notification = before at made
  generalize kept : next.source.notification = after at made
  cases made with
  | read reads => cases reads
  | @completed socket calls readings _ _ _ dumped calm reported read =>
      have quiet : ∀ call ∈ readings ++ calls, ¬ call.Fault monitor.source.world.platform := by
        refine List.forall_mem_append.mpr ⟨fun call member => ?_, calm⟩
        obtain ⟨_, rfl⟩ := read call member
        exact id
      refine ⟨socket, topology, readings ++ calls, rfl, rfl, ?_, fun _ brings => ?_⟩
      · rw [platform, log]
        exact ⟨⟨_, rfl, grounded.intact socket held⟩, quiet,
          readings, calls, _, rfl, dumped, formed⟩
      · rw [platform] at brings
        obtain ⟨call, member, brings⟩ := brings
        have first : inventory.events.first.isSome := by
          rcases List.mem_append.mp member with reading | made
          · obtain ⟨_, rfl⟩ := read call reading
            exact brings.elim
          · exact reported ⟨call, made, brings⟩
        have changed : inventory.changesIn monitor.actor.state.continuity ≠ [] := by
          obtain ⟨time, opens⟩ := Option.isSome_iff_exists.mp first
          simp [Inventory.changesIn, current, EventBatch.changes, valid, opens]
        have due : (monitor.actor.state.recordAll
            (inventory.changesIn monitor.actor.state.continuity)).eventDeadline.isSome :=
          State.recordAll_eventDeadline_isSome changed
        rw [State.pending, state]
        exact (Bool.or_eq_true _ _).mpr (.inr due)

end Monitor.Grounded

/-- Every step of a run keeps the loop grounded. -/
theorem Run.grounded {world : World S} {reconcile : Duration} {history : List Entry}
    {monitor : Monitor (NetlinkSource S) ID}
    (run : Run (NetlinkSource.withIo world) reconcile history monitor) : monitor.Grounded := by
  refine Trace.invariant (fun _ (monitor : Monitor (NetlinkSource S) ID) => monitor.Grounded)
    ?_ ?_ run
  · rintro _ rfl
    exact ⟨fun _ subscribed => (nomatch subscribed), fun _ shown => (nomatch shown)⟩
  · intro history monitor entry next earlier grounded moved
    have agrees := Run.subscribed_eq earlier
    have makes := NetlinkSource.makes_of_consults (fun _ _ inventorying =>
      Option.isSome_iff_exists.mpr (Run.subscribed_of_inventorying earlier inventorying))
      (Monitor.consults_of_step moved)
    have turn := Monitor.turn_of_step moved
    refine ⟨?_, ?_⟩
    · obtain ⟨platform, calls, log, made⟩ := makes
      rw [platform, log]
      exact made.intact grounded.intact
    · have schedule := Run.schedule earlier
      obtain ⟨source, actor⟩ := monitor
      obtain ⟨after, actor'⟩ := next
      cases turn with
      | skip | subscribing | waiting =>
          exact grounded.served_later makes nofun rfl rfl fun calls made _ =>
            .inr ⟨made.quiet (.inl trivial), nofun, rfl⟩
      | subscribed =>
          intro table shown
          obtain ⟨socket, _, _, subscribed, _⟩ := grounded.served table shown
          rw [subscribed, schedule.unsubscribed rfl] at agrees
          cases agrees
      | started =>
          exact grounded.served_later makes nofun rfl rfl fun _ _ idle => (idle _ _ rfl).elim
      | accepted taken => exact grounded.served_accepted makes taken rfl rfl
      | subscribeFailed | rejected | ordinary =>
          exact grounded.served_later makes nofun rfl rfl fun _ _ _ => .inl rfl
      | lost | waitFailed => exact fun _ shown => nomatch shown
      | deadline =>
          exact grounded.served_later makes nofun rfl rfl fun calls made _ =>
            .inr ⟨made.quiet (.inr rfl), nofun, rfl⟩
      | linkChanged =>
          exact grounded.served_later makes nofun rfl rfl fun _ _ _ =>
            .inl ((Bool.or_eq_true _ _).mpr (.inr rfl))

/-- **Provenance.** A served table is that of the links that the kernel reported in one
complete dump. The dump was requested after the subscription that the source still holds, on
whose stream no call since has been a fault; and if the stream has reported a change since
the request, another inventory is wanted or due, or runs. -/
theorem Run.served_dumped {world : World S} {reconcile : Duration} {history : List Entry}
    {monitor : Monitor (NetlinkSource S) ID}
    (run : Run (NetlinkSource.withIo world) reconcile history monitor) {table : Mib ID}
    (served : monitor.actor.publication.snapshot = some table) :
    ∃ socket later calls since before links topology,
      monitor.source.notification = some socket ∧
      monitor.source.world.log =
        later ++ calls ++ since ++ .opened linkMulticastGroup (.ok socket) :: before ∧
      (∀ call ∈ later ++ calls ++ since, ¬ call.Fault monitor.source.world.platform) ∧
      DumpedIn monitor.source.world.platform socket calls links ∧
      Topology.fromObserved links = .ok topology ∧ table = .fromTopology topology ∧
      ((∃ call ∈ later ++ calls, call.BringsChange monitor.source.world.platform) →
        (∃ now attempt, monitor.actor.point = .inventorying now attempt) ∨
          monitor.actor.state.needsInventory = true ∨
            monitor.actor.state.eventDeadline.isSome) := by
  obtain ⟨socket, topology, recent, subscribed, made, dumped, pending⟩ :=
    run.grounded.served table served
  obtain ⟨older, log, since, before, rfl, quiet⟩ := dumped.intact
  obtain ⟨later, calls, links, rfl, dump, formed⟩ := dumped.dump
  refine ⟨socket, later, calls, since, before, links, topology, subscribed, ?_, ?_, dump, formed,
    made, fun brings => ?_⟩
  · rw [log]
    exact (List.append_assoc _ _ _).symm
  · exact List.forall_mem_append.mpr ⟨dumped.calm, quiet⟩
  · by_cases running : ∃ now attempt, monitor.actor.point = .inventorying now attempt
    · exact .inl running
    · have due := pending (fun now attempt here => running ⟨now, attempt, here⟩) brings
      exact .inr ((Bool.or_eq_true _ _).mp due)

/-- The table of the bonded world, with the port below its bond, is that of a dump. -/
theorem Run.served_dumped_bonded :
    ∃ history, ∃ monitor : Monitor (NetlinkSource Nat) PlainId,
      Run (NetlinkSource.withIo .bonded) (.fromSecs 300) history monitor ∧
      ∃ socket calls links topology, monitor.source.notification = some socket ∧
        DumpedIn monitor.source.world.platform socket calls links ∧
        Topology.fromObserved links = .ok topology ∧
        Mib.fromTopology bondedTopology = (.fromTopology topology : Mib PlainId) := by
  obtain ⟨socket, _, calls, _, _, links, topology, subscribed, _, _, dumped, formed, same, _⟩ :=
    Run.served_dumped Run.bondedServed rfl
  exact ⟨_, _, Run.bondedServed, socket, calls, links, topology, subscribed, dumped, formed, same⟩

end
end IfStack
