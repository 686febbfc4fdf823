import IfStack.Foundation.Loop
import IfStack.Monitor.Run
import IfStack.Netlink.World

/-! # The netlink acquisition source

`NetlinkSource` of `netlink.rs`: subscription, one complete dump of the links with
the notifications that arrive meanwhile, and the wait for the next one. The body
of the dump loop is cut into its poll, its notification half and its dump half;
leaving the body is returning from `inventory`.
-/

namespace IfStack

open Foundation

/-- `LINK_MULTICAST_GROUP`. -/
def linkMulticastGroup : UInt32 := 1

/-- `INVENTORY_TIMEOUT`. -/
def inventoryTimeout : Duration := .fromSecs 3

/-- `NetlinkSource`. -/
structure NetlinkSource (S : Type) where
  world : World S
  notification : Option S
  origin : Nat
  sequence : UInt32

/-- What an inventory keeps from its start on: the dump socket, the sequence number
of the request, the deadline and the attempt. -/
structure DumpRequest (S : Type) where
  socket : S
  sequence : UInt32
  deadline : Nat
  attempt : Attempt

/-- The variables of the dump loop. -/
structure DumpState (S : Type) where
  source : NetlinkSource S
  links : List ObservedLink
  total : Nat
  events : EventBatch

/-- What `inventory` returns, with the source it leaves. -/
abbrev Returned (S : Type) := Except AcquisitionError Inventory × NetlinkSource S

/-- Record a change in a batch: `first.get_or_insert(at)` and `last = Some(at)`. -/
def EventBatch.note (events : EventBatch) : Option Duration → EventBatch
  | none => events
  | some time => ⟨some (events.first.getD time), some time⟩

namespace NetlinkSource

variable {S : Type}

/-- `NetlinkSource::with_io`. -/
def withIo (world : World S) : NetlinkSource S :=
  let (origin, world) := world.instant
  ⟨world, none, origin, 0⟩

/-- `now`. -/
def now (source : NetlinkSource S) : Duration × NetlinkSource S :=
  let (reading, world) := source.world.elapsed
  (durationSince reading source.origin, { source with world })

/-- `NetlinkSource::receive_notification`. -/
def receiveNotification (source : NetlinkSource S) :
    Except Error (Option Duration) × NetlinkSource S :=
  match source.notification with
  | none => (.error (.other "link notifications are not subscribed"), source)
  | some notification =>
      let (answer, world) := source.world.receive .notification notification
      let source := { source with world }
      match answer with
      | .error error => (.error error, source)
      | .ok datagram =>
          match notifyDatagram source.world.platform datagram with
          | .error error => (.error error, source)
          | .ok false => (.ok none, source)
          | .ok true =>
              let (time, source) := source.now
              (.ok (some time), source)

/-- `NetlinkSource::next_sequence`. -/
def nextSequence (source : NetlinkSource S) : UInt32 × NetlinkSource S :=
  let sequence := source.sequence + 1
  let sequence := if sequence = 0 then 1 else sequence
  (sequence, { source with sequence })

/-- `subscribe`. -/
def subscribe (source : NetlinkSource S) : Except Error Unit × NetlinkSource S :=
  match source.world.openSocket linkMulticastGroup with
  | (.error error, world) => (.error error, { source with world })
  | (.ok socket, world) => (.ok (), { source with world, notification := some socket })

/-- The head of the dump loop: the deadline, and the poll of both sockets. -/
def pollDump (request : DumpRequest S) (state : DumpState S) :
    Except (Returned S) (Ready × DumpState S) :=
  let (reading, world) := state.source.world.instant
  let source := { state.source with world }
  let remaining := durationSince request.deadline reading
  if remaining = .zero then
    .error (.error (.ordinary
      ⟨.timedOut, [.text "interface inventory exceeded its deadline"]⟩ state.events), source)
  else
    match source.notification with
    | none => .error (.error (.lost (.other "notification socket absent") state.events), source)
    | some notification =>
        let (answer, world) := source.world.wait notification (some request.socket) remaining
        let source := { source with world }
        match answer with
        | .error error =>
            .error (.error (.lost error state.events), { source with notification := none })
        | .ok ready =>
            if ready.notificationFailed then
              .error (.error (.lost (.other "link notification socket failed") state.events),
                { source with notification := none })
            else if ready.dumpFailed then
              .error (.error (.ordinary (.other "interface inventory socket failed")
                state.events), source)
            else .ok (ready, { state with source })

/-- The notification half of the dump loop. -/
def takeNotification (state : DumpState S) : Except (Returned S) (DumpState S) :=
  match state.source.receiveNotification with
  | (.error error, source) =>
      .error (.error (.lost error state.events), { source with notification := none })
  | (.ok time, source) => .ok { state with source, events := state.events.note time }

/-- The dump half of the dump loop. -/
def takeDump (request : DumpRequest S) (state : DumpState S) :
    Except (Returned S) (DumpState S) :=
  let (answer, world) := state.source.world.receive .dump request.socket
  let source := { state.source with world }
  match answer with
  | .error error => .error (.error (.ordinary error state.events), source)
  | .ok datagram =>
      match dumpDatagram source.world.platform request.sequence state.links state.total
        datagram with
      | .error error => .error (.error (.ordinary error state.events), source)
      | .ok (true, links, _) =>
          .error (.ok { attempt := request.attempt, links, events := state.events }, source)
      | .ok (false, links, total) => .ok { state with source, links, total }

/-- The body of the dump loop. -/
def dumpPass (request : DumpRequest S) (state : DumpState S) :
    Except (Returned S) (DumpState S) := do
  let (ready, state) ← pollDump request state
  let state ← if ready.notification then takeNotification state else pure state
  if ready.dump then takeDump request state else pure state

/-- The statements of `inventory` before its loop. -/
def beginDump (attempt : Attempt) (source : NetlinkSource S) :
    Except (Returned S) (DumpRequest S × DumpState S) :=
  let events := ⟨none, none⟩
  match source.world.openSocket 0 with
  | (.error error, world) => .error (.error (.ordinary error events), { source with world })
  | (.ok socket, world) =>
      let (sequence, source) := { source with world }.nextSequence
      match source.world.send socket (dumpRequest source.world.platform sequence) with
      | (.error error, world) => .error (.error (.ordinary error events), { source with world })
      | (.ok (), world) =>
          let (reading, world) := world.instant
          let deadline := reading + inventoryTimeout.nanos
          .ok ({ socket, sequence, deadline, attempt },
            { source := { source with world }, links := [], total := 0, events })

/-- `inventory`; none when the loop goes on forever. -/
noncomputable def inventory (attempt : Attempt) (source : NetlinkSource S) : Option (Returned S) :=
  match beginDump attempt source with
  | .error returned => some returned
  | .ok (request, state) => Loop.run (dumpPass request) state

/-- `wait`. -/
def wait (timeout : Duration) (source : NetlinkSource S) :
    Except Error WaitOutcome × NetlinkSource S :=
  match source.notification with
  | none => (.ok .deadline, { source with world := source.world.sleep timeout })
  | some notification =>
      let (answer, world) := source.world.wait notification none timeout
      let source := { source with world }
      match answer with
      | .error error => (.error error, { source with notification := none })
      | .ok ready =>
          if ready.notificationFailed then
            (.error (.other "link notification socket failed"),
              { source with notification := none })
          else if !ready.notification then (.ok .deadline, source)
          else
            match source.receiveNotification with
            | (.ok (some time), source) => (.ok (.linkChanged time), source)
            | (.ok none, source) => (.ok .deadline, source)
            | (.error error, source) => (.error error, { source with notification := none })

/-- `impl Acquisition for NetlinkSource`. -/
noncomputable instance : Acquisition (NetlinkSource S) where
  now := now
  subscribe := subscribe
  inventory := inventory
  wait := wait

end NetlinkSource
end IfStack
