import IfStack.Netlink.Inventory

/-! # An inventory succeeds exactly on a complete dump

A successful call has received a complete dump and returns its links. Conversely a call to
which a complete dump is delivered receives it datagram by datagram, and returns as soon as
the last one is there. A call that fails was not delivered one.
-/

namespace IfStack

namespace NetlinkSource

variable {S : Type}

/-- **Complete dumps.** A call that succeeds has asked for a dump on a socket of its own, made
no calls after that but on this socket and on that of the subscription, and received there a
complete dump of its own sequence number, with the last datagram in its last call; it returns
the links of the dump and its attempt. And whenever the world answers the calls of a delivery,
and the last of them completes a dump, the call makes these calls and returns the links. A
call that fails has met a failure, or has received something that neither continues nor
completes a dump. -/
theorem inventory_complete (attempt : Attempt) (source : NetlinkSource S) :
    (∀ inventory after, source.inventory attempt = some (.ok inventory, after) →
      ∃ notification dump last older, source.notification = some notification ∧
        after.world = source.world.extend (.received .dump dump (.ok last) :: older ++
          dumpCalls source.world.platform source.nextSequence.1 dump) ∧
        (∀ call ∈ older, call.Between notification dump) ∧ inventory.attempt = attempt ∧
        CompleteDump source.world.platform source.nextSequence.1
          (Calls.dumpAnswers (.received .dump dump (.ok last) :: older)) inventory.links) ∧
    (∀ request events links last older,
      DumpDelivery source request (.received .dump request.socket (.ok last) :: older) events →
      source.world.Answers (.received .dump request.socket (.ok last) :: older) →
      request.attempt = attempt → request.sequence = source.nextSequence.1 →
      CompleteDump source.world.platform source.nextSequence.1
        (Calls.dumpAnswers (.received .dump request.socket (.ok last) :: older)) links →
      source.inventory attempt = some (.ok ⟨attempt, links, events⟩,
        { source.extend (.received .dump request.socket (.ok last) :: older) with
          sequence := request.sequence })) ∧
    ∀ notification error after, source.notification = some notification →
      source.inventory attempt = some (.error error, after) →
      ∃ deadline calls, after.world = source.world.extend calls ∧ EndsBy deadline calls ∧
        Calls.Asked source.world.platform source.nextSequence.1 notification calls ∧
        ((∃ call ∈ calls, ¬ call.Clean source.world.platform deadline) ∨ ∀ links,
          ¬ PartialDump source.world.platform source.nextSequence.1 (Calls.dumpAnswers calls)
              links ∧
            ¬ CompleteDump source.world.platform source.nextSequence.1 (Calls.dumpAnswers calls)
              links) := by
  refine ⟨?_, ?_, ?_⟩
  · intro inventory after result
    obtain ⟨_, calls, returned⟩ := inventory_spec result
    obtain ⟨tried, complete, ⟨socket, last, older, made⟩, _, _, present⟩ := returned.concludes
    obtain ⟨notification, subscribed⟩ := Option.isSome_iff_exists.mp present
    have asked := returned.asked notification subscribed
    have world := returned.world
    cases asked with
    | unopened | unsent => cases made
    | @requested dump loop between =>
        -- the last call is one of the loop, so its socket is that of the dump
        cases loop with
        | nil => cases made
        | cons call loop =>
            cases made
            obtain ⟨rfl, between⟩ := List.forall_mem_cons.mp between
            refine ⟨notification, socket, last, loop, subscribed, world, between, tried, ?_⟩
            rw [Calls.dumpAnswers_append] at complete
            exact complete
  · rintro request events links last older delivery answers rfl numbered complete
    exact inventory_delivered delivery numbered answers (numbered ▸ complete)
  · intro notification error after subscribed result
    obtain ⟨deadline, calls, returned⟩ := inventory_spec result
    refine ⟨deadline, calls, returned.world, returned.begun, returned.asked _ subscribed, ?_⟩
    have concludes := returned.concludes
    by_cases unclean : ∃ call ∈ calls, ¬ call.Clean source.world.platform deadline
    · exact .inl unclean
    · have clean (call : Call S) (member : call ∈ calls) :
          call.Clean source.world.platform deadline :=
        by_contra fun broken => unclean ⟨call, member, broken⟩
      match error with
      | .ordinary .. => exact .inr (concludes.2.2 clean)
      | .lost .. =>
          obtain ⟨call, member, fault⟩ := concludes.2 (by rw [subscribed]; rfl)
          exact absurd fault (clean call member).not_fault

end NetlinkSource

/-! ## A kernel with a bond -/

namespace Frame

/-- The four bytes of a word. -/
def word (value : UInt32) : List UInt8 :=
  [value.toUInt8, (value >>> 8).toUInt8, (value >>> 16).toUInt8, (value >>> 24).toUInt8]

/-- The word that four bytes hold. -/
def wordOf (bytes : List UInt8) : UInt32 :=
  bytes.foldr (fun byte value => value <<< 8 ||| byte.toUInt32) 0

/-- A message: the header, and the payload after it. -/
def message (kind : UInt8) (flags : UInt16) (sequence : UInt32) (payload : List UInt8) :
    List UInt8 :=
  word (.ofNat (16 + payload.length)) ++ [kind, 0, flags.toUInt8, (flags >>> 8).toUInt8] ++
    word sequence ++ word 0 ++ payload

/-- An attribute, padded to a multiple of four bytes. -/
def field (kind : UInt8) (value : List UInt8) : List UInt8 :=
  [.ofNat (4 + value.length), 0, kind, 0] ++ value ++ .replicate ((4 - value.length % 4) % 4) 0

/-- The attributes in some bytes, each with its kind, as many as there is fuel for. -/
def attributes : Nat → List UInt8 → List (UInt8 × List UInt8)
  | fuel + 1, length :: _ :: kind :: _ :: rest =>
      let size := length.toNat - 4
      (kind, rest.take size) :: attributes fuel (rest.drop ((size + 3) / 4 * 4))
  | _, _ => []

/-- The text before a zero byte. -/
def text (bytes : List UInt8) : String :=
  .ofList ((bytes.takeWhile (· != 0)).map fun byte => .ofNat byte.toNat)

/-- `InfoKind`, as far as the kernel below names kinds. -/
def info : UInt8 × List UInt8 → LinkInfo
  | (1, value) => .kind (if text value = "bond" then .bond else .other)
  | _ => .other

/-- An attribute of a link message. -/
def linkAttribute : UInt8 × List UInt8 → LinkAttribute
  | (3, value) => .ifName (text value)
  | (5, value) => .link (wordOf value)
  | (10, value) => .controller (wordOf value)
  | (18, value) => .linkInfo ((attributes value.length value).map info)
  | _ => .other

/-- The payload of a link message. -/
def link (payload : List UInt8) : LinkMessage :=
  ⟨wordOf ((payload.drop 4).take 4),
    (attributes payload.length (payload.drop 16)).map linkAttribute⟩

end Frame

/-- A little-endian platform of 64 bits that knows links and the ends of dumps. -/
def Platform.plain : Platform where
  littleEndian := true
  usizeBits := 64
  usizeBits_ge := by decide
  deserialize bytes :=
    match bytes with
    | _ :: _ :: _ :: _ :: kind :: 0 :: low :: high :: first :: second :: third :: fourth ::
        _ :: _ :: _ :: _ :: payload =>
        let header := ⟨low.toUInt16 ||| high.toUInt16 <<< 8,
          Frame.wordOf [first, second, third, fourth]⟩
        match kind with
        | 3 => .ok ⟨header, .done (Frame.wordOf (payload.take 4)).toInt32⟩
        | 16 => .ok ⟨header, .innerMessage (.newLink (Frame.link payload))⟩
        | 17 => .ok ⟨header, .innerMessage (.delLink (Frame.link payload))⟩
        | _ => .error "unsupported"
    | _ => .error "unsupported"
  serialize message :=
    match message.payload with
    | .innerMessage (.getLink link) =>
        Frame.message 18 message.header.flags message.header.sequenceNumber
          (Frame.word 0 ++ Frame.word link.index ++ Frame.word 0 ++ Frame.word 0)
    | _ => []

namespace Datagram

/-- The link `eth0`, with the bond as its controller. -/
def port (sequence : UInt32) : List UInt8 :=
  Frame.message 16 2 sequence (Frame.word 0 ++ Frame.word 2 ++ Frame.word 0 ++ Frame.word 0 ++
    Frame.field 3 [101, 116, 104, 48, 0] ++ Frame.field 10 (Frame.word 3))

/-- The link `bond0`. -/
def bond (sequence : UInt32) : List UInt8 :=
  Frame.message 16 2 sequence (Frame.word 0 ++ Frame.word 3 ++ Frame.word 0 ++ Frame.word 0 ++
    Frame.field 3 [98, 111, 110, 100, 48, 0] ++
      Frame.field 18 (Frame.field 1 [98, 111, 110, 100, 0]))

/-- The kernel tells that `eth0` has changed. -/
def change : Datagram := ⟨port 0, true, false⟩

/-- The first datagram of a dump. -/
def part (sequence : UInt32) : Datagram := ⟨port sequence, true, false⟩

/-- The last datagram of a dump. -/
def rest (sequence : UInt32) : Datagram :=
  ⟨bond sequence ++ Frame.message 3 2 sequence (Frame.word 0), true, false⟩

end Datagram

namespace Calls

/-- The sequence number of the request that was last sent on a socket. -/
def requestOn (socket : Nat) : List (Call Nat) → Option UInt32
  | [] => none
  | .sent other bytes (.ok ()) :: older =>
      if other = socket then some (Frame.wordOf ((bytes.drop 8).take 4)) else requestOn socket older
  | _ :: older => requestOn socket older

/-- How often something was received on a socket. -/
def receivedOn (socket : Nat) (calls : List (Call Nat)) : Nat :=
  calls.countP fun
    | .received _ other _ => other = socket
    | _ => false

/-- The clock after some calls: a millisecond for each, and the time that was slept. -/
def elapsedNanos : List (Call Nat) → Nat
  | [] => 0
  | .slept timeout :: older => elapsedNanos older + timeout.nanos + 10 ^ 6
  | _ :: older => elapsedNanos older + 10 ^ 6

end Calls

/-- Sockets are numbered. A dump comes in two datagrams, and while it is read, two changes of a
link are told. A subscription breaks as soon as it is polled without a dump. -/
def World.bonded : World Nat where
  platform := .plain
  behaviour := {
    openSocket := fun log _ => .ok log.length
    send := fun _ _ _ => .ok ()
    wait := fun log notification dump _ =>
      .ok ⟨dump.isSome && Calls.receivedOn notification log < 2, dump.isSome, dump.isNone, false⟩
    receive := fun log socket => .ok <|
      match Calls.requestOn socket log with
      | none => .change
      | some sequence => if Calls.receivedOn socket log = 0 then .part sequence else .rest sequence
    clock := Calls.elapsedNanos }
  log := []

/-- The notification holds a change of the link `eth0`. -/
theorem Datagram.change_decodes : decodeDatagram .plain Datagram.change.bytes =
    .ok [⟨⟨2, 0⟩, .innerMessage (.newLink ⟨2, [.ifName "eth0", .controller 3]⟩)⟩] := by
  decide +kernel

/-- The first part of the dump holds that link. -/
theorem Datagram.part_decodes : decodeDatagram .plain (Datagram.part 1).bytes =
    .ok [⟨⟨2, 1⟩, .innerMessage (.newLink ⟨2, [.ifName "eth0", .controller 3]⟩)⟩] := by
  decide +kernel

/-- The rest of the dump holds the bond, and its end. -/
theorem Datagram.rest_decodes : decodeDatagram .plain (Datagram.rest 1).bytes =
    .ok [⟨⟨2, 1⟩, .innerMessage (.newLink ⟨3, [.ifName "bond0", .linkInfo [.kind .bond]]⟩)⟩,
      ⟨⟨2, 1⟩, .done 0⟩] := by
  decide +kernel

/-- The notification is not defective. -/
theorem Datagram.change_sound : ¬ Datagram.change.Defective .plain := by
  refine Datagram.not_defective rfl rfl (by decide) Datagram.change_decodes ?_
  refine List.forall_mem_singleton.mpr ?_
  rintro (answers | unexpected)
  · exact answers rfl
  · exact unexpected trivial

/-- The notification changes a link. -/
theorem Datagram.change_changes : Datagram.change.ChangesLink .plain :=
  ⟨_, Datagram.change_decodes, _, List.mem_cons_self, trivial⟩

/-- The links of the bonded world. -/
def bondedLinks : List ObservedLink :=
  [⟨2, "eth0", .other, some 3, none, none, none⟩, ⟨3, "bond0", .bond, none, none, none, none⟩]

/-- The two parts are a complete dump of the two links. -/
theorem bonded_dump : CompleteDump .plain 1 [.ok (.part 1), .ok (.rest 1)] bondedLinks := by
  refine ⟨[.part 1], .rest 1, [[_]], [_], _, rfl,
    .cons ⟨rfl, rfl, by decide, Datagram.part_decodes⟩ .nil,
    ⟨rfl, rfl, by decide, Datagram.rest_decodes⟩, by decide, ?_, ⟨rfl, by decide⟩, rfl⟩
  exact .cons ⟨⟨rfl, by decide⟩, _, rfl, rfl⟩ (.cons ⟨⟨rfl, by decide⟩, _, rfl, rfl⟩ .nil)

namespace NetlinkSource

/-- The source of the bonded world once it has subscribed, and is about to take inventory. -/
def bonded : NetlinkSource Nat := (withIo .bonded).now.2.subscribe.2.now.2

/-- The request of its inventory. -/
def bondedRequest : DumpRequest Nat := ⟨4, 1, 3006000000, ⟨0⟩⟩

/-- The calls of its inventory before the datagram that ends the dump. -/
def bondedOlder : List (Call Nat) :=
  [.elapsed 15000000, .received .notification 2 (.ok .change),
    .polled 2 (some 4) (durationSince 3006000000 12000000) (.ok ⟨true, true, false, false⟩),
    .instant 12000000,
    .received .dump 4 (.ok (.part 1)), .elapsed 10000000,
    .received .notification 2 (.ok .change),
    .polled 2 (some 4) (durationSince 3006000000 7000000) (.ok ⟨true, true, false, false⟩),
    .instant 7000000,
    .instant 6000000, .sent 4 (dumpRequest .plain 1) (.ok ()), .opened 0 (.ok 4)]

/-- The changes that it tells. -/
def bondedEvents : EventBatch := ⟨some (durationSince 10000000 0), some (durationSince 15000000 0)⟩

/-- The calls deliver the dump, and the change is noticed meanwhile. -/
theorem bonded_delivery : DumpDelivery bonded bondedRequest
    (.received .dump 4 (.ok (.rest 1)) :: bondedOlder) bondedEvents := by
  have pass {older : List (Call Nat)} {events : EventBatch} (datagram : Datagram)
      (earlier : DumpDelivery bonded bondedRequest older events) (reading time : Nat)
      (early : reading < bondedRequest.deadline) : DumpDelivery bonded bondedRequest
        (.received .dump 4 (.ok datagram) :: .elapsed time ::
          .received .notification 2 (.ok .change) ::
          .polled 2 (some 4) (durationSince bondedRequest.deadline reading)
            (.ok ⟨true, true, false, false⟩) ::
          .instant reading :: older)
        (events.note (some (durationSince time 0))) :=
    @DumpDelivery.pass Nat bonded bondedRequest 2 older _ _ [_] events ⟨true, true, false, false⟩ _
      earlier rfl (.early early) rfl rfl
      (.changed Datagram.change_sound Datagram.change_changes) (.received datagram)
  have begun : DumpDelivery bonded bondedRequest (bondedOlder.drop 9) ⟨none, none⟩ := .begun rfl
  exact pass _ (pass _ begun 7000000 10000000 (by decide)) 12000000 15000000 (by decide)

/-- The calls are what the bonded world answers. -/
theorem bonded_answers : bonded.world.Answers
    (.received .dump 4 (.ok (.rest 1)) :: bondedOlder) :=
  ⟨rfl, rfl, rfl, rfl, rfl, rfl, rfl, rfl, rfl, rfl, rfl, rfl, rfl, trivial⟩

/-- The source after its inventory. -/
def bondedAfter : NetlinkSource Nat :=
  { bonded.extend (.received .dump 4 (.ok (.rest 1)) :: bondedOlder) with sequence := 1 }

/-- The inventory of the bonded world. -/
theorem bonded_inventory : bonded.inventory ⟨0⟩ =
    some (.ok ⟨⟨0⟩, bondedLinks, bondedEvents⟩, bondedAfter) :=
  inventory_delivered bonded_delivery rfl bonded_answers bonded_dump

/-- The inventory of the bonded world returns both links, and the change. -/
theorem inventory_complete_bonded : ∃ inventory after,
    bonded.inventory ⟨0⟩ = some (.ok inventory, after) ∧ inventory.attempt = ⟨0⟩ ∧
      inventory.links = bondedLinks ∧ inventory.events = bondedEvents :=
  ⟨_, _, (inventory_complete ⟨0⟩ bonded).2.1 bondedRequest bondedEvents bondedLinks _ _
    bonded_delivery bonded_answers rfl rfl bonded_dump, rfl, rfl, rfl⟩

end NetlinkSource
end IfStack
