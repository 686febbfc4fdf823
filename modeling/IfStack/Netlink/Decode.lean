import IfStack.Link.Topology
import IfStack.Netlink.Packet
import Mathlib.Algebra.Group.Nat.Defs

/-! # Decoding netlink datagrams

The pure part of `netlink.rs`: a datagram is cut into messages, a link message is
reduced to an observed link, and the messages of a dump or a notification are
judged one after the other.
-/

namespace IfStack

/-- `NETLINK_HEADER_LENGTH`. -/
def netlinkHeaderLength : Nat := 16

/-- The loop of `decode_datagram`, on the bytes from `offset` on. -/
def decodeFrom (platform : Platform) (remaining : List UInt8) :
    Except Error (List NetlinkMessage) :=
  if remaining.length = 0 then .ok []
  else if remaining.length < netlinkHeaderLength then
    .error (.invalid "trailing bytes after netlink message")
  else
    let length := platform.fromNeBytes remaining
    if _outside : length < netlinkHeaderLength ∨ remaining.length < length then
      .error (.invalid "invalid netlink message length")
    else
      match platform.deserialize (remaining.take length) with
      | .error error =>
          .error ⟨.invalidData, [.text "cannot decode netlink message: ", .display error]⟩
      | .ok message =>
          if platform.usizeMax < length + 3 then
            .error (.invalid "netlink message length overflow")
          else
            let aligned := (length + 3) / 4 * 4
            if remaining.length < aligned then
              if length = remaining.length then .ok [message]
              else .error (.invalid "truncated netlink message padding")
            else
              match decodeFrom platform (remaining.drop aligned) with
              | .error error => .error error
              | .ok messages => .ok (message :: messages)
termination_by remaining.length
decreasing_by
  rw [List.length_drop]
  unfold netlinkHeaderLength at _outside
  omega

/-- `decode_datagram`. -/
def decodeDatagram (platform : Platform) (bytes : List UInt8) :
    Except Error (List NetlinkMessage) :=
  decodeFrom platform bytes

/-- `set_once`. -/
def setOnce {α : Type} (slot : Option α) (value : α) (field : String) :
    Except Error (Option α) :=
  if slot.isSome then .error ⟨.invalidData, [.text "duplicate ", .display field]⟩
  else .ok (some value)

/-- The slots that `decode_link` fills from the attributes. -/
structure LinkSlots where
  name : Option String
  controller : Option UInt32
  lower : Option UInt32
  lowerNetnsid : Option Int32
  kind : Option InfoKind
  data : Option InfoData
deriving DecidableEq

namespace LinkSlots

/-- No slot is filled. -/
def empty : LinkSlots := ⟨none, none, none, none, none, none⟩

/-- One element of a `LinkInfo` attribute. -/
def takeInfo (slots : LinkSlots) : LinkInfo → Except Error LinkSlots
  | .kind value => do return { slots with kind := ← setOnce slots.kind value "link kind" }
  | .data value => do return { slots with data := ← setOnce slots.data value "link data" }
  | .other => .ok slots

/-- One attribute of a link message. -/
def takeAttribute (slots : LinkSlots) : LinkAttribute → Except Error LinkSlots
  | .ifName value => do return { slots with name := ← setOnce slots.name value "interface name" }
  | .controller value => do
      return { slots with controller := ← setOnce slots.controller value "controller" }
  | .link value => do
      return { slots with lower := ← setOnce slots.lower value "lower interface" }
  | .linkNetNsId value => do
      return { slots with
        lowerNetnsid := ← setOnce slots.lowerNetnsid value "lower network namespace" }
  | .linkInfo infos => infos.foldlM takeInfo slots
  | .other => .ok slots

end LinkSlots

/-- The kinds the program distinguishes. -/
def LinkKind.ofInfoKind : Option InfoKind → LinkKind
  | some .bond => .bond
  | some .bridge => .bridge
  | some .vlan => .vlan
  | some .macVlan => .macVlan
  | some .ipVlan => .ipVlan
  | some .macVtap => .macVtap
  | some .vxlan => .vxlan
  | some .veth => .veth
  | _ => .other

/-- The underlay of a VXLAN, from its data. -/
def vxlanUnderlay (attributes : List InfoVxlan) : Except Error (Option UInt32) :=
  attributes.foldlM (fun result item =>
    match item with
    | .link value => setOnce result value "VXLAN underlay"
    | .other => .ok result) none

/-- `decode_link`. -/
def decodeLink (message : LinkMessage) : Except Error ObservedLink := do
  let slots ← message.attributes.foldlM LinkSlots.takeAttribute .empty
  let vxlanLower ← match slots.data with
    | some (.vxlan attributes) => vxlanUnderlay attributes
    | _ => .ok none
  match slots.name with
  | none => .error (.invalid "interface has no name")
  | some name => .ok {
      index := message.index
      name := name
      kind := .ofInfoKind slots.kind
      controller := slots.controller
      lower := slots.lower
      lowerNetnsid := slots.lowerNetnsid
      vxlanLower := vxlanLower }

/-- The body of the loop of `consume_dump`, at a position among `count` messages: the
link it adds, or what the function returns. -/
def consumeMessage (sequence : UInt32) (count position : Nat) (message : NetlinkMessage) :
    Except (Except Error Bool) ObservedLink :=
  if message.header.sequenceNumber ≠ sequence then
    .error (.error
      (.invalid "interface inventory response sequence did not match its request"))
  else if message.header.flags &&& nlmFDumpIntr ≠ 0 then
    .error (.error (.other "interface inventory dump was interrupted"))
  else
    match message.payload with
    | .innerMessage (.newLink link) =>
        match decodeLink link with
        | .ok observed => .ok observed
        | .error error => .error (.error error)
    | .done code =>
        if code = 0 ∧ position + 1 = count then .error (.ok true)
        else if code = 0 then
          .error (.error (.invalid "interface inventory continued after completion"))
        else .error (.error (.other "interface inventory completion reported an error"))
    | .error error => .error (.error error)
    | .overrun => .error (.error (.other "interface inventory socket reported overrun"))
    | .innerMessage _ | .noop =>
        .error (.error (.invalid "unexpected interface inventory message"))

/-- The loop of `consume_dump`, from a position on. It returns the links as it leaves
them, also where it fails. -/
def consumeMessages (sequence : UInt32) (count position : Nat) (links : List ObservedLink) :
    List NetlinkMessage → Except Error Bool × List ObservedLink
  | [] => (.ok false, links)
  | message :: rest =>
      match consumeMessage sequence count position message with
      | .ok observed =>
          consumeMessages sequence count (position + 1) (links ++ [observed]) rest
      | .error returned => (returned, links)

/-- `consume_dump`. -/
def consumeDump (platform : Platform) (bytes : List UInt8) (sequence : UInt32)
    (links : List ObservedLink) : Except Error Bool × List ObservedLink :=
  match decodeDatagram platform bytes with
  | .error error => (.error error, links)
  | .ok messages => consumeMessages sequence messages.length 0 links messages

/-- `Datagram`. -/
structure Datagram where
  bytes : List UInt8
  fromKernel : Bool
  truncated : Bool
deriving DecidableEq

/-- `MAX_INVENTORY_BYTES`. -/
def maxInventoryBytes : Nat := 16 * 1024 * 1024

/-- The judgement of `inventory` on a datagram received for its dump: whether it
ends the dump, with the links and the byte count it leaves. -/
def dumpDatagram (platform : Platform) (sequence : UInt32) (links : List ObservedLink)
    (total : Nat) (datagram : Datagram) : Except Error (Bool × List ObservedLink × Nat) :=
  if datagram.truncated then
    .error (.invalid "interface inventory datagram was truncated")
  else if !datagram.fromKernel || datagram.bytes.isEmpty then
    .error (.invalid "invalid interface inventory sender or termination")
  else
    let total := min (total + datagram.bytes.length) platform.usizeMax
    if maxInventoryBytes < total then
      .error (.invalid "interface inventory exceeded its byte limit")
    else
      match consumeDump platform datagram.bytes sequence links with
      | (.ok finished, links) => .ok (finished, links, total)
      | (.error error, _) => .error error

/-- The message loop of `receive_notification`: has a link changed? -/
def notifyMessages (changed : Bool) : List NetlinkMessage → Except Error Bool
  | [] => .ok changed
  | message :: rest =>
      if message.header.sequenceNumber ≠ 0 then
        .error (.invalid "link notification carried a response sequence")
      else
        match message.payload with
        | .innerMessage (.newLink _) | .innerMessage (.delLink _) => notifyMessages true rest
        | .overrun => .error (.other "link notification socket reported overrun")
        | .noop => notifyMessages changed rest
        | _ => .error (.invalid "unexpected link notification message")

/-- The judgement of `receive_notification` on a received datagram. -/
def notifyDatagram (platform : Platform) (datagram : Datagram) : Except Error Bool :=
  if datagram.truncated then .error (.invalid "link notification datagram was truncated")
  else if !datagram.fromKernel then
    .error (.invalid "link notification came from a non-kernel sender")
  else if datagram.bytes.isEmpty then
    .error ⟨.unexpectedEof, [.text "link notification socket terminated"]⟩
  else
    match decodeDatagram platform datagram.bytes with
    | .error error => .error error
    | .ok messages => notifyMessages false messages

/-- `dump_request`. -/
def dumpRequest (platform : Platform) (sequence : UInt32) : List UInt8 :=
  platform.serialize
    ⟨⟨nlmFRequest ||| nlmFDump, sequence⟩, .innerMessage (.getLink ⟨0, []⟩)⟩

end IfStack
