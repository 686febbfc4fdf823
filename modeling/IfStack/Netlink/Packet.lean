import IfStack.Std.Error
import Mathlib.Algebra.Group.Nat.Defs

/-! # Netlink messages and the platform

The message types of the netlink crates, as far as `netlink.rs` looks into them,
and what the program takes from its target: byte order, width of `usize`, and the
crates' conversion between messages and bytes.
-/

namespace IfStack

/-- `InfoKind`, of the kinds that are told apart. -/
inductive InfoKind
  | bond
  | bridge
  | vlan
  | macVlan
  | ipVlan
  | macVtap
  | vxlan
  | veth
  | other
deriving DecidableEq, Repr

/-- `InfoVxlan`, of which the underlay is read. -/
inductive InfoVxlan
  | link (value : UInt32)
  | other
deriving DecidableEq, Repr

/-- `InfoData`, of which VXLAN data is read. -/
inductive InfoData
  | vxlan (attributes : List InfoVxlan)
  | other
deriving DecidableEq, Repr

/-- `LinkInfo`, of which the kind and the data are read. -/
inductive LinkInfo
  | kind (value : InfoKind)
  | data (value : InfoData)
  | other
deriving DecidableEq, Repr

/-- `LinkAttribute`, of the attributes that are read. -/
inductive LinkAttribute
  | ifName (value : String)
  | controller (value : UInt32)
  | link (value : UInt32)
  | linkNetNsId (value : Int32)
  | linkInfo (infos : List LinkInfo)
  | other
deriving DecidableEq, Repr

/-- `LinkMessage`; of its header the program reads the interface index. -/
structure LinkMessage where
  index : UInt32
  attributes : List LinkAttribute
deriving DecidableEq, Repr

/-- `RouteNetlinkMessage`, of the messages about links. -/
inductive RouteNetlinkMessage
  | newLink (link : LinkMessage)
  | delLink (link : LinkMessage)
  | getLink (link : LinkMessage)
  | other
deriving DecidableEq, Repr

/-- `NetlinkPayload`. An error message is kept as the `std::io::Error` it converts
to. -/
inductive NetlinkPayload
  | done (code : Int32)
  | error (error : Error)
  | noop
  | overrun
  | innerMessage (message : RouteNetlinkMessage)
deriving DecidableEq, Repr

/-- `NetlinkHeader`, without the fields that `finalize` computes. -/
structure NetlinkHeader where
  flags : UInt16
  sequenceNumber : UInt32
deriving DecidableEq, Repr

/-- `NetlinkMessage`. -/
structure NetlinkMessage where
  header : NetlinkHeader
  payload : NetlinkPayload
deriving DecidableEq, Repr

/-- `NLM_F_REQUEST`. -/
def nlmFRequest : UInt16 := 0x01

/-- `NLM_F_DUMP_INTR`. -/
def nlmFDumpIntr : UInt16 := 0x10

/-- `NLM_F_DUMP`. -/
def nlmFDump : UInt16 := 0x300

/-- The target and the netlink crates. A refusal of `NetlinkMessage::deserialize`
is kept as it prints. -/
structure Platform where
  littleEndian : Bool
  usizeBits : Nat
  usizeBits_ge : 32 ≤ usizeBits
  deserialize : List UInt8 → Except String NetlinkMessage
  serialize : NetlinkMessage → List UInt8

namespace Platform

/-- `usize::MAX`. -/
def usizeMax (platform : Platform) : Nat := 2 ^ platform.usizeBits - 1

/-- `u32::from_ne_bytes`, on the four bytes in front. -/
def fromNeBytes (platform : Platform) (bytes : List UInt8) : Nat :=
  let digits := (bytes.take 4).map UInt8.toNat
  let bigEndian := if platform.littleEndian then digits.reverse else digits
  bigEndian.foldl (fun value digit => value * 256 + digit) 0

end Platform
end IfStack
