import IfStack.Mib.Encodings
import IfStack.Std.Duration
import IfStack.Std.Error

/-! # AgentX protocol data units

The PDU types of the `agentx` crate, as far as `session.rs` looks into them. The
crate's conversions between PDUs and bytes are parameters; what the program relies
on is stated apart.
-/

namespace IfStack

/-- `agentx::pdu::Type`. -/
inductive PduType
  | open'
  | close
  | register
  | unregister
  | get
  | getNext
  | getBulk
  | testSet
  | commitSet
  | undoSet
  | cleanupSet
  | notify
  | ping
  | indexAllocate
  | indexDeallocate
  | addAgentCaps
  | removeAgentCaps
  | response
deriving DecidableEq, Repr

/-- How a type prints with `{:?}`. -/
def PduType.printed : PduType → String
  | .open' => "Open"
  | .close => "Close"
  | .register => "Register"
  | .unregister => "Unregister"
  | .get => "Get"
  | .getNext => "GetNext"
  | .getBulk => "GetBulk"
  | .testSet => "TestSet"
  | .commitSet => "CommitSet"
  | .undoSet => "UndoSet"
  | .cleanupSet => "CleanupSet"
  | .notify => "Notify"
  | .ping => "Ping"
  | .indexAllocate => "IndexAllocate"
  | .indexDeallocate => "IndexDeallocate"
  | .addAgentCaps => "AddAgentCaps"
  | .removeAgentCaps => "RemoveAgentCaps"
  | .response => "Response"

/-- `agentx::pdu::Header`. -/
structure Header where
  version : UInt8
  ty : PduType
  flags : UInt8
  sessionId : UInt32
  transactionId : UInt32
  packetId : UInt32
  payloadLength : UInt32
deriving DecidableEq, Repr

/-- `agentx::pdu::ResError`: the variants the program names, and one for the rest,
kept as it prints. -/
inductive ResError
  | noAgentXError
  | notOpen
  | unsupportedContext
  | parseError
  | requestDenied
  | processingError
  | other (printed : String)
deriving DecidableEq, Repr

/-- How an error prints with `{:?}`. -/
def ResError.printed : ResError → String
  | .noAgentXError => "NoAgentXError"
  | .notOpen => "NotOpen"
  | .unsupportedContext => "UnsupportedContext"
  | .parseError => "ParseError"
  | .requestDenied => "RequestDenied"
  | .processingError => "ProcessingError"
  | .other printed => printed

/-- The byte order of a PDU. -/
inductive ByteOrder
  | bigEndian
  | littleEndian
deriving DecidableEq, Repr

/-- A number in two bytes, as `to_be_bytes` and `to_le_bytes` give it. -/
def ByteOrder.encode16 : ByteOrder → UInt16 → List UInt8
  | .bigEndian, value => [(value >>> 8).toUInt8, value.toUInt8]
  | .littleEndian, value => [value.toUInt8, (value >>> 8).toUInt8]

@[simp] theorem ByteOrder.length_encode16 (order : ByteOrder) (value : UInt16) :
    (order.encode16 value).length = 2 := by
  cases order <;> rfl

/-- `agentx::pdu::Response`, without the uptime, which stays as it was created. -/
structure Response (ID : Type) where
  header : Header
  resError : ResError
  resIndex : UInt16
  vb : Option (List (VarBind ID))
deriving DecidableEq

/-- `agentx::pdu::Open`. -/
structure OpenPdu (ID : Type) where
  header : Header
  timeout : Duration
  id : ID
  description : String

/-- `agentx::pdu::Register`, as far as the program sets it. -/
structure RegisterPdu (ID : Type) where
  header : Header
  priority : UInt8
  subtree : ID

/-- `agentx::pdu::GetBulk`, without its header. -/
structure GetBulkPdu (ID : Type) where
  ranges : List (SearchRange ID)
  nonRepeaters : UInt16
  maxRepetitions : UInt16

/-- The conversions of the `agentx` crate. `Get` also decodes a GetNext request. An
encoder sets the payload length of its PDU besides; the program does not read it. -/
structure Codec (ID : Type) where
  newHeader : PduType → Header
  headerFromBytes : List UInt8 → Except Error Header
  openToBytes : OpenPdu ID → Except Error (List UInt8)
  registerToBytes : RegisterPdu ID → Except Error (List UInt8)
  closeFromBytes : List UInt8 → Except Error Unit
  getFromBytes : List UInt8 → Except Error (List (SearchRange ID))
  getBulkFromBytes : List UInt8 → Except Error (GetBulkPdu ID)
  testSetFromBytes : List UInt8 → Except Error (List (VarBind ID))
  pingFromBytes : List UInt8 → Except Error Unit
  resErrorFromBytes : List UInt8 → ByteOrder → Except Error ResError
  responseFromHeader : Header → Response ID
  responseToBytes : Response ID → Except Error (List UInt8)
  /-- `ID::default()`. -/
  defaultId : ID
  /-- `ID::to_string`. -/
  display : ID → List Char

/-- `NETWORK_ORDER`, the flag of a PDU in network byte order. -/
def networkOrder : UInt8 := (1 : UInt8) <<< (4 : UInt8)

/-- `1 << pdu::NON_DEFAULT_CONTEXT`. -/
def nonDefaultContext : UInt8 := (1 : UInt8) <<< (3 : UInt8)

/-- The byte order of a PDU, by its flags. -/
def Header.order (header : Header) : ByteOrder :=
  if header.flags &&& networkOrder ≠ 0 then .bigEndian else .littleEndian

namespace Codec

variable {ID : Type} (codec : Codec ID)

/-- `Response::from_header` copies the ids of a request and reports no error. -/
structure Replies : Prop where
  sessionId : ∀ header, (codec.responseFromHeader header).header.sessionId = header.sessionId
  transactionId : ∀ header,
    (codec.responseFromHeader header).header.transactionId = header.transactionId
  packetId : ∀ header, (codec.responseFromHeader header).header.packetId = header.packetId
  resError : ∀ header, (codec.responseFromHeader header).resError = .noAgentXError
  vb : ∀ header, (codec.responseFromHeader header).vb = none

/-- The encoder of responses succeeds. A response has a header and eight bytes at
least. -/
def EncodesResponses : Prop :=
  ∀ response, ∃ bytes, codec.responseToBytes response = .ok bytes ∧ 28 ≤ bytes.length

/-- An identifier prints as its expanded sub-identifiers, separated by dots. -/
def Displays [AgentxId ID] [LawfulAgentxId ID] : Prop :=
  ∃ digits : UInt32 → List Char, (∀ subid, '.' ∉ digits subid) ∧
    ∀ id, codec.display id = ['.'].intercalate ((LawfulAgentxId.components id).map digits)

/-- `reply`. -/
def reply (header : Header) : Response ID :=
  let response := codec.responseFromHeader header
  { response with header := { response.header with flags := header.flags &&& networkOrder } }

end Codec
end IfStack
