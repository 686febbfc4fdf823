import IfStack.Session.Pdu

/-! # The wire format on plain identifiers

The conversions of the `agentx` crate on plain identifiers, for the PDUs that a
session opens and closes with and for read requests without counts. They meet the
laws the program relies on.
-/

namespace IfStack

namespace Wire

/-- A number in four bytes. -/
def encode32 (order : ByteOrder) (value : UInt32) : List UInt8 :=
  let digits := [(value >>> 24).toUInt8, (value >>> 16).toUInt8, (value >>> 8).toUInt8,
    value.toUInt8]
  match order with
  | .bigEndian => digits
  | .littleEndian => digits.reverse

@[simp] theorem length_encode32 (order : ByteOrder) (value : UInt32) :
    (encode32 order value).length = 4 := by
  cases order <;> rfl

/-- The number that some bytes spell. -/
def decodeNat (order : ByteOrder) (bytes : List UInt8) : Nat :=
  let digits := match order with
    | .bigEndian => bytes
    | .littleEndian => bytes.reverse
  digits.foldl (fun value digit => value * 256 + digit.toNat) 0

/-- The number in four bytes. -/
def decode32 (order : ByteOrder) (bytes : List UInt8) : UInt32 := .ofNat (decodeNat order bytes)

/-- The PDU types, in the order of their codes. -/
def pduTypes : List PduType :=
  [.open', .close, .register, .unregister, .get, .getNext, .getBulk, .testSet, .commitSet,
    .undoSet, .cleanupSet, .notify, .ping, .indexAllocate, .indexDeallocate, .addAgentCaps,
    .removeAgentCaps, .response]

/-- The code of a PDU type. -/
def typeCode (ty : PduType) : UInt8 := .ofNat (pduTypes.idxOf ty + 1)

/-- The twenty bytes of a header, in its byte order. -/
def encodeHeader (header : Header) : List UInt8 :=
  [header.version, typeCode header.ty, header.flags, 0] ++
    encode32 header.order header.sessionId ++ encode32 header.order header.transactionId ++
    encode32 header.order header.packetId ++ encode32 header.order header.payloadLength

@[simp] theorem length_encodeHeader (header : Header) : (encodeHeader header).length = 20 := by
  simp [encodeHeader]

/-- A header from its bytes, whose flags give the byte order. -/
def decodeHeader : List UInt8 → Except Error Header
  | version :: code :: flags :: _ :: rest =>
      match pduTypes.find? (typeCode · = code) with
      | none => .error (.invalid "unknown PDU type")
      | some ty =>
          if rest.length < 16 then .error (.invalid "short header")
          else
            let order := if flags &&& networkOrder ≠ 0 then .bigEndian else .littleEndian
            let field (position : Nat) := decode32 order ((rest.drop position).take 4)
            .ok ⟨version, ty, flags, field 0, field 4, field 8, field 12⟩
  | _ => .error (.invalid "short header")

/-- An identifier without the shorthand for its first numbers. -/
def encodeId (order : ByteOrder) (id : PlainId) : List UInt8 :=
  [.ofNat id.subids.length, 0, id.flag, 0] ++ id.subids.flatMap (encode32 order)

/-- The numbers `1.3.6.1` and another stand for a nonzero shorthand. -/
def decodeId (order : ByteOrder) : List UInt8 → Option (PlainId × List UInt8)
  | count :: short :: flag :: _ :: rest =>
      let first := if short = 0 then [] else [1, 3, 6, 1, short.toUInt32]
      let width := 4 * count.toNat
      if rest.length < width then none
      else
        let subids := (List.range count.toNat).map fun position =>
          decode32 order ((rest.drop (4 * position)).take 4)
        some (⟨first ++ subids, flag⟩, rest.drop width)
  | _ => none

/-- Search ranges up to the end of the bytes; at most so many. -/
def decodeRanges (order : ByteOrder) :
    Nat → List UInt8 → Except Error (List (SearchRange PlainId))
  | _, [] => .ok []
  | 0, _ => .error (.invalid "too many ranges")
  | count + 1, bytes =>
      match decodeId order bytes with
      | none => .error (.invalid "short range")
      | some (start, rest) =>
          match decodeId order rest with
          | none => .error (.invalid "short range")
          | some (stop, rest) =>
              match decodeRanges order count rest with
              | .error error => .error error
              | .ok ranges => .ok (⟨start, stop⟩ :: ranges)

/-- The ranges of a Get or GetNext request. -/
def decodeGet (bytes : List UInt8) : Except Error (List (SearchRange PlainId)) := do
  let header ← decodeHeader bytes
  decodeRanges header.order bytes.length (bytes.drop 20)

/-- The code of an error. -/
def resErrorCode : ResError → UInt16
  | .noAgentXError => 0
  | .notOpen => 257
  | .unsupportedContext => 262
  | .parseError => 266
  | .requestDenied => 267
  | .processingError => 268
  | .other _ => 256

/-- The error with a code. -/
def decodeResError (bytes : List UInt8) (order : ByteOrder) : Except Error ResError :=
  match decodeNat order bytes with
  | 0 => .ok .noAgentXError
  | 256 => .ok (.other "OpenFailed")
  | 257 => .ok .notOpen
  | 262 => .ok .unsupportedContext
  | 266 => .ok .parseError
  | 267 => .ok .requestDenied
  | 268 => .ok .processingError
  | _ => .error (.invalid "unknown error code")

/-- The type of a value, and its bytes. -/
def encodeValue (order : ByteOrder) : Value PlainId → UInt16 × List UInt8
  | .integer value => (2, encode32 order value.toUInt32)
  | .objectIdentifier value => (6, encodeId order value)
  | .noSuchObject => (128, [])
  | .noSuchInstance => (129, [])
  | .endOfMibView => (130, [])
  | .other => (5, [])

/-- A binding: the type, the name and the value. -/
def encodeBinding (order : ByteOrder) (binding : VarBind PlainId) : List UInt8 :=
  let (code, data) := encodeValue order binding.data
  order.encode16 code ++ [0, 0] ++ encodeId order binding.name ++ data

/-- A response, with its length in the header. -/
def encodeResponse (response : Response PlainId) : List UInt8 :=
  let order := response.header.order
  let bindings := (response.vb.getD []).flatMap (encodeBinding order)
  encodeHeader { response.header with payloadLength := .ofNat (8 + bindings.length) } ++
    encode32 order 0 ++ order.encode16 (resErrorCode response.resError) ++
    order.encode16 response.resIndex ++ bindings

/-- A text with its length, padded to a multiple of four. -/
def encodeText (order : ByteOrder) (text : List UInt8) : List UInt8 :=
  encode32 order (.ofNat text.length) ++ text ++ List.replicate ((4 - text.length % 4) % 4) 0

/-- An Open request. -/
def encodeOpen (pdu : OpenPdu PlainId) : List UInt8 :=
  let order := pdu.header.order
  let payload := [.ofNat (pdu.timeout.nanos / 10 ^ 9), 0, 0, 0] ++ encodeId order pdu.id ++
    encodeText order pdu.description.toUTF8.toList
  encodeHeader { pdu.header with payloadLength := .ofNat payload.length } ++ payload

/-- A Register request. -/
def encodeRegister (pdu : RegisterPdu PlainId) : List UInt8 :=
  let payload := [0, pdu.priority, 0, 0] ++ encodeId pdu.header.order pdu.subtree
  encodeHeader { pdu.header with payloadLength := .ofNat payload.length } ++ payload

/-- A Close request, which holds a reason. -/
def decodeClose (bytes : List UInt8) : Except Error Unit :=
  if bytes.length = 24 ∧ ∃ reason ∈ bytes[20]?, 1 ≤ reason ∧ reason ≤ 6 then .ok ()
  else .error (.invalid "invalid reason")

end Wire

namespace Codec

/-- The conversions on plain identifiers. -/
def plain : Codec PlainId where
  newHeader ty := ⟨1, ty, 0, 0, 0, 0, 0⟩
  headerFromBytes := Wire.decodeHeader
  openToBytes pdu := .ok (Wire.encodeOpen pdu)
  registerToBytes pdu := .ok (Wire.encodeRegister pdu)
  closeFromBytes := Wire.decodeClose
  getFromBytes := Wire.decodeGet
  getBulkFromBytes _ := .error (.other "unsupported")
  testSetFromBytes _ := .error (.other "unsupported")
  pingFromBytes bytes :=
    if bytes.length = 20 then .ok () else .error (.invalid "trailing bytes")
  resErrorFromBytes := Wire.decodeResError
  responseFromHeader header := ⟨{ header with version := 1, ty := .response, payloadLength := 0 },
    .noAgentXError, 0, none⟩
  responseToBytes response := .ok (Wire.encodeResponse response)
  defaultId := ⟨[], 0⟩
  display id := ['.'].intercalate (id.subids.map fun subid => Nat.toDigits 10 subid.toNat)

/-- The plain codec starts its responses as assumed. -/
theorem plain_replies : plain.Replies := by
  constructor <;> intro <;> rfl

/-- The plain codec encodes every response. -/
theorem plain_encodesResponses : plain.EncodesResponses := by
  intro response
  refine ⟨_, rfl, ?_⟩
  simp only [Wire.encodeResponse, List.length_append, Wire.length_encodeHeader,
    Wire.length_encode32, ByteOrder.length_encode16]
  omega

/-- The plain codec prints identifiers as assumed. -/
theorem plain_displays : plain.Displays := by
  refine ⟨fun subid => Nat.toDigits 10 subid.toNat, fun subid inside => ?_, fun _ => rfl⟩
  have digit := Nat.isDigit_of_mem_toDigits (by decide) (by decide) inside
  revert digit
  decide

end Codec
end IfStack
