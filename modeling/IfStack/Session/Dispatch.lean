import IfStack.Foundation.Fold
import IfStack.Mib.Bulk
import IfStack.Monitor.Run
import IfStack.Session.Pdu

/-! # Dispatch of requests

`dispatch` of `session.rs`: a request of the registered session is checked and then
answered, a read request from one snapshot of the published table. The publisher may
take any steps before the snapshot.
-/

namespace IfStack

open Foundation

/-- `MAX_OID_SUBIDS`. -/
def maxOidSubids : Nat := 128

/-- `NOT_WRITABLE`. -/
def notWritable : UInt16 := 17

/-- `COMMIT_FAILED`. -/
def commitFailed : UInt16 := 14

/-- `UNDO_FAILED`. -/
def undoFailed : UInt16 := 15

section

variable {ID : Type} [AgentxId ID]

/-- What the monitor does to the published cell. -/
inductive PublisherStep (ID : Type) [AgentxId ID]
  | publish (mib : Mib ID)
  | unavailable

/-- A step of `TablePublisher`. -/
def PublisherStep.apply (publication : Publication ID) : PublisherStep ID → Publication ID
  | .publish mib => publication.publish mib
  | .unavailable => publication.unavailable

/-- `TableReader`: the published cell, and the steps that the publisher takes before
each of the snapshots to come. -/
structure TableReader (ID : Type) [AgentxId ID] where
  publication : Publication ID
  upcoming : List (List (PublisherStep ID))

namespace TableReader

/-- The cell at the moment of the next snapshot. -/
def published (tables : TableReader ID) : Publication ID :=
  (tables.upcoming.headD []).foldl PublisherStep.apply tables.publication

/-- `TableReader::snapshot`. -/
def snapshot (tables : TableReader ID) : Option (Mib ID) × TableReader ID :=
  (tables.published.snapshot, ⟨tables.published, tables.upcoming.tail⟩)

end TableReader

namespace Codec

variable (codec : Codec ID)

/-- `validate_oid`. -/
def validateOid (oid : ID) : Except Error Unit :=
  if maxOidSubids < ((codec.display oid).splitOn '.').length then
    .error (.invalid "OID exceeds 128 sub-identifiers")
  else .ok ()

/-- The ranges of a read request, and the counts of a GetBulk. -/
def readRequest (header : Header) (bytes : List UInt8) :
    Except Error (List (SearchRange ID) × Option (UInt16 × UInt16)) := do
  if header.ty = .getBulk then
    let request ← codec.getBulkFromBytes bytes
    return (request.ranges, some (request.nonRepeaters, request.maxRepetitions))
  else
    let ranges ← codec.getFromBytes bytes
    return (ranges, none)

/-- The checks of a read request. -/
def validateRanges (ranges : List (SearchRange ID)) : Except Error Unit := do
  ranges.forM fun range => do
    codec.validateOid range.start
    codec.validateOid range.stop
  if ranges.any fun range => 1 < AgentxId.included range.start then
    .error (.invalid "invalid SearchRange include flag")
  else .ok ()

/-- The bindings of a read request, from one table. -/
def readBindings (header : Header) (mib : Mib ID) (ranges : List (SearchRange ID)) :
    Option (UInt16 × UInt16) → List (VarBind ID)
  | some (nonRepeaters, maxRepetitions) => mib.getBulk ranges nonRepeaters maxRepetitions
  | none => ranges.map fun range =>
      if header.ty = .get then mib.get range.start else mib.getNext range

/-- The checks of a TestSet request. -/
def validateBindings (bindings : List (VarBind ID)) : Except Error Unit :=
  bindings.forM fun binding => do
    codec.validateOid binding.name
    match binding.data with
    | .objectIdentifier value => codec.validateOid value
    | _ => .ok ()

/-- `dispatch`, with the reader as it leaves it. -/
def dispatch (header : Header) (bytes : List UInt8) (tables : TableReader ID) :
    Except Error (Response ID × Option UInt16) × TableReader ID :=
  let response := codec.reply header
  if header.flags &&& nonDefaultContext ≠ 0 then
    (.ok ({ response with resError := .unsupportedContext }, none), tables)
  else
    match header.ty with
    | .get | .getNext | .getBulk =>
        match codec.readRequest header bytes with
        | .error error => (.error error, tables)
        | .ok (ranges, bulk) =>
            match codec.validateRanges ranges with
            | .error error => (.error error, tables)
            | .ok () =>
                match tables.snapshot with
                | (some mib, tables) =>
                    let bindings := readBindings header mib ranges bulk
                    (.ok ({ response with vb := some bindings }, none), tables)
                | (none, tables) =>
                    (.ok ({ response with resError := .processingError }, none), tables)
    | .testSet =>
        match codec.testSetFromBytes bytes with
        | .error error => (.error error, tables)
        | .ok bindings =>
            match codec.validateBindings bindings with
            | .error error => (.error error, tables)
            | .ok () =>
                if bindings.isEmpty then (.ok (response, none), tables)
                else (.ok ({ response with resIndex := 1 }, some notWritable), tables)
    | .commitSet | .undoSet =>
        if header.payloadLength ≠ 0 then
          (.error (.invalid "Set phase has a payload"), tables)
        else
          (.ok (response, some (if header.ty = .commitSet then commitFailed else undoFailed)),
            tables)
    | .ping =>
        match codec.pingFromBytes bytes with
        | .error error => (.error error, tables)
        | .ok () => (.ok (response, none), tables)
    | _ => (.ok ({ response with resError := .requestDenied }, none), tables)

end Codec
end
end IfStack
