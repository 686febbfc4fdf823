import IfStack.Foundation.OrderedMap
import IfStack.Link.Topology
import IfStack.Mib.Encodings

/-! # The published table

`mib.rs`: the rows of `ifStackTable` as a sorted map from object identifiers to
values, and the lookups of Get and GetNext.
-/

namespace IfStack

open Foundation

/-- `STATUS`: the identifier of the `ifStackStatus` column. -/
def status : List UInt32 := [1, 3, 6, 1, 2, 1, 31, 1, 2, 1, 3]

/-- `STATUS` with its last sub-identifier increased: the first identifier after
everything the column's identifier is a prefix of. -/
def following : List UInt32 := status.modify 10 (· + 1)

/-- The sub-identifiers that name a row. -/
def rowName (row : UInt32 × UInt32) : List UInt32 := status ++ [row.1, row.2]

/-- The published table. -/
structure Mib (ID : Type) [AgentxId ID] where
  rows : OrderedMap ID (Value ID)

section

variable {ID : Type} [AgentxId ID]

/-- `binding`: a result names what was looked up, with the `include` flag cleared. -/
def binding (name : ID) (data : Value ID) : VarBind ID :=
  ⟨AgentxId.withIncluded name 0, data⟩

namespace Mib

/-- `Mib::from_rows`. -/
def fromRows (rows : List (UInt32 × UInt32)) : Mib ID :=
  ⟨OrderedMap.collect (rows.map fun row => (AgentxId.ofSubids (rowName row), .integer 1))⟩

/-- The rows of a topology: its relationships, and the boundary rows of the
interfaces that are the lower or the higher side of none. -/
def topologyRows (topology : Topology) : List (UInt32 × UInt32) :=
  let relationships := topology.relationships.sort (· ≤ ·)
  let higher := topology.relationships.image StackRelationship.higher
  let lower := topology.relationships.image StackRelationship.lower
  relationships.map (fun relationship => (relationship.higher, relationship.lower)) ++
    (topology.interfaces.sort (· ≤ ·)).flatMap fun index =>
      (if index ∈ lower then [] else [(0, index)]) ++ (if index ∈ higher then [] else [(index, 0)])

/-- `Mib::from_topology`. -/
def fromTopology (topology : Topology) : Mib ID := fromRows (topologyRows topology)

/-- `Mib::get`. -/
def get (mib : Mib ID) (name : ID) : VarBind ID :=
  binding name ((mib.rows.get? name).getD
    (if (compare name (AgentxId.ofSubids status)).isGE ∧
        (compare name (AgentxId.ofSubids following)).isLT then .noSuchInstance
      else .noSuchObject))

/-- The lower bound of a range: its start, itself included when the flag says so. -/
def fromStart (start : ID) (name : ID) : Bool :=
  if AgentxId.included start = 1 then (compare start name).isLE else (compare start name).isLT

/-- `Mib::get_next`. -/
def getNext (mib : Mib ID) (range : SearchRange ID) : VarBind ID :=
  match mib.rows.firstFrom (fromStart range.start) with
  | some (name, data) =>
      if AgentxId.isNull range.stop ∨ (compare name range.stop).isLT then binding name data
      else binding range.start .endOfMibView
  | none => binding range.start .endOfMibView

end Mib
end
end IfStack
