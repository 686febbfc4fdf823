import IfStack.Foundation.OrderedMap
import IfStack.Std.Error
import Mathlib.Data.Finset.Sort

/-! # Observed links and the topology they form

`link.rs`: an inventory of links is checked and turned into the interfaces of the
namespace and their direct stack relationships.
-/

namespace IfStack

open Foundation

/-- The kinds of links that are told apart. -/
inductive LinkKind
  | bond
  | bridge
  | vlan
  | macVlan
  | ipVlan
  | macVtap
  | vxlan
  | veth
  | other
deriving DecidableEq, Repr

/-- One link of an inventory, as the packet decoder reports it. -/
structure ObservedLink where
  index : UInt32
  name : String
  kind : LinkKind
  controller : Option UInt32
  lower : Option UInt32
  lowerNetnsid : Option Int32
  vxlanLower : Option UInt32
deriving DecidableEq, Repr

/-- One interface runs over another. -/
structure StackRelationship where
  higher : UInt32
  lower : UInt32
deriving DecidableEq, Repr

namespace StackRelationship

/-- The derived order: by higher side, then by lower side. -/
instance : LE StackRelationship where
  le first second := first.higher < second.higher ∨
    first.higher = second.higher ∧ first.lower ≤ second.lower

/-- Relationships are ordered by the higher interface, then by the lower one. -/
theorem le_iff {first second : StackRelationship} : first ≤ second ↔
    first.higher < second.higher ∨ first.higher = second.higher ∧ first.lower ≤ second.lower :=
  Iff.rfl

instance (first second : StackRelationship) : Decidable (first ≤ second) :=
  decidable_of_iff' _ le_iff

instance : IsTrans StackRelationship (· ≤ ·) where
  trans first second third := by
    simp only [le_iff, UInt32.lt_iff_toNat_lt, UInt32.le_iff_toNat_le, ← UInt32.toNat_inj]
    omega

instance : Std.Antisymm (α := StackRelationship) (· ≤ ·) where
  antisymm := by
    rintro ⟨higher, lower⟩ ⟨higher', lower'⟩
    simp only [le_iff, UInt32.lt_iff_toNat_lt, UInt32.le_iff_toNat_le, mk.injEq,
      ← UInt32.toNat_inj]
    omega

instance : Std.Total (α := StackRelationship) (· ≤ ·) where
  total first second := by
    simp only [le_iff, UInt32.lt_iff_toNat_lt, UInt32.le_iff_toNat_le, ← UInt32.toNat_inj]
    omega

end StackRelationship

/-- The interfaces of the namespace and their direct stack relationships. -/
@[ext] structure Topology where
  interfaces : Finset UInt32
  relationships : Finset StackRelationship
deriving DecidableEq

namespace Topology

/-- `invalid` of `link.rs`, on the parts of a formatted message. -/
def invalid (message : List MessagePart) : Error := ⟨.invalidData, message⟩

/-- A link as the messages name it: `interface {:?} (index {})`. -/
def named (link : ObservedLink) : List MessagePart :=
  [.text "interface ", .debug link.name, .text " (index ", .display (toString link.index),
    .text ")"]

/-- The links seen so far by `from_observed`, by index and by name. -/
structure Seen where
  byIndex : OrderedMap UInt32 ObservedLink
  byName : OrderedMap String ObservedLink

/-- The first loop of `from_observed`: check a link's identity and enter it. -/
def enter (seen : Seen) (link : ObservedLink) : Except Error Seen :=
  if link.index = 0 ∨ link.index > 2147483647 then
    .error (invalid [.text "interface ", .debug link.name, .text " has invalid index ",
      .display (toString link.index)])
  else if link.name.isEmpty then
    .error (invalid [.text "interface at index ", .display (toString link.index),
      .text " has an empty name"])
  else
    match seen.byIndex.get? link.index with
    | some existing =>
        .error (invalid [.text "interface ", .debug link.name, .text " duplicates index ",
          .display (toString link.index), .text " of interface ", .debug existing.name])
    | none =>
        match seen.byName.get? link.name with
        | some existing =>
            .error (invalid (named link ++ [.text " duplicates the name of interface at index ",
              .display (toString existing.index)]))
        | none =>
            .ok { byIndex := seen.byIndex.insert link.index link,
                  byName := seen.byName.insert link.name link }

/-- The controller of a link, as a relationship when it is a bond or a bridge. -/
def controllerRelationship (byIndex : OrderedMap UInt32 ObservedLink) (link : ObservedLink)
    (relationships : Finset StackRelationship) : Except Error (Finset StackRelationship) :=
  match link.controller with
  | none => .ok relationships
  | some controllerIndex =>
      match byIndex.get? controllerIndex with
      | none =>
          .error (invalid (named link ++ [.text " references unknown controller index ",
            .display (toString controllerIndex)]))
      | some controller =>
          if controller.index = link.index then
            .error (invalid (named link ++ [.text " references itself as controller"]))
          else if controller.kind = .bond ∨ controller.kind = .bridge then
            .ok (insert ⟨controller.index, link.index⟩ relationships)
          else .ok relationships

/-- The lower reference of a VLAN, macvlan, ipvlan or macvtap link. -/
def stackedRelationship (byIndex : OrderedMap UInt32 ObservedLink) (link : ObservedLink)
    (relationships : Finset StackRelationship) : Except Error (Finset StackRelationship) :=
  match link.lower with
  | none => .error (invalid (named link ++ [.text " has no lower sub-layer reference"]))
  | some lower =>
      if link.lowerNetnsid.isSome then
        .error (invalid (named link ++ [.text " references lower sub-layer index ",
          .display (toString lower), .text " in another network namespace"]))
      else if lower = link.index then
        .error (invalid (named link ++ [.text " references itself as lower sub-layer"]))
      else if (byIndex.get? lower).isNone then
        .error (invalid (named link ++ [.text " references unknown lower sub-layer index ",
          .display (toString lower)]))
      else .ok (insert ⟨link.index, lower⟩ relationships)

/-- The underlay of a local VXLAN link; an underlay that is not listed is ignored. -/
def vxlanRelationship (byIndex : OrderedMap UInt32 ObservedLink) (link : ObservedLink)
    (relationships : Finset StackRelationship) : Except Error (Finset StackRelationship) :=
  match link.vxlanLower with
  | none => .ok relationships
  | some lower =>
      if (byIndex.get? lower).isSome then
        if lower = link.index then
          .error (invalid (named link ++ [.text " references itself as lower sub-layer"]))
        else .ok (insert ⟨link.index, lower⟩ relationships)
      else .ok relationships

/-- The second loop of `from_observed`: the relationships a link takes part in as
the lower side of its controller, and as the higher side by its kind. -/
def relate (byIndex : OrderedMap UInt32 ObservedLink) (relationships : Finset StackRelationship)
    (link : ObservedLink) : Except Error (Finset StackRelationship) := do
  let relationships ← controllerRelationship byIndex link relationships
  match link.kind with
  | .vlan | .macVlan | .ipVlan | .macVtap => stackedRelationship byIndex link relationships
  | .vxlan =>
      if link.lowerNetnsid.isNone then vxlanRelationship byIndex link relationships
      else .ok relationships
  | _ => .ok relationships

/-- `Topology::from_observed`. -/
def fromObserved (links : List ObservedLink) : Except Error Topology := do
  let seen ← links.foldlM enter ⟨.empty, .empty⟩
  let relationships ← links.foldlM (relate seen.byIndex) ∅
  return { interfaces := seen.byIndex.keys.toFinset, relationships }

end Topology
end IfStack
