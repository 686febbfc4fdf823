import IfStack.Link.Validity
import IfStack.Mib.Walk

/-! # The rows of a published topology

The interface stack as a set of rows: a row for every relationship, and for every
interface a row with a zero for each side on which nothing stands. The table that
is published for an accepted inventory holds exactly these rows, and the topology
can be read back from them.
-/

namespace IfStack

open Foundation

namespace Topology

/-- The rows of the interface stack. A zero stands for the side that is missing. -/
def StackRow (topology : Topology) (row : UInt32 × UInt32) : Prop :=
  ⟨row.1, row.2⟩ ∈ topology.relationships ∨
  (row.1 = 0 ∧ row.2 ∈ topology.interfaces ∧
    ∀ relationship ∈ topology.relationships, relationship.lower ≠ row.2) ∨
  (row.2 = 0 ∧ row.1 ∈ topology.interfaces ∧
    ∀ relationship ∈ topology.relationships, relationship.higher ≠ row.1)

/-- A topology without an index zero, whose relationships are between different
interfaces of its own. -/
structure Grounded (topology : Topology) : Prop where
  nonzero : ∀ index ∈ topology.interfaces, index ≠ 0
  higher : ∀ relationship ∈ topology.relationships, relationship.higher ∈ topology.interfaces
  lower : ∀ relationship ∈ topology.relationships, relationship.lower ∈ topology.interfaces
  distinct : ∀ relationship ∈ topology.relationships, relationship.higher ≠ relationship.lower

/-- Every accepted topology is grounded. -/
theorem grounded_of_accepted {links : List ObservedLink} {topology : Topology}
    (accepted : fromObserved links = .ok topology) : topology.Grounded := by
  obtain ⟨valid, interfaces, relationships⟩ := (fromObserved_spec links).of_eq_ok accepted
  have endpoints (relationship : StackRelationship)
      (member : relationship ∈ topology.relationships) :=
    valid.endpoints ((relationships relationship).mp member)
  refine ⟨fun index member zero => ?_, ?_, ?_, ?_⟩
  · obtain ⟨link, listed, rfl⟩ := (interfaces index).mp member
    have least := (valid.identified link listed).1
    rw [zero] at least
    exact absurd least (by decide)
  · exact fun relationship member => (interfaces _).mpr (endpoints relationship member).1
  · exact fun relationship member => (interfaces _).mpr (endpoints relationship member).2.1
  · exact fun relationship member => (endpoints relationship member).2.2

section

variable {topology other : Topology} {row : UInt32 × UInt32}

/-- A row with two nonzero sides is a relationship. -/
theorem Grounded.stackRow_iff (grounded : topology.Grounded) {higher lower : UInt32} :
    topology.StackRow (higher, lower) ∧ higher ≠ 0 ∧ lower ≠ 0 ↔
      ⟨higher, lower⟩ ∈ topology.relationships := by
  constructor
  · intro ⟨stacked, above, below⟩
    rcases stacked with related | ⟨zero, _⟩ | ⟨zero, _⟩
    · exact related
    · exact absurd zero above
    · exact absurd zero below
  · intro related
    exact ⟨Or.inl related, grounded.nonzero _ (grounded.higher _ related),
      grounded.nonzero _ (grounded.lower _ related)⟩

/-- A nonzero side of a row is an interface. -/
theorem Grounded.mem_of_stackRow (grounded : topology.Grounded) (stacked : topology.StackRow row) :
    (row.1 ≠ 0 → row.1 ∈ topology.interfaces) ∧ (row.2 ≠ 0 → row.2 ∈ topology.interfaces) := by
  rcases stacked with related | ⟨zero, listed, _⟩ | ⟨zero, listed, _⟩
  · exact ⟨fun _ => grounded.higher _ related, fun _ => grounded.lower _ related⟩
  · exact ⟨fun above => absurd zero above, fun _ => listed⟩
  · exact ⟨fun _ => listed, fun below => absurd zero below⟩

/-- No row has the same on both sides. -/
theorem Grounded.not_diagonal (grounded : topology.Grounded) (index : UInt32) :
    ¬ topology.StackRow (index, index) := by
  intro stacked
  rcases stacked with related | ⟨zero, listed, _⟩ | ⟨zero, listed, _⟩
  · exact grounded.distinct _ related rfl
  · exact grounded.nonzero index listed zero
  · exact grounded.nonzero index listed zero

/-- Every interface is the lower side of a row. -/
theorem exists_lower {index : UInt32} (listed : index ∈ topology.interfaces) :
    ∃ higher, topology.StackRow (higher, index) := by
  by_cases covered : ∃ relationship ∈ topology.relationships, relationship.lower = index
  · obtain ⟨relationship, related, rfl⟩ := covered
    exact ⟨relationship.higher, Or.inl related⟩
  · refine ⟨0, Or.inr (Or.inl ⟨rfl, listed, fun relationship related same => covered ?_⟩)⟩
    exact ⟨relationship, related, same⟩

/-- Every interface is the higher side of a row. -/
theorem exists_higher {index : UInt32} (listed : index ∈ topology.interfaces) :
    ∃ lower, topology.StackRow (index, lower) := by
  by_cases covers : ∃ relationship ∈ topology.relationships, relationship.higher = index
  · obtain ⟨relationship, related, rfl⟩ := covers
    exact ⟨relationship.lower, Or.inl related⟩
  · refine ⟨0, Or.inr (Or.inr ⟨rfl, listed, fun relationship related same => covers ?_⟩)⟩
    exact ⟨relationship, related, same⟩

/-- The interfaces are the nonzero sides of the rows. -/
theorem Grounded.mem_interfaces_iff (grounded : topology.Grounded) {index : UInt32} :
    index ∈ topology.interfaces ↔
      index ≠ 0 ∧ ∃ row, topology.StackRow row ∧ (row.1 = index ∨ row.2 = index) := by
  constructor
  · intro listed
    obtain ⟨higher, stacked⟩ := exists_lower listed
    exact ⟨grounded.nonzero index listed, _, stacked, Or.inr rfl⟩
  · intro ⟨nonzero, row, stacked, side⟩
    rcases side with rfl | rfl
    · exact (grounded.mem_of_stackRow stacked).1 nonzero
    · exact (grounded.mem_of_stackRow stacked).2 nonzero

/-- Grounded topologies with the same rows are the same. -/
theorem Grounded.eq_of_stackRow (grounded : topology.Grounded) (grounded' : other.Grounded)
    (same : ∀ row, topology.StackRow row ↔ other.StackRow row) : topology = other := by
  ext element
  · rw [grounded.mem_interfaces_iff, grounded'.mem_interfaces_iff]
    simp only [same]
  · rw [← grounded.stackRow_iff, ← grounded'.stackRow_iff, same]

end
end Topology

namespace Mib

/-- The boundary rows of one interface. -/
theorem mem_boundary {relationships : Finset StackRelationship} {index : UInt32}
    {row : UInt32 × UInt32} :
    row ∈ (if index ∈ relationships.image StackRelationship.lower then [] else [(0, index)]) ++
        (if index ∈ relationships.image StackRelationship.higher then [] else [(index, 0)]) ↔
      (row = (0, index) ∧ ∀ relationship ∈ relationships, relationship.lower ≠ index) ∨
      (row = (index, 0) ∧ ∀ relationship ∈ relationships, relationship.higher ≠ index) := by
  have sided (side : StackRelationship → UInt32) :
      index ∉ relationships.image side ↔
        ∀ relationship ∈ relationships, side relationship ≠ index := by
    simp only [Finset.mem_image, not_exists, not_and, ne_eq]
  rw [← sided, ← sided, List.mem_append]
  by_cases below : index ∈ relationships.image StackRelationship.lower <;>
    by_cases above : index ∈ relationships.image StackRelationship.higher <;>
    simp [below, above]

/-- The rows listed for a topology are its rows. -/
theorem mem_topologyRows {topology : Topology} {row : UInt32 × UInt32} :
    row ∈ topologyRows topology ↔ topology.StackRow row := by
  rw [topologyRows, List.mem_append, List.mem_map, List.mem_flatMap]
  simp only [Finset.mem_sort, mem_boundary]
  apply or_congr
  · constructor
    · intro ⟨relationship, related, same⟩
      exact same ▸ related
    · intro related
      exact ⟨_, related, rfl⟩
  · constructor
    · intro ⟨index, listed, side⟩
      rcases side with ⟨rfl, bare⟩ | ⟨rfl, bare⟩
      · exact Or.inl ⟨rfl, listed, bare⟩
      · exact Or.inr ⟨rfl, listed, bare⟩
    · intro side
      rcases side with ⟨zero, listed, bare⟩ | ⟨zero, listed, bare⟩
      · exact ⟨row.2, listed, Or.inl ⟨Prod.ext zero rfl, bare⟩⟩
      · exact ⟨row.1, listed, Or.inr ⟨Prod.ext rfl zero, bare⟩⟩

/-- No row of a grounded topology is listed twice. -/
theorem nodup_topologyRows {topology : Topology} (grounded : topology.Grounded) :
    (topologyRows topology).Nodup := by
  rw [topologyRows, List.nodup_append, List.nodup_flatMap]
  refine ⟨?_, ⟨?_, ?_⟩, ?_⟩
  · apply (Finset.sort_nodup _ _).map
    intro ⟨higher, lower⟩ ⟨higher', lower'⟩ same
    cases same
    rfl
  · intro index listed
    have nonzero := grounded.nonzero index ((Finset.mem_sort _).mp listed)
    split <;> split <;> simp [nonzero, Ne.symm nonzero]
  · refine (Finset.sort_nodup _ _).imp_of_mem fun {first second} inside inside' differ => ?_
    have nonzero := grounded.nonzero first ((Finset.mem_sort _).mp inside)
    have nonzero' := grounded.nonzero second ((Finset.mem_sort _).mp inside')
    apply List.disjoint_left.mpr
    intro row listed listed'
    rcases mem_boundary.mp listed with ⟨rfl, _⟩ | ⟨rfl, _⟩ <;>
      rcases mem_boundary.mp listed' with ⟨same, _⟩ | ⟨same, _⟩ <;>
      simp_all
  · intro related listed boundary listed' same
    obtain ⟨relationship, member, rfl⟩ := List.mem_map.mp listed
    obtain ⟨index, _, side⟩ := List.mem_flatMap.mp listed'
    have present := (Finset.mem_sort _).mp member
    have above := grounded.nonzero _ (grounded.higher _ present)
    have below := grounded.nonzero _ (grounded.lower _ present)
    subst same
    rcases mem_boundary.mp side with ⟨zero, _⟩ | ⟨zero, _⟩
    · exact above (congrArg Prod.fst zero)
    · exact below (congrArg Prod.snd zero)

section

variable {ID : Type} [AgentxId ID] [LawfulAgentxId ID]

/-- A table has a row: an entry with the name of the row and the value 1. -/
def HasRow (mib : Mib ID) (row : UInt32 × UInt32) : Prop :=
  ∃ entry ∈ mib.rows.entries,
    LawfulAgentxId.components entry.1 = rowName row ∧ entry.2 = .integer 1

/-- Equal numbers are equal sub-identifiers. -/
theorem numbers_eq_iff {name : ID} {row : UInt32 × UInt32} :
    numbers name = rowNumbers row ↔ LawfulAgentxId.components name = rowName row :=
  List.map_inj_right fun _ _ => UInt32.toNat_inj.mp

/-- Rows have different names. -/
theorem rowName_inj {first second : UInt32 × UInt32} :
    rowName first = rowName second ↔ first = second := by
  obtain ⟨higher, lower⟩ := first
  obtain ⟨higher', lower'⟩ := second
  simp [rowName]

/-- A table built from rows has just these. -/
theorem hasRow_fromRows {rows : List (UInt32 × UInt32)} {row : UInt32 × UInt32} :
    (fromRows rows : Mib ID).HasRow row ↔ row ∈ rows := by
  constructor
  · intro ⟨entry, member, named, _⟩
    obtain ⟨⟨other, listed, same⟩, _⟩ := entries_fromRows rows entry member
    rw [numbers_eq_iff.mp same.symm, rowName_inj] at named
    exact named ▸ listed
  · intro listed
    have present : rowNumbers row ∈ (fromRows rows : Mib ID).names := by
      rw [names_fromRows]
      exact ⟨row, listed, rfl⟩
    obtain ⟨entry, member, named⟩ := present
    exact ⟨entry, member, numbers_eq_iff.mp named, (entries_fromRows rows entry member).2⟩

/-- Different rows have different keys. -/
theorem compare_rowName_ne {first second : UInt32 × UInt32} (differ : first ≠ second) :
    compare (AgentxId.ofSubids (rowName second) : ID)
      (AgentxId.ofSubids (rowName first)) ≠ .eq := by
  have short (row : UInt32 × UInt32) : (rowName row).length ≤ 128 := (by decide : 13 ≤ 128)
  rw [LawfulAgentxId.compare_eq, LawfulAgentxId.components_ofSubids _ (short second),
    LawfulAgentxId.components_ofSubids _ (short first), ne_eq, Std.compare_eq_iff_eq, rowName_inj]
  exact Ne.symm differ

/-- What a table says of a topology when it encodes its interface stack. -/
structure Encodes (mib : Mib ID) (topology : Topology) : Prop where
  /-- The rows are those of the stack. -/
  rows : ∀ row, mib.HasRow row ↔ topology.StackRow row
  /-- There are no other entries. -/
  entries : ∀ entry ∈ mib.rows.entries, ∃ row, topology.StackRow row ∧
    LawfulAgentxId.components entry.1 = rowName row ∧ entry.2 = .integer 1
  diagonal : ∀ index, ¬ mib.HasRow (index, index)
  higher : ∀ row, mib.HasRow row → row.1 ≠ 0 → row.1 ∈ topology.interfaces
  lower : ∀ row, mib.HasRow row → row.2 ≠ 0 → row.2 ∈ topology.interfaces
  covered : ∀ index ∈ topology.interfaces,
    (∃ higher, mib.HasRow (higher, index)) ∧ ∃ lower, mib.HasRow (index, lower)
  /-- The interfaces are the nonzero sides. -/
  interfaces : ∀ index, index ∈ topology.interfaces ↔
    index ≠ 0 ∧ ∃ row, mib.HasRow row ∧ (row.1 = index ∨ row.2 = index)
  /-- The relationships are the rows with two nonzero sides. -/
  relationships : ∀ relationship, relationship ∈ topology.relationships ↔
    mib.HasRow (relationship.higher, relationship.lower) ∧
      relationship.higher ≠ 0 ∧ relationship.lower ≠ 0

/-- The table of a grounded topology encodes it. -/
theorem encodes_of_grounded {topology : Topology} (grounded : topology.Grounded) :
    (fromTopology topology : Mib ID).Encodes topology := by
  have rows (row : UInt32 × UInt32) :
      (fromTopology topology : Mib ID).HasRow row ↔ topology.StackRow row :=
    hasRow_fromRows.trans mem_topologyRows
  refine ⟨rows, fun entry member => ?_, fun index => ?_, fun row => ?_, fun row => ?_,
    fun index => ?_, fun index => ?_, fun relationship => ?_⟩
  · obtain ⟨⟨row, listed, same⟩, value⟩ := entries_fromRows (topologyRows topology) entry member
    exact ⟨row, mem_topologyRows.mp listed, numbers_eq_iff.mp same.symm, value⟩
  · rw [rows]
    exact grounded.not_diagonal index
  · rw [rows]
    exact fun stacked => (grounded.mem_of_stackRow stacked).1
  · rw [rows]
    exact fun stacked => (grounded.mem_of_stackRow stacked).2
  · simp only [rows]
    exact fun listed => ⟨Topology.exists_lower listed, Topology.exists_higher listed⟩
  · simp only [rows]
    exact grounded.mem_interfaces_iff
  · rw [rows]
    exact grounded.stackRow_iff.symm

/-- **Encoding.** The table published for an accepted inventory encodes its interface
stack. No two rows fall on one key, and another accepted inventory has the same table
only if it has the same topology. -/
theorem fromTopology_encodes {links : List ObservedLink} {topology : Topology}
    (accepted : Topology.fromObserved links = .ok topology) :
    (fromTopology topology : Mib ID).Encodes topology ∧
    (topologyRows topology).Nodup ∧
    (fromTopology topology : Mib ID).rows.entries.length = (topologyRows topology).length ∧
    ∀ (others : List ObservedLink) (other : Topology),
      Topology.fromObserved others = .ok other →
        (fromTopology other : Mib ID) = fromTopology topology → other = topology := by
  have grounded := Topology.grounded_of_accepted accepted
  have distinct := nodup_topologyRows grounded
  have encodes : (fromTopology topology : Mib ID).Encodes topology := encodes_of_grounded grounded
  refine ⟨encodes, distinct, ?_, fun others other accepted' same => ?_⟩
  · rw [fromTopology, fromRows, OrderedMap.length_collect, List.length_map]
    exact List.pairwise_map.mpr (distinct.imp compare_rowName_ne)
  · have grounded' := Topology.grounded_of_accepted accepted'
    have encodes' : (fromTopology other : Mib ID).Encodes other := encodes_of_grounded grounded'
    apply grounded'.eq_of_stackRow grounded
    intro row
    rw [← encodes.rows, ← encodes'.rows, same]

end

/-- The table of a bond has the row over its port, and no row of the bond over itself. -/
theorem fromTopology_encodes_bonded :
    ∃ topology, Topology.fromObserved ObservedLink.bonded = .ok topology ∧
      (fromTopology topology : Mib PlainId).HasRow (9, 3) ∧
      ¬ (fromTopology topology : Mib PlainId).HasRow (9, 9) := by
  have accepts : (Topology.fromObserved ObservedLink.bonded).toOption =
      some ⟨{3, 9}, {⟨9, 3⟩}⟩ := by decide +kernel
  cases accepted : Topology.fromObserved ObservedLink.bonded with
  | error error =>
      rw [accepted] at accepts
      cases accepts
  | ok topology =>
      rw [accepted] at accepts
      cases accepts
      have encodes := (@fromTopology_encodes PlainId _ _ _ _ accepted).1
      refine ⟨_, rfl, ?_, encodes.diagonal 9⟩
      exact ((encodes.relationships ⟨9, 3⟩).mp (Finset.mem_singleton_self _)).1

end Mib
end IfStack
