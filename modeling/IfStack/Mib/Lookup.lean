import IfStack.Mib.Rows

/-! # What Get answers

`Mib::get` tells three cases apart: a row of the table, another name under the
column, and any other name. It looks a row up by its key and takes the names under
the column to be those between two bounds. GetNext, asked for a name or what
follows it, finds the name exactly when Get does.
-/

namespace IfStack

open Foundation

/-- The names under the column lie between its identifier and the one that follows. -/
theorem status_prefix_iff (name : List UInt32) :
    status <+: name ↔ (compare name status).isGE ∧ (compare name following).isLT := by
  have covers : (3 : Nat) ⋖ 4 := ⟨by decide, fun _ above below => by omega⟩
  have between := prefix_iff_between covers [1, 3, 6, 1, 2, 1, 31, 1, 2, 1]
    (name.map UInt32.toNat)
  have raised : status.map UInt32.toNat <+: name.map UInt32.toNat ↔ status <+: name :=
    List.prefix_map_iff_of_injective fun _ _ => UInt32.toNat_inj.mp
  rw [Ordering.isGE_iff_ne_lt, Ordering.isLT_iff_eq_lt, compare_eq_lt_iff,
    compare_eq_lt_iff, not_lt, ← raised]
  exact between

namespace Mib

variable {ID : Type} [AgentxId ID] [LawfulAgentxId ID]

/-- The value at a name is 1 where the name is that of a row, and there is none
elsewhere. -/
theorem get?_fromRows (rows : List (UInt32 × UInt32)) (name : ID) :
    (fromRows rows : Mib ID).rows.get? name =
      if ∃ row ∈ rows, LawfulAgentxId.components name = rowName row then some (.integer 1)
      else none := by
  have keyed (key : ID) : compare name key = .eq ↔
      LawfulAgentxId.components name = LawfulAgentxId.components key := by
    rw [LawfulAgentxId.compare_eq, Std.compare_eq_iff_eq]
  cases found : (fromRows rows : Mib ID).rows.get? name with
  | none =>
      rw [if_neg]
      intro ⟨row, listed, named⟩
      have present : (fromRows rows : Mib ID).HasRow row := hasRow_fromRows.mpr listed
      obtain ⟨entry, member, same, _⟩ := present
      exact OrderedMap.get?_eq_none found entry member ((keyed _).mpr (named.trans same.symm))
  | some data =>
      obtain ⟨entry, member, same, rfl⟩ := OrderedMap.get?_eq_some found
      obtain ⟨⟨row, listed, named⟩, value⟩ := entries_fromRows rows entry member
      rw [if_pos, value]
      exact ⟨row, listed, ((keyed _).mp same).trans (numbers_eq_iff.mp named.symm)⟩

/-- Get finds the value 1 at the rows, and elsewhere tells the column from the rest. -/
theorem get_spec (rows : List (UInt32 × UInt32)) (name : ID) :
    (fromRows rows).get name = binding name
      (if ∃ row ∈ rows, LawfulAgentxId.components name = rowName row then .integer 1
        else if status <+: LawfulAgentxId.components name then .noSuchInstance
        else .noSuchObject) := by
  have short : following.length ≤ 128 := by decide
  have short' : status.length ≤ 128 := by decide
  rw [get, get?_fromRows, LawfulAgentxId.compare_eq, LawfulAgentxId.compare_eq,
    LawfulAgentxId.components_ofSubids _ short, LawfulAgentxId.components_ofSubids _ short']
  simp only [← status_prefix_iff]
  split <;> rfl

/-- GetNext from a name on finds a row of this name, when there is one, unless the
range ends before. -/
theorem getNext_spec_at (rows : List (UInt32 × UInt32)) (range : SearchRange ID)
    (inclusive : AgentxId.included range.start = 1)
    (below : AgentxId.isNull range.stop = true ∨ compare range.start range.stop = .lt) :
    (LawfulAgentxId.components ((fromRows rows).getNext range).name =
        LawfulAgentxId.components range.start ∧
      ((fromRows rows).getNext range).data = .integer 1) ↔
    ∃ row ∈ rows, LawfulAgentxId.components range.start = rowName row := by
  have named : (fromRows rows : Mib ID).names = rowNames rows := names_fromRows rows
  have above : numbers range.start ∈ range.floor := by
    rw [SearchRange.mem_floor, if_pos inclusive]
  have under : numbers range.start ∈ range.ceiling := below.imp_right compare_ids_lt_iff.mp
  rcases getNext_spec (fromRows rows) range with ⟨entry, member, found, least⟩ | ⟨ended, none⟩
  · obtain ⟨⟨row, listed, same⟩, value⟩ := entries_fromRows rows entry member
    rw [found, value]
    constructor
    · intro ⟨here, _⟩
      rw [binding, LawfulAgentxId.components_withIncluded] at here
      exact ⟨row, listed, here.symm.trans (numbers_eq_iff.mp same.symm)⟩
    · intro ⟨other, present, here⟩
      have here' := numbers_eq_iff.mpr here
      have reached : numbers range.start ∈ (fromRows rows : Mib ID).names := by
        rw [named]
        exact ⟨other, present, here'.symm⟩
      have lowest := least.2 ⟨reached, above, under⟩
      have floor := least.1.2.1
      rw [SearchRange.mem_floor, if_pos inclusive] at floor
      refine ⟨?_, rfl⟩
      rw [binding, LawfulAgentxId.components_withIncluded]
      exact (numbers_eq_iff.mp ((le_antisymm lowest floor).trans here')).trans here.symm
  · rw [ended]
    constructor
    · intro ⟨_, value⟩
      cases value
    · intro ⟨row, listed, here⟩
      have reached : numbers range.start ∈ (fromRows rows : Mib ID).names := by
        rw [named]
        exact ⟨row, listed, (numbers_eq_iff.mpr here).symm⟩
      exact absurd under (none _ reached above)

/-- The three answers of Get. -/
theorem get_data (rows : List (UInt32 × UInt32)) (name : ID) :
    (((fromRows rows).get name).data = .integer 1 ↔
      ∃ row ∈ rows, LawfulAgentxId.components name = rowName row) ∧
    (((fromRows rows).get name).data = .noSuchInstance ↔
      (¬ ∃ row ∈ rows, LawfulAgentxId.components name = rowName row) ∧
        status <+: LawfulAgentxId.components name) ∧
    (((fromRows rows).get name).data = .noSuchObject ↔
      (¬ ∃ row ∈ rows, LawfulAgentxId.components name = rowName row) ∧
        ¬ status <+: LawfulAgentxId.components name) := by
  rw [get_spec, binding]
  by_cases listed : ∃ row ∈ rows, LawfulAgentxId.components name = rowName row
  · simp [listed]
  · by_cases under : status <+: LawfulAgentxId.components name
    · simp [listed, under]
    · simp [listed, under]

/-- **Classification.** Get answers a name with 1 exactly when it is the column's
identifier and the two sides of a row, with `noSuchInstance` exactly at the other
names under the column, and with `noSuchObject` at the rest. It answers 1 exactly
when GetNext, from the name on and with no end or a later one, answers the name
and 1. -/
theorem get_classifies (rows : List (UInt32 × UInt32)) (name : ID) :
    (((fromRows rows).get name).data = .integer 1 ↔
      ∃ row ∈ rows, LawfulAgentxId.components name = rowName row) ∧
    (((fromRows rows).get name).data = .noSuchInstance ↔
      (¬ ∃ row ∈ rows, LawfulAgentxId.components name = rowName row) ∧
        status <+: LawfulAgentxId.components name) ∧
    (((fromRows rows).get name).data = .noSuchObject ↔
      (¬ ∃ row ∈ rows, LawfulAgentxId.components name = rowName row) ∧
        ¬ status <+: LawfulAgentxId.components name) ∧
    ∀ range : SearchRange ID,
      LawfulAgentxId.components range.start = LawfulAgentxId.components name →
      AgentxId.included range.start = 1 →
      (AgentxId.isNull range.stop = true ∨ compare name range.stop = .lt) →
        (((fromRows rows).get name).data = .integer 1 ↔
          LawfulAgentxId.components ((fromRows rows).getNext range).name =
              LawfulAgentxId.components name ∧
            ((fromRows rows).getNext range).data = .integer 1) := by
  obtain ⟨found, missing, foreign⟩ := get_data rows name
  refine ⟨found, missing, foreign, fun range same inclusive below => ?_⟩
  rw [found, ← same, getNext_spec_at rows range inclusive]
  rw [LawfulAgentxId.compare_eq, same, ← LawfulAgentxId.compare_eq]
  exact below

end Mib
end IfStack
