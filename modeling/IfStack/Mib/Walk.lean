import IfStack.Foundation.Walk
import IfStack.Mib.Table
import Mathlib.Data.Finset.Sort
import Mathlib.Data.List.Lex

/-! # Walks over a republished table

A manager walks the table with GetNext, each request starting at the name the one
before returned. Tables may be published in between. The walk is still one through
changing sets of names, in the lexicographic order of their numbers.
-/

namespace IfStack

open Foundation

/-- Sub-identifier sequences compare as their numbers do. -/
theorem compare_eq_lt_iff (first second : List UInt32) :
    compare first second = .lt ↔ first.map UInt32.toNat < second.map UInt32.toNat := by
  induction first generalizing second with
  | nil => cases second <;> simp
  | cons head first ih =>
      cases second with
      | nil => simp
      | cons other second =>
          rw [List.compare_cons_cons, Ordering.then_eq_lt, List.map_cons, List.map_cons,
            List.cons_lt_cons_iff, ih]
          simp only [Std.compare_eq_lt, UInt32.lt_iff_toNat_lt, Std.compare_eq_iff_eq,
            UInt32.toNat_inj]

/-- The numbers that name a row. -/
def rowNumbers (row : UInt32 × UInt32) : List Nat := (rowName row).map UInt32.toNat

/-- Rows are named in the order of their higher, then of their lower sides. -/
theorem rowNumbers_lt_iff {first second : UInt32 × UInt32} :
    rowNumbers first < rowNumbers second ↔
      first.1 < second.1 ∨ first.1 = second.1 ∧ first.2 < second.2 := by
  simp only [rowNumbers, rowName, status, List.cons_append, List.nil_append, List.map_cons,
    List.map_nil, List.cons_lt_cons_iff, lt_irrefl, true_and, false_or, UInt32.lt_iff_toNat_lt,
    UInt32.toNat_inj, and_false, or_false]

/-- The names of some rows. -/
def rowNames (rows : List (UInt32 × UInt32)) : Set (List Nat) :=
  {name | ∃ row ∈ rows, rowNumbers row = name}

section

variable {ID : Type} [AgentxId ID] [LawfulAgentxId ID]

/-- The numbers an identifier stands for. -/
def numbers (id : ID) : List Nat := (LawfulAgentxId.components id).map UInt32.toNat

@[simp] theorem numbers_withIncluded (id : ID) (flag : UInt8) :
    numbers (AgentxId.withIncluded id flag) = numbers id := by
  rw [numbers, LawfulAgentxId.components_withIncluded, numbers]

/-- Identifiers are compared by their numbers. -/
theorem compare_ids_lt_iff {first second : ID} :
    compare first second = .lt ↔ numbers first < numbers second := by
  rw [LawfulAgentxId.compare_eq, compare_eq_lt_iff]
  rfl

/-- An identifier is not after another when its numbers are not. -/
theorem compare_ids_isLE_iff {first second : ID} :
    (compare first second).isLE ↔ numbers first ≤ numbers second := by
  rw [← not_lt, ← compare_ids_lt_iff, Ordering.isLE_iff_ne_gt]
  exact not_congr Std.OrientedCmp.gt_iff_lt

namespace SearchRange

/-- The names at or above the start of a range, the start itself only if its flag
includes it. -/
def floor (range : SearchRange ID) : Set (List Nat) :=
  {name | if AgentxId.included range.start = 1 then numbers range.start ≤ name
    else numbers range.start < name}

/-- The names below the end of a range, if it has one. -/
def ceiling (range : SearchRange ID) : Set (List Nat) :=
  {name | AgentxId.isNull range.stop = true ∨ name < numbers range.stop}

/-- A name is in the floor of a range when it is after its start, or is its start. -/
theorem mem_floor {range : SearchRange ID} {name : List Nat} :
    name ∈ range.floor ↔ if AgentxId.included range.start = 1 then numbers range.start ≤ name
      else numbers range.start < name :=
  Iff.rfl

/-- Whatever is after a name in the floor is in it. -/
theorem isUpperSet_floor (range : SearchRange ID) : IsUpperSet range.floor := by
  intro lower higher order member
  rw [mem_floor] at member ⊢
  by_cases inclusive : AgentxId.included range.start = 1
  · rw [if_pos inclusive] at member ⊢
    exact member.trans order
  · rw [if_neg inclusive] at member ⊢
    exact lt_of_lt_of_le member order

/-- Past its first request a walk's floor is open. -/
theorem floor_of_excluded (range : SearchRange ID) (excluded : AgentxId.included range.start = 0) :
    range.floor = Set.Ioi (numbers range.start) := by
  ext name
  rw [mem_floor, excluded, if_neg (by decide)]
  exact Iff.rfl

end SearchRange

namespace Mib

/-- The names of a table's entries. -/
def names (mib : Mib ID) : Set (List Nat) :=
  {name | ∃ entry ∈ mib.rows.entries, numbers entry.1 = name}

/-- The lower bound of a lookup is the floor of its range. -/
theorem fromStart_iff {range : SearchRange ID} {name : ID} :
    fromStart range.start name = true ↔ numbers name ∈ range.floor := by
  rw [SearchRange.mem_floor, fromStart]
  by_cases inclusive : AgentxId.included range.start = 1
  · rw [if_pos inclusive, if_pos inclusive]
    exact compare_ids_isLE_iff
  · rw [if_neg inclusive, if_neg inclusive, Ordering.isLT_iff_eq_lt]
    exact compare_ids_lt_iff

/-- A lookup finds the least name between the floor and the ceiling of its range, or
there is none. -/
theorem getNext_spec (mib : Mib ID) (range : SearchRange ID) :
    (∃ entry ∈ mib.rows.entries, mib.getNext range = binding entry.1 entry.2 ∧
      IsLeast {name | name ∈ mib.names ∧ name ∈ range.floor ∧ name ∈ range.ceiling}
        (numbers entry.1)) ∨
    mib.getNext range = binding range.start .endOfMibView ∧
      ∀ name ∈ mib.names, name ∈ range.floor → name ∉ range.ceiling := by
  unfold getNext
  cases found : mib.rows.firstFrom (fromStart range.start) with
  | none =>
      refine Or.inr ⟨rfl, ?_⟩
      rintro _ ⟨entry, member, rfl⟩ above
      have missed := OrderedMap.firstFrom_eq_none found entry member
      exact absurd (fromStart_iff.mpr above) (Bool.eq_false_iff.mp missed)
  | some entry =>
      obtain ⟨member, within, first⟩ := OrderedMap.firstFrom_eq_some found
      have above := fromStart_iff.mp within
      have lowest (name : List Nat) (present : name ∈ mib.names) (reached : name ∈ range.floor) :
          numbers entry.1 ≤ name := by
        obtain ⟨other, inside, rfl⟩ := present
        rcases first other inside (fromStart_iff.mpr reached) with rfl | further
        · exact le_refl _
        · exact (compare_ids_lt_iff.mp further).le
      by_cases below : AgentxId.isNull range.stop ∨ (compare entry.1 range.stop).isLT
      · have under : numbers entry.1 ∈ range.ceiling := by
          rwa [Ordering.isLT_iff_eq_lt, compare_ids_lt_iff] at below
        refine Or.inl ⟨entry, member, if_pos below, ⟨⟨entry, member, rfl⟩, above, under⟩, ?_⟩
        rintro name ⟨present, reached, _⟩
        exact lowest name present reached
      · refine Or.inr ⟨if_neg below, fun name present reached under => below ?_⟩
        rw [Ordering.isLT_iff_eq_lt, compare_ids_lt_iff]
        exact under.imp_right (lowest name present reached).trans_lt

/-- The numbers of a row's identifier are those of its name. -/
theorem numbers_ofSubids_rowName (row : UInt32 × UInt32) :
    numbers (AgentxId.ofSubids (rowName row) : ID) = rowNumbers row := by
  have short : (rowName row).length ≤ 128 := (by decide : 13 ≤ 128)
  rw [numbers, LawfulAgentxId.components_ofSubids _ short, rowNumbers]

/-- A table built from rows has an entry for each row, with the value 1. -/
theorem entries_fromRows (rows : List (UInt32 × UInt32)) :
    ∀ entry ∈ (fromRows rows : Mib ID).rows.entries,
      (∃ row ∈ rows, rowNumbers row = numbers entry.1) ∧ entry.2 = .integer 1 := by
  refine OrderedMap.collect_entries (fun key => ∃ row ∈ rows, rowNumbers row = numbers key)
    (fun data => data = Value.integer 1) _ fun pair member => ?_
  obtain ⟨row, present, rfl⟩ := List.mem_map.mp member
  exact ⟨⟨row, present, (numbers_ofSubids_rowName row).symm⟩, rfl⟩

/-- So its names are those of the rows. -/
theorem names_fromRows (rows : List (UInt32 × UInt32)) :
    (fromRows rows : Mib ID).names = rowNames rows := by
  ext name
  constructor
  · rintro ⟨entry, member, rfl⟩
    exact (entries_fromRows rows entry member).1
  · rintro ⟨row, member, rfl⟩
    obtain ⟨entry, inside, same⟩ := OrderedMap.collect_present
      (rows.map fun row => ((AgentxId.ofSubids (rowName row) : ID), (.integer 1 : Value ID))) _
      (List.mem_map_of_mem member)
    have named : numbers (AgentxId.ofSubids (rowName row) : ID) = rowNumbers row :=
      numbers_ofSubids_rowName row
    refine ⟨entry, inside, ?_⟩
    rw [← named]
    apply le_antisymm
    · rw [← compare_ids_isLE_iff, Std.OrientedCmp.eq_comm.mp same]
      rfl
    · rw [← compare_ids_isLE_iff, same]
      rfl

/-- A manager's walk, each request served by a table of its own: what is returned
before the first `endOfMibView`, and that one. -/
def walk : List (Mib ID) → SearchRange ID → List (VarBind ID) × Option (VarBind ID)
  | [], _ => ([], none)
  | mib :: later, range =>
      let answer := mib.getNext range
      match answer.data with
      | .endOfMibView => ([], some answer)
      | _ =>
          let (returned, final) := walk later { range with start := answer.name }
          (answer :: returned, final)

omit [LawfulAgentxId ID] in
/-- A walk ends where nothing follows. -/
theorem walk_of_ended {mib : Mib ID} {range : SearchRange ID} (later : List (Mib ID))
    (ends : mib.getNext range = binding range.start .endOfMibView) :
    walk (mib :: later) range = ([], some (binding range.start .endOfMibView)) := by
  rw [walk, ends]
  rfl

omit [LawfulAgentxId ID] in
/-- A walk goes on from the row it visits, in the tables of later. -/
theorem walk_of_visit {mib : Mib ID} {range : SearchRange ID} {name : ID} (later : List (Mib ID))
    (visits : mib.getNext range = binding name (.integer 1)) :
    walk (mib :: later) range =
      (binding name (.integer 1) :: (walk later ⟨AgentxId.withIncluded name 0, range.stop⟩).1,
        (walk later ⟨AgentxId.withIncluded name 0, range.stop⟩).2) := by
  rw [walk, visits]
  rfl

/-- One request of a walk: it visits the least name left of its table, or ends the
walk for want of one. -/
theorem walk_cons (rows : List (UInt32 × UInt32)) (later : List (Mib ID)) (range : SearchRange ID) :
    (∃ name : ID,
      IsLeast {name | name ∈ rowNames rows ∧ name ∈ range.floor ∧ name ∈ range.ceiling}
        (numbers name) ∧
      walk (fromRows rows :: later) range =
        (binding name (.integer 1) :: (walk later ⟨AgentxId.withIncluded name 0, range.stop⟩).1,
          (walk later ⟨AgentxId.withIncluded name 0, range.stop⟩).2)) ∨
    walk (fromRows rows :: later) range = ([], some (binding range.start .endOfMibView)) ∧
      ∀ name ∈ rowNames rows, name ∈ range.floor → name ∉ range.ceiling := by
  have named : (fromRows rows : Mib ID).names = rowNames rows := names_fromRows rows
  rw [← named]
  rcases getNext_spec (fromRows rows) range with ⟨entry, member, visits, least⟩ | ⟨ends, none⟩
  · rw [(entries_fromRows rows entry member).2] at visits
    exact Or.inl ⟨entry.1, least, walk_of_visit later visits⟩
  · exact Or.inr ⟨walk_of_ended later ends, none⟩

/-- A manager's walk over tables is a walk through their sets of names. -/
theorem walk_walks (tables : List (List (UInt32 × UInt32))) (range : SearchRange ID) :
    Walk range.ceiling range.floor (tables.map rowNames)
      ((walk (tables.map fromRows) range).1.map fun returned => numbers returned.name)
      (walk (tables.map fromRows) range).2.isSome := by
  induction tables generalizing range with
  | nil => exact .pending
  | cons rows tables ih =>
      rw [List.map_cons, List.map_cons]
      rcases walk_cons rows (tables.map fromRows) range with ⟨name, least, walked⟩ | ⟨walked, none⟩
      · rw [walked]
        have past := SearchRange.floor_of_excluded ⟨AgentxId.withIncluded name 0, range.stop⟩
          (LawfulAgentxId.included_withIncluded name 0)
        have rest := ih ⟨AgentxId.withIncluded name 0, range.stop⟩
        rw [past, numbers_withIncluded] at rest
        rw [List.map_cons]
        change Walk _ _ _ (numbers (AgentxId.withIncluded name 0) :: _) _
        rw [numbers_withIncluded]
        exact .visit least rest
      · rw [walked]
        exact .ended none

/-- A walk returns rows, without the flag, and ends where it stands. -/
theorem walk_answers (tables : List (List (UInt32 × UInt32))) (range : SearchRange ID) :
    (∀ answer ∈ (walk (tables.map fromRows) range).1,
      AgentxId.included answer.name = 0 ∧ answer.data = .integer 1) ∧
    ∀ ending, (walk (tables.map fromRows) range).2 = some ending →
      AgentxId.included ending.name = 0 ∧ ending.data = .endOfMibView ∧
        numbers ending.name =
          ((walk (tables.map fromRows) range).1.map fun answer =>
            numbers answer.name).getLast?.getD (numbers range.start) := by
  induction tables generalizing range with
  | nil =>
      refine ⟨fun answer member => absurd member List.not_mem_nil, fun ending concluded => ?_⟩
      cases concluded
  | cons rows tables ih =>
      rw [List.map_cons]
      rcases walk_cons rows (tables.map fromRows) range with ⟨name, _, walked⟩ | ⟨walked, _⟩
      · obtain ⟨plain, ends⟩ := ih ⟨AgentxId.withIncluded name 0, range.stop⟩
        rw [walked]
        constructor
        · exact List.forall_mem_cons.mpr ⟨⟨LawfulAgentxId.included_withIncluded name 0, rfl⟩, plain⟩
        · intro ending concluded
          obtain ⟨unflagged, data, last⟩ := ends ending concluded
          refine ⟨unflagged, data, ?_⟩
          rw [last, List.map_cons, List.getLast?_cons, Option.getD_some]
          rfl
      · rw [walked]
        refine ⟨fun answer member => absurd member List.not_mem_nil, fun ending concluded => ?_⟩
        cases concluded
        exact ⟨LawfulAgentxId.included_withIncluded range.start 0, rfl, numbers_withIncluded _ _⟩

/-- The row that some numbers name. -/
def rowAt (name : List Nat) : UInt32 × UInt32 :=
  (.ofNat (name.getD 11 0), .ofNat (name.getD 12 0))

/-- A row is read back from the numbers of its name. -/
theorem rowAt_rowNumbers (row : UInt32 × UInt32) : rowAt (rowNumbers row) = row := by
  obtain ⟨higher, lower⟩ := row
  change (UInt32.ofNat higher.toNat, UInt32.ofNat lower.toNat) = _
  rw [UInt32.ofNat_toNat, UInt32.ofNat_toNat]

/-- The rows whose names are chosen, in the order of their names. -/
theorem exists_listed (rows : List (UInt32 × UInt32)) (chosen : List Nat → Prop) :
    ∃ listed : List (UInt32 × UInt32), (listed.map rowNumbers).Pairwise (· < ·) ∧
      ∀ row, row ∈ listed ↔ row ∈ rows ∧ chosen (rowNumbers row) := by
  obtain ⟨names, ordered, member⟩ := Walk.exists_listing (rows.map rowNumbers) chosen
  have named : (names.map rowAt).map rowNumbers = names := by
    rw [List.map_map]
    calc names.map (rowNumbers ∘ rowAt) = names.map id := by
          refine List.map_congr_left fun name inside => ?_
          obtain ⟨row, _, rfl⟩ := List.mem_map.mp ((member name).mp inside).1
          exact congrArg rowNumbers (rowAt_rowNumbers row)
      _ = names := List.map_id names
  refine ⟨names.map rowAt, named.symm ▸ ordered, fun row => ?_⟩
  rw [List.mem_map]
  constructor
  · rintro ⟨name, inside, rfl⟩
    obtain ⟨listed, meets⟩ := (member name).mp inside
    obtain ⟨row, present, rfl⟩ := List.mem_map.mp listed
    rw [rowAt_rowNumbers]
    exact ⟨present, meets⟩
  · rintro ⟨present, meets⟩
    exact ⟨rowNumbers row, (member _).mpr ⟨List.mem_map_of_mem present, meets⟩,
      rowAt_rowNumbers row⟩

/-- Over one table a walk returns the rows of the range in the order of their names,
and then ends, given enough requests. -/
theorem walk_listed (rows : List (UInt32 × UInt32)) (range : SearchRange ID) :
    ∃ listed : List (UInt32 × UInt32), (listed.map rowNumbers).Pairwise (· < ·) ∧
      (∀ row, row ∈ listed ↔
        row ∈ rows ∧ rowNumbers row ∈ range.floor ∧ rowNumbers row ∈ range.ceiling) ∧
      ∀ requests, listed.length < requests → ∃ returned ending,
        walk (List.replicate requests (fromRows rows)) range = (returned, some ending) ∧
        (returned.map fun answer => numbers answer.name) = listed.map rowNumbers := by
  obtain ⟨listed, ordered, member⟩ := exists_listed rows fun name =>
    name ∈ range.floor ∧ name ∈ range.ceiling
  refine ⟨listed, ordered, member, fun requests enough => ?_⟩
  have members (name : List Nat) : name ∈ listed.map rowNumbers ↔
      name ∈ rowNames rows ∧ name ∈ range.floor ∧ name ∈ range.ceiling := by
    constructor
    · intro inside
      obtain ⟨row, here, rfl⟩ := List.mem_map.mp inside
      obtain ⟨present, above, below⟩ := (member row).mp here
      exact ⟨⟨row, present, rfl⟩, above, below⟩
    · rintro ⟨⟨row, present, rfl⟩, above, below⟩
      exact List.mem_map_of_mem ((member row).mpr ⟨present, above, below⟩)
  have walks := walk_walks (List.replicate requests rows) range
  rw [List.map_replicate, List.map_replicate] at walks
  obtain ⟨visited, concluded⟩ :=
    walks.fixed range.isUpperSet_floor ordered members (by rwa [List.length_map])
  obtain ⟨ending, final⟩ := Option.isSome_iff_exists.mp concluded
  exact ⟨_, ending, Prod.ext rfl final, visited⟩

/-- **Walks.** A walk returns names in strictly increasing order, each that of a row
of the table that served it and in the range. It goes on until it ends, and then every
row of the range that was in all the tables that served it has been returned exactly
once. Over one table it returns exactly the rows of the range, in the order of their
higher and then their lower sides, and ends on the last name. -/
theorem walk_stable (range : SearchRange ID) :
    (∀ (tables : List (List (UInt32 × UInt32))) (returned : List (VarBind ID))
        (final : Option (VarBind ID)), walk (tables.map fromRows) range = (returned, final) →
      (returned.map fun answer => numbers answer.name).Pairwise (· < ·) ∧
      List.Forall₂ (fun answer rows => ∃ row ∈ rows, rowNumbers row = numbers answer.name) returned
        (tables.take returned.length) ∧
      (∀ answer ∈ returned, AgentxId.included answer.name = 0 ∧ answer.data = .integer 1 ∧
        numbers answer.name ∈ range.floor ∧ numbers answer.name ∈ range.ceiling) ∧
      (final = none → returned.length = tables.length) ∧
      ∀ ending, final = some ending →
        ending.data = .endOfMibView ∧ returned.length < tables.length ∧
        ∀ row, rowNumbers row ∈ range.floor → rowNumbers row ∈ range.ceiling →
          (∀ rows ∈ tables.take (returned.length + 1), row ∈ rows) →
            (returned.map fun answer => numbers answer.name).count (rowNumbers row) = 1) ∧
    ∀ rows : List (UInt32 × UInt32), ∃ listed : List (UInt32 × UInt32),
      listed.Pairwise (fun first second =>
        first.1 < second.1 ∨ first.1 = second.1 ∧ first.2 < second.2) ∧
      (∀ row, row ∈ listed ↔
        row ∈ rows ∧ rowNumbers row ∈ range.floor ∧ rowNumbers row ∈ range.ceiling) ∧
      ∀ requests, listed.length < requests → ∃ returned ending,
        walk (List.replicate requests (fromRows rows)) range = (returned, some ending) ∧
        (returned.map fun answer => numbers answer.name) = listed.map rowNumbers ∧
        AgentxId.included ending.name = 0 ∧ ending.data = .endOfMibView ∧
        numbers ending.name =
          ((listed.getLast?).map rowNumbers).getD (numbers range.start) := by
  constructor
  · intro tables returned final walked
    have walks := walk_walks tables range
    have answers := walk_answers tables range
    rw [walked] at walks answers
    obtain ⟨plain, ends⟩ := answers
    have length := walks.length_eq
    rw [List.length_map, List.length_map] at length
    refine ⟨walks.sorted, ?_, fun answer member => ?_, ?_, ?_⟩
    · have served := walks.served
      rwa [List.length_map, ← List.map_take, List.forall₂_map_left_iff,
        List.forall₂_map_right_iff] at served
    · obtain ⟨above, below⟩ := walks.bounded range.isUpperSet_floor _ (List.mem_map_of_mem member)
      exact ⟨(plain answer member).1, (plain answer member).2, above, below⟩
    · rintro rfl
      exact length
    · rintro ending rfl
      refine ⟨(ends ending rfl).2.1, length, fun row above below present => ?_⟩
      have distinct : (returned.map fun answer => numbers answer.name).Nodup :=
        walks.sorted.imp ne_of_lt
      refine List.count_eq_one_of_mem distinct (walks.complete rfl above below ?_)
      rw [List.length_map, ← List.map_take]
      intro names member
      obtain ⟨rows, served, rfl⟩ := List.mem_map.mp member
      exact ⟨row, present rows served, rfl⟩
  · intro rows
    obtain ⟨listed, ordered, member, walks⟩ := walk_listed rows range
    refine ⟨listed, ?_, member, fun requests enough => ?_⟩
    · exact (List.pairwise_map.mp ordered).imp rowNumbers_lt_iff.mp
    · obtain ⟨returned, ending, walked, visited⟩ := walks requests enough
      have answers := walk_answers (List.replicate requests rows) range
      rw [List.map_replicate, walked] at answers
      obtain ⟨unflagged, data, last⟩ := answers.2 ending rfl
      refine ⟨returned, ending, walked, visited, unflagged, data, ?_⟩
      rw [last, visited, List.getLast?_map]

/-- Below the column, without an end. -/
def wholeColumn : SearchRange PlainId := ⟨⟨status, 0⟩, ⟨[], 0⟩⟩

/-- Rows that change from request to request, except for one. -/
def republished : List (List (UInt32 × UInt32)) :=
  [[(2, 2), (10, 2)], [(2, 10), (10, 2)], [(10, 2)], [(10, 2)]]

/-- A row that stays is visited once while the rows around it change. -/
theorem walk_stable_republished :
    ∃ returned ending, walk (republished.map fromRows) wholeColumn = (returned, some ending) ∧
      (returned.map fun answer => numbers answer.name).count (rowNumbers (10, 2)) = 1 := by
  have ends : (walk (republished.map fromRows) wholeColumn).2.isSome := by decide +kernel
  obtain ⟨ending, concluded⟩ := Option.isSome_iff_exists.mp ends
  have walked : walk (republished.map fromRows) wholeColumn = (_, some ending) :=
    Prod.ext rfl concluded
  have after : numbers wholeColumn.start < rowNumbers (10, 2) := by decide
  have above : rowNumbers (10, 2) ∈ wholeColumn.floor := after
  have below : rowNumbers (10, 2) ∈ wholeColumn.ceiling := Or.inl rfl
  refine ⟨_, ending, walked, ?_⟩
  obtain ⟨_, _, _, _, finished⟩ := (walk_stable wholeColumn).1 _ _ _ walked
  refine (finished ending rfl).2.2 (10, 2) above below fun rows served => ?_
  have inside := List.mem_of_mem_take served
  simp only [republished, List.mem_cons, List.not_mem_nil, or_false] at inside
  rcases inside with rfl | rfl | rfl | rfl <;> decide

end Mib
end
end IfStack
