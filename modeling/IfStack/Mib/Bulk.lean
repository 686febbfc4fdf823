import IfStack.Mib.Walk

/-! # Bulk requests

`Mib::get_bulk`: the repeaters advance together, a round at a time, until all are
exhausted, the rounds asked for are done or the response is full. What it returns is
what single requests would have returned, in the order of the rounds and cut at the
bound.
-/

namespace IfStack

open Foundation

variable {ID : Type} [AgentxId ID]

/-- The test against `Value::EndOfMibView`. -/
def Value.isEnd : Value ID → Bool
  | .endOfMibView => true
  | _ => false

omit [AgentxId ID] in
/-- A value is the end just when it is `EndOfMibView`. -/
theorem Value.isEnd_iff {value : Value ID} : value.isEnd = true ↔ value = .endOfMibView := by
  cases value <;> simp [isEnd]

/-- `MAX_BULK_BINDINGS`. -/
def maxBulkBindings : Nat := 4096

namespace Mib

/-- One round of `get_bulk`: a binding for each repeater, whose range goes on from it.
A full result is returned from inside. -/
def bulkRound (mib : Mib ID) : List (SearchRange ID) → List (VarBind ID) → Bool →
    Except (List (VarBind ID)) (List (SearchRange ID) × List (VarBind ID) × Bool)
  | [], result, exhausted => .ok ([], result, exhausted)
  | range :: rest, result, exhausted =>
      if result.length = maxBulkBindings then .error result
      else
        let next := mib.getNext range
        match bulkRound mib rest (result ++ [next]) (exhausted && next.data.isEnd) with
        | .ok (repeaters, result, exhausted) =>
            .ok ({ range with start := next.name } :: repeaters, result, exhausted)
        | .error result => .error result

/-- The rounds of `get_bulk`. -/
def bulkRounds (mib : Mib ID) : Nat → List (SearchRange ID) → List (VarBind ID) → List (VarBind ID)
  | 0, _, result => result
  | repetitions + 1, repeaters, result =>
      match bulkRound mib repeaters result true with
      | .ok (repeaters, result, exhausted) =>
          if exhausted then result else bulkRounds mib repetitions repeaters result
      | .error result => result

/-- `Mib::get_bulk`. -/
def getBulk (mib : Mib ID) (ranges : List (SearchRange ID))
    (nonRepeaters maxRepetitions : UInt16) : List (VarBind ID) :=
  let count := min nonRepeaters.toNat ranges.length
  let result := ((ranges.take count).take maxBulkBindings).map mib.getNext
  bulkRounds mib maxRepetitions.toNat (ranges.drop count) result

/-- What the requests of one repeater return: each starts at the name before, and the
end of the range stays. -/
def successive (mib : Mib ID) (range : SearchRange ID) : Nat → VarBind ID
  | 0 => mib.getNext range
  | count + 1 => mib.getNext { range with start := (successive mib range count).name }

/-- The range of the request after. -/
def advance (mib : Mib ID) (range : SearchRange ID) : SearchRange ID :=
  { range with start := (mib.getNext range).name }

/-- What comes after the first successor comes one later. -/
theorem successive_advance (mib : Mib ID) (range : SearchRange ID) (count : Nat) :
    mib.successive (mib.advance range) count = mib.successive range (count + 1) := by
  induction count with
  | zero => rfl
  | succ count ih =>
      rw [successive, ih]
      rfl

omit [AgentxId ID] in
/-- What is cut off beforehand would be cut off in any case. -/
theorem take_take_append {α : Type} (bound : Nat) (first second : List α) :
    (first.take bound ++ second).take bound = (first ++ second).take bound := by
  rw [List.take_append, List.take_append, List.take_take, Nat.min_self, List.length_take]
  congr 2
  omega

/-- A round takes every repeater one request further, or stops within it when the
response is full. -/
theorem bulkRound_spec (mib : Mib ID) (ranges : List (SearchRange ID))
    (result : List (VarBind ID)) (exhausted : Bool) (room : result.length ≤ maxBulkBindings) :
    mib.bulkRound ranges result exhausted =
      if result.length + ranges.length ≤ maxBulkBindings then
        .ok (ranges.map mib.advance, result ++ ranges.map mib.getNext,
          exhausted && ranges.all fun range => (mib.getNext range).data.isEnd)
      else .error ((result ++ ranges.map mib.getNext).take maxBulkBindings) := by
  induction ranges generalizing result exhausted with
  | nil => simp [bulkRound, room]
  | cons range rest ih =>
      unfold bulkRound
      by_cases full : result.length = maxBulkBindings
      · rw [if_pos full, if_neg (by rw [List.length_cons]; omega)]
        rw [← full, List.take_left]
      · have room' : (result ++ [mib.getNext range]).length ≤ maxBulkBindings := by
          rw [List.length_append, List.length_singleton]
          omega
        have length : (result ++ [mib.getNext range]).length + rest.length =
            result.length + (range :: rest).length := by
          simp only [List.length_append, List.length_cons, List.length_nil]
          omega
        have joined : result ++ [mib.getNext range] ++ rest.map mib.getNext =
            result ++ (range :: rest).map mib.getNext := List.append_assoc ..
        rw [if_neg full]
        simp only [ih _ _ room', length, joined]
        by_cases fits : result.length + (range :: rest).length ≤ maxBulkBindings
        · simp only [fits, ↓reduceIte, List.map_cons, List.all_cons, Bool.and_assoc]
          rfl
        · simp only [fits, ↓reduceIte]

/-- Past a round that does not exhaust the repeaters, one round less is needed. -/
theorem isLeast_advance {mib : Mib ID} {ranges : List (SearchRange ID)} {previous : Nat}
    (least : IsLeast {round | ∀ range ∈ ranges, (mib.successive range round).data = .endOfMibView}
      (previous + 1)) :
    IsLeast {round | ∀ range ∈ ranges.map mib.advance,
      (mib.successive range round).data = .endOfMibView} previous := by
  constructor
  · intro _ inside
    obtain ⟨range, member, rfl⟩ := List.mem_map.mp inside
    rw [successive_advance]
    exact least.1 range member
  · intro round ended
    apply Nat.le_of_succ_le_succ
    apply least.2
    intro range member
    rw [← successive_advance]
    exact ended _ (List.mem_map_of_mem member)

/-- The rounds from some repeaters, up to the first in which all are exhausted, append
what the repeaters return one by one. -/
theorem bulkRounds_spec (mib : Mib ID) (ranges : List (SearchRange ID))
    (result : List (VarBind ID)) (room : result.length ≤ maxBulkBindings) (repetitions last : Nat)
    (least : IsLeast {round | ∀ range ∈ ranges, (mib.successive range round).data = .endOfMibView}
      last) :
    mib.bulkRounds repetitions ranges result =
      (result ++ (List.range (min repetitions (last + 1))).flatMap fun round =>
        ranges.map fun range => mib.successive range round).take maxBulkBindings := by
  induction repetitions generalizing ranges result last with
  | zero => simp [bulkRounds, room]
  | succ repetitions ih =>
      have first : min (repetitions + 1) (last + 1) = min repetitions last + 1 := by omega
      rw [first, List.range_succ_eq_map, List.flatMap_cons, List.flatMap_map,
        ← List.append_assoc]
      change _ = ((result ++ ranges.map mib.getNext) ++ _).take _
      unfold bulkRounds
      rw [bulkRound_spec mib ranges result true room]
      by_cases fits : result.length + ranges.length ≤ maxBulkBindings
      · simp only [fits, ↓reduceIte, Bool.true_and]
        have room' : (result ++ ranges.map mib.getNext).length ≤ maxBulkBindings := by
          rwa [List.length_append, List.length_map]
        have ended : (ranges.all fun range => (mib.getNext range).data.isEnd) = true ↔
            ∀ range ∈ ranges, (mib.successive range 0).data = .endOfMibView := by
          simp only [List.all_eq_true, Value.isEnd_iff]
          rfl
        split
        · rename_i exhausted
          have none : last = 0 := Nat.le_zero.mp (least.2 (ended.mp exhausted))
          rw [none, Nat.min_zero, List.range_zero, List.flatMap_nil, List.append_nil,
            List.take_of_length_le room']
        · rename_i alive
          cases last with
          | zero => exact absurd (ended.mpr least.1) alive
          | succ previous =>
              rw [ih _ _ room' previous (isLeast_advance least)]
              simp only [List.map_map, Function.comp_def, successive_advance]
      · simp only [fits, ↓reduceIte]
        have within : maxBulkBindings ≤ (result ++ ranges.map mib.getNext).length := by
          rw [List.length_append, List.length_map]
          omega
        exact (List.take_append_of_le_length within).symm

/-- What a walk over one table returns are the answers to successive requests. -/
theorem successive_of_walk {mib : Mib ID} {range : SearchRange ID} {requests : Nat}
    {returned : List (VarBind ID)} {ending : VarBind ID}
    (walked : walk (List.replicate requests mib) range = (returned, some ending)) :
    (∀ round answer, returned[round]? = some answer → mib.successive range round = answer) ∧
      mib.successive range returned.length = ending := by
  induction requests generalizing range returned with
  | zero => cases walked
  | succ requests ih =>
      rw [List.replicate_succ, walk] at walked
      split at walked
      · cases walked
        refine ⟨fun round answer found => ?_, rfl⟩
        cases found
      · obtain ⟨same, final⟩ := Prod.mk.inj walked
        have rest := @ih (mib.advance range) _ (Prod.ext rfl final)
        simp only [successive_advance] at rest
        subst same
        refine ⟨fun round answer found => ?_, rest.2⟩
        cases round with
        | zero => exact Option.some.inj found
        | succ round => exact rest.1 round answer found

/-- What GetNext returns does not include its start. -/
theorem included_getNext [LawfulAgentxId ID] (mib : Mib ID) (range : SearchRange ID) :
    AgentxId.included (mib.getNext range).name = 0 := by
  have cleared (name : ID) (data : Value ID) : AgentxId.included (binding name data).name = 0 :=
    LawfulAgentxId.included_withIncluded name 0
  unfold getNext
  split
  · split <;> apply cleared
  · apply cleared

variable [LawfulAgentxId ID]

/-- Past the end of a range nothing is found either. -/
theorem getNext_ended (rows : List (UInt32 × UInt32)) (range : SearchRange ID)
    (ended : ((fromRows rows).getNext range).data = .endOfMibView) :
    ((fromRows rows).getNext ((fromRows rows).advance range)).data = .endOfMibView ∧
      numbers ((fromRows rows).getNext ((fromRows rows).advance range)).name =
        numbers ((fromRows rows).getNext range).name := by
  rcases getNext_spec (fromRows rows) range with ⟨entry, member, found, _⟩ | ⟨stays, none⟩
  · rw [found, (entries_fromRows rows entry member).2] at ended
    cases ended
  · have same : numbers ((fromRows rows).getNext range).name = numbers range.start := by
      rw [stays]
      exact numbers_withIncluded range.start 0
    have past := SearchRange.floor_of_excluded ((fromRows rows).advance range)
      (included_getNext (fromRows rows) range)
    rcases getNext_spec (fromRows rows) ((fromRows rows).advance range) with
      ⟨entry, member, _, least⟩ | ⟨again, _⟩
    · obtain ⟨⟨present, above, below⟩, _⟩ := least
      rw [past, advance, same] at above
      refine absurd below (none _ present ?_)
      rw [SearchRange.mem_floor]
      split
      · exact le_of_lt above
      · exact above
    · rw [again]
      exact ⟨rfl, numbers_withIncluded _ 0⟩

/-- So a repeater that is exhausted stays where it is. -/
theorem successive_ended (rows : List (UInt32 × UInt32)) (range : SearchRange ID) {round : Nat}
    (ended : ((fromRows rows).successive range round).data = .endOfMibView) (later : Nat)
    (order : round ≤ later) :
    ((fromRows rows).successive range later).data = .endOfMibView ∧
      numbers ((fromRows rows).successive range later).name =
        numbers ((fromRows rows).successive range round).name := by
  induction order with
  | refl => exact ⟨ended, rfl⟩
  | @step later order ih =>
      have again : ((fromRows rows).successive range (later + 1)).data = .endOfMibView ∧
          numbers ((fromRows rows).successive range (later + 1)).name =
            numbers ((fromRows rows).successive range later).name := by
        cases later with
        | zero => exact getNext_ended rows range ih.1
        | succ later => exact getNext_ended rows ⟨_, range.stop⟩ ih.1
      exact ⟨again.1, again.2.trans ih.2⟩

/-- The successive requests of one repeater return the rows of its range in order, and
from then on `endOfMibView` at the last name. -/
theorem successive_listed (rows : List (UInt32 × UInt32)) (range : SearchRange ID) :
    ∃ listed : List (UInt32 × UInt32),
      listed.Pairwise (fun first second =>
        first.1 < second.1 ∨ first.1 = second.1 ∧ first.2 < second.2) ∧
      (∀ row, row ∈ listed ↔
        row ∈ rows ∧ rowNumbers row ∈ range.floor ∧ rowNumbers row ∈ range.ceiling) ∧
      (∀ round row, listed[round]? = some row →
        ((fromRows rows).successive range round).data = .integer 1 ∧
        numbers ((fromRows rows).successive range round).name = rowNumbers row) ∧
      (∀ round, listed.length ≤ round →
        ((fromRows rows).successive range round).data = .endOfMibView ∧
        numbers ((fromRows rows).successive range round).name =
          (listed.getLast?.map rowNumbers).getD (numbers range.start)) ∧
      ∀ round, AgentxId.included ((fromRows rows).successive range round).name = 0 := by
  obtain ⟨listed, ordered, member, walks⟩ := walk_listed rows range
  obtain ⟨returned, ending, walked, visited⟩ :=
    walks (listed.length + 1) (Nat.lt_succ_self listed.length)
  obtain ⟨answers, final⟩ := successive_of_walk walked
  have plain := walk_answers (List.replicate (listed.length + 1) rows) range
  rw [List.map_replicate, walked] at plain
  obtain ⟨unflagged, data, last⟩ := plain.2 ending rfl
  have length : returned.length = listed.length := by
    simpa only [List.length_map] using congrArg List.length visited
  rw [length] at final
  refine ⟨listed, (List.pairwise_map.mp ordered).imp rowNumbers_lt_iff.mp, member, ?_, ?_, ?_⟩
  · intro round row found
    have paired : (returned.map fun answer => numbers answer.name)[round]? =
        some (rowNumbers row) := by rw [visited, List.getElem?_map, found, Option.map_some]
    rw [List.getElem?_map] at paired
    obtain ⟨answer, here, named⟩ := Option.map_eq_some_iff.mp paired
    rw [answers round answer here]
    exact ⟨(plain.1 answer (List.mem_of_getElem? here)).2, named⟩
  · intro round order
    have exhausted : ((fromRows rows).successive range listed.length).data = .endOfMibView := by
      rw [final, data]
    obtain ⟨stays, named⟩ := successive_ended rows range exhausted round order
    refine ⟨stays, ?_⟩
    rw [named, final, last, visited, List.getLast?_map]
  · intro round
    cases round <;> apply included_getNext

/-- Some round finds all repeaters exhausted. -/
theorem exists_exhausted (rows : List (UInt32 × UInt32)) (ranges : List (SearchRange ID)) :
    ∃ last, IsLeast {round | ∀ range ∈ ranges,
      ((fromRows rows).successive range round).data = .endOfMibView} last := by
  classical
  have bounded : ∃ bound, ∀ range ∈ ranges, ∀ round, bound ≤ round →
      ((fromRows rows).successive range round).data = .endOfMibView := by
    induction ranges with
    | nil => exact ⟨0, fun _ member => absurd member List.not_mem_nil⟩
    | cons range rest ih =>
        obtain ⟨bound, others⟩ := ih
        obtain ⟨listed, _, _, _, ends, _⟩ := successive_listed rows range
        refine ⟨max listed.length bound, fun other member round order => ?_⟩
        rcases List.mem_cons.mp member with rfl | further
        · exact (ends round (le_of_max_le_left order)).1
        · exact others other further round (le_of_max_le_right order)
  obtain ⟨bound, ends⟩ := bounded
  have reached : ∃ round, ∀ range ∈ ranges,
      ((fromRows rows).successive range round).data = .endOfMibView :=
    ⟨bound, fun range member => ends range member bound le_rfl⟩
  exact ⟨Nat.find reached, Nat.find_spec reached, fun round ended => Nat.find_min' reached ended⟩

omit [LawfulAgentxId ID] in
/-- The response, by the first round in which all repeaters are exhausted. -/
theorem getBulk_spec (mib : Mib ID) (ranges : List (SearchRange ID))
    (nonRepeaters maxRepetitions : UInt16) {last : Nat}
    (least : IsLeast {round | ∀ range ∈ ranges.drop (min nonRepeaters.toNat ranges.length),
      (mib.successive range round).data = .endOfMibView} last) :
    mib.getBulk ranges nonRepeaters maxRepetitions =
      (((ranges.take (min nonRepeaters.toNat ranges.length)).map fun range =>
          mib.successive range 0) ++
        (List.range (if min nonRepeaters.toNat ranges.length = ranges.length then 0
          else min maxRepetitions.toNat (last + 1))).flatMap fun round =>
            (ranges.drop (min nonRepeaters.toNat ranges.length)).map fun range =>
              mib.successive range round).take maxBulkBindings := by
  have room : (((ranges.take (min nonRepeaters.toNat ranges.length)).take maxBulkBindings).map
      mib.getNext).length ≤ maxBulkBindings := by
    rw [List.length_map]
    exact List.length_take_le _ _
  unfold getBulk
  rw [bulkRounds_spec mib _ _ room _ _ least, List.map_take, take_take_append]
  split
  · rename_i all
    have none : ranges.drop (min nonRepeaters.toNat ranges.length) = [] := by
      rw [all, List.drop_length]
    have empty (rounds : List Nat) : (rounds.flatMap fun _ => ([] : List (VarBind ID))) = [] := by
      simp
    simp only [none, List.map_nil, empty]
    rfl
  · rfl

/-- **Bulk requests.** There is a first round in which all repeaters are exhausted, and
the response is that of the single requests, the rounds of the repeaters up to that one
after the others, cut at the bound. Each repeater returns the rows of its range in order
and then repeats `endOfMibView` at the same name. -/
theorem getBulk_interleaves (rows : List (UInt32 × UInt32)) (ranges : List (SearchRange ID))
    (nonRepeaters maxRepetitions : UInt16) :
    (∃ last,
      IsLeast {round | ∀ range ∈ ranges.drop (min nonRepeaters.toNat ranges.length),
        ((fromRows rows).successive range round).data = .endOfMibView} last ∧
      (fromRows rows).getBulk ranges nonRepeaters maxRepetitions =
        (((ranges.take (min nonRepeaters.toNat ranges.length)).map fun range =>
            (fromRows rows).successive range 0) ++
          (List.range (if min nonRepeaters.toNat ranges.length = ranges.length then 0
            else min maxRepetitions.toNat (last + 1))).flatMap fun round =>
              (ranges.drop (min nonRepeaters.toNat ranges.length)).map fun range =>
                (fromRows rows).successive range round).take 4096) ∧
    ((fromRows rows).getBulk ranges nonRepeaters maxRepetitions).length ≤ 4096 ∧
    ∀ range : SearchRange ID, ∃ listed : List (UInt32 × UInt32),
      listed.Pairwise (fun first second =>
        first.1 < second.1 ∨ first.1 = second.1 ∧ first.2 < second.2) ∧
      (∀ row, row ∈ listed ↔
        row ∈ rows ∧ rowNumbers row ∈ range.floor ∧ rowNumbers row ∈ range.ceiling) ∧
      (∀ round row, listed[round]? = some row →
        ((fromRows rows).successive range round).data = .integer 1 ∧
        numbers ((fromRows rows).successive range round).name = rowNumbers row) ∧
      (∀ round, listed.length ≤ round →
        ((fromRows rows).successive range round).data = .endOfMibView ∧
        numbers ((fromRows rows).successive range round).name =
          (listed.getLast?.map rowNumbers).getD (numbers range.start)) ∧
      ∀ round, AgentxId.included ((fromRows rows).successive range round).name = 0 := by
  obtain ⟨last, least⟩ :=
    exists_exhausted rows (ranges.drop (min nonRepeaters.toNat ranges.length))
  have response := getBulk_spec (fromRows rows) ranges nonRepeaters maxRepetitions least
  refine ⟨⟨last, least, response⟩, ?_, successive_listed rows⟩
  rw [response]
  exact List.length_take_le 4096 _

end Mib
end IfStack
