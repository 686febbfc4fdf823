import IfStack.Mib.Bulk

/-! # Walks by bulk requests

A request of one range stands for some requests of a walk, one after the other from one
table: as many as a bulk request repeats, up to the bound of a response, and one
otherwise. A walk that is asked for in pieces is the walk over the tables of all pieces.
-/

namespace IfStack

variable {ID : Type} [AgentxId ID]

omit [AgentxId ID] in
/-- Where a range goes on after some bindings. -/
def SearchRange.after (range : SearchRange ID) (answers : List (VarBind ID)) : SearchRange ID :=
  { range with start := (answers.getLast?.map VarBind.name).getD range.start }

omit [AgentxId ID] in
/-- A range after some answers goes on from each in turn. -/
theorem SearchRange.after_cons (range : SearchRange ID) (answer : VarBind ID)
    (answers : List (VarBind ID)) :
    range.after (answer :: answers) = { range with start := answer.name }.after answers := by
  unfold after
  rw [List.getLast?_cons]
  cases answers.getLast? <;> rfl

namespace Mib

variable {mib : Mib ID} {range : SearchRange ID} {answers more : List (VarBind ID)}
  {final : Option (VarBind ID)}

/-- How many names a request of one range asks for, by its counts if it is a bulk request. -/
def repeats : Option (UInt16 × UInt16) → Nat
  | none => 1
  | some (nonRepeaters, maxRepetitions) =>
      if nonRepeaters = 0 then min maxRepetitions.toNat maxBulkBindings else 1

/-- All bindings of a walk, with the one that ended it. -/
def bindings (walked : List (VarBind ID) × Option (VarBind ID)) : List (VarBind ID) :=
  walked.1 ++ walked.2.toList

/-- A request that finds no name ends the walk. -/
theorem walk_of_end (later : List (Mib ID)) (ends : (mib.getNext range).data = .endOfMibView) :
    walk (mib :: later) range = ([], some (mib.getNext range)) := by
  unfold walk
  dsimp only
  rw [ends]

/-- Any other request is followed by the rest of the walk. -/
theorem walk_of_row {later : List (Mib ID)} (goes : (mib.getNext range).data ≠ .endOfMibView)
    (rest : walk later { range with start := (mib.getNext range).name } = (answers, final)) :
    walk (mib :: later) range = (mib.getNext range :: answers, final) := by
  unfold walk
  dsimp only
  split
  · rename_i ends
    exact absurd ends goes
  · rw [rest]

/-- A walk that has not ended goes on from its last name. -/
theorem walk_append_of_pending {first later : List (Mib ID)}
    (walked : walk first range = (answers, none))
    (rest : walk later (range.after answers) = (more, final)) :
    walk (first ++ later) range = (answers ++ more, final) := by
  induction first generalizing range answers with
  | nil =>
      cases walked
      exact rest
  | cons mib first ih =>
      by_cases ends : (mib.getNext range).data = .endOfMibView
      · rw [walk_of_end _ ends] at walked
        cases walked
      · rw [walk_of_row ends (Prod.mk.eta).symm] at walked
        obtain ⟨rfl, pending⟩ := Prod.mk.inj walked
        rw [SearchRange.after_cons] at rest
        exact walk_of_row ends (ih (Prod.ext rfl pending) rest)

/-- Only the last binding of a walk is an end. -/
theorem walk_isEnd (tables : List (Mib ID)) (range : SearchRange ID) :
    (∀ answer ∈ (walk tables range).1, answer.data.isEnd = false) ∧
      ∀ ending ∈ (walk tables range).2, ending.data.isEnd = true := by
  induction tables generalizing range with
  | nil => exact ⟨fun answer member => absurd member List.not_mem_nil, nofun⟩
  | cons mib tables ih =>
      by_cases ends : (mib.getNext range).data = .endOfMibView
      · rw [walk_of_end _ ends]
        refine ⟨fun answer member => absurd member List.not_mem_nil, fun ending concluded => ?_⟩
        cases concluded
        exact Value.isEnd_iff.mpr ends
      · rw [walk_of_row ends (Prod.mk.eta).symm]
        have alive := Bool.eq_false_iff.mpr (mt Value.isEnd_iff.mp ends)
        exact ⟨List.forall_mem_cons.mpr ⟨alive, (ih _).1⟩, (ih _).2⟩

/-- So the first end among the bindings tells the walk apart. -/
theorem find?_bindings (tables : List (Mib ID)) (range : SearchRange ID) :
    (bindings (walk tables range)).find? (fun answer => answer.data.isEnd) =
        (walk tables range).2 ∧
      (bindings (walk tables range)).takeWhile (fun answer => !answer.data.isEnd) =
        (walk tables range).1 := by
  obtain ⟨alive, ends⟩ := walk_isEnd tables range
  have none : (walk tables range).1.find? (fun answer => answer.data.isEnd) = none :=
    List.find?_eq_none.mpr fun answer member => by simp [alive answer member]
  have all : ∀ answer ∈ (walk tables range).1, (!answer.data.isEnd) = true :=
    fun answer member => by simp [alive answer member]
  rw [bindings, List.find?_append, List.takeWhile_append_of_pos all, none]
  cases concluded : (walk tables range).2 with
  | none => simp
  | some ending =>
      have found := ends ending concluded
      simp [found]

/-- A walk of one request has one binding. -/
theorem bindings_single (mib : Mib ID) (range : SearchRange ID) :
    bindings (walk [mib] range) = [mib.getNext range] := by
  by_cases ends : (mib.getNext range).data = .endOfMibView
  · exact congrArg bindings (walk_of_end [] ends)
  · have alone : walk [mib] range = ([mib.getNext range], none) := walk_of_row ends rfl
    exact congrArg bindings alone

/-- The rounds of a single repeater make up a walk over the one table. -/
theorem bulkRounds_walk (mib : Mib ID) (range : SearchRange ID) (result : List (VarBind ID))
    (room : result.length ≤ maxBulkBindings) (repetitions : Nat) :
    mib.bulkRounds repetitions [range] result = result ++ bindings
      (walk (.replicate (min repetitions (maxBulkBindings - result.length)) mib) range) := by
  induction repetitions generalizing range result with
  | zero => simp [bulkRounds, bindings, walk]
  | succ repetitions ih =>
      unfold bulkRounds bulkRound
      by_cases full : result.length = maxBulkBindings
      · simp [full, bindings, walk]
      · have left : min (repetitions + 1) (maxBulkBindings - result.length) =
            min repetitions (maxBulkBindings - (result.length + 1)) + 1 := by omega
        have joined : (result ++ [mib.getNext range]).length = result.length + 1 := by simp
        rw [left, List.replicate_succ]
        simp only [full, ↓reduceIte, bulkRound, Bool.true_and]
        by_cases ends : (mib.getNext range).data = .endOfMibView
        · rw [if_pos (Value.isEnd_iff.mpr ends), walk_of_end _ ends]
          rfl
        · rw [if_neg (mt Value.isEnd_iff.mp ends), walk_of_row ends (Prod.mk.eta).symm,
            ih { range with start := _ } (result ++ [mib.getNext range]) (by omega), joined,
            List.append_assoc]
          rfl

/-- A bulk request of one range returns a walk over the one table. -/
theorem getBulk_walk (mib : Mib ID) (range : SearchRange ID)
    (nonRepeaters maxRepetitions : UInt16) :
    mib.getBulk [range] nonRepeaters maxRepetitions =
      bindings (walk (.replicate (repeats (some (nonRepeaters, maxRepetitions))) mib) range) := by
  unfold getBulk repeats
  by_cases single : nonRepeaters = 0
  · subst single
    exact bulkRounds_walk mib range [] (Nat.zero_le _) _
  · have count : min nonRepeaters.toNat 1 = 1 := by
      have positive : nonRepeaters.toNat ≠ 0 := fun zero =>
        single (UInt16.toNat_inj.mp zero)
      omega
    have idle (repetitions : Nat) : mib.bulkRounds repetitions [] [mib.getNext range] =
        [mib.getNext range] := by
      cases repetitions <;> rfl
    simp only [single, ↓reduceIte, List.length_singleton, count, List.take_succ_cons,
      List.take_zero, List.drop_succ_cons, List.drop_zero]
    exact (idle _).trans (bindings_single mib range).symm

/-- A walk reads rows of its range in order, and when it has ended, each row of the range
that was in all tables exactly once. -/
theorem walk_reads [LawfulAgentxId ID] {tables : List (List (UInt32 × UInt32))}
    (walked : walk (tables.map fromRows) range = (answers, final)) :
    (answers.map fun answer => numbers answer.name).Pairwise (· < ·) ∧
      (∀ answer ∈ answers, answer.data = .integer 1 ∧ numbers answer.name ∈ range.floor ∧
        numbers answer.name ∈ range.ceiling) ∧
      ∀ ending, final = some ending → ∀ row, rowNumbers row ∈ range.floor →
        rowNumbers row ∈ range.ceiling → (∀ rows ∈ tables, row ∈ rows) →
          (answers.map fun answer => numbers answer.name).count (rowNumbers row) = 1 := by
  have visits := @walk_walks ID _ _ tables range
  have plain := (@walk_answers ID _ _ tables range).1
  rw [walked] at visits plain
  refine ⟨visits.sorted, fun answer member => ?_, ?_⟩
  · obtain ⟨above, below⟩ := visits.bounded range.isUpperSet_floor _ (List.mem_map_of_mem member)
    exact ⟨(plain answer member).2, above, below⟩
  · intro ending concluded row above below present
    rw [concluded] at visits
    refine List.count_eq_one_of_mem (visits.sorted.imp ne_of_lt) ?_
    refine visits.complete rfl above below fun names member => ?_
    obtain ⟨rows, listed, rfl⟩ := List.mem_map.mp (List.mem_of_mem_take member)
    exact ⟨row, present rows listed, rfl⟩

end Mib
end IfStack
