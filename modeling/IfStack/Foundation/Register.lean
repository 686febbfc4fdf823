import Mathlib.Data.List.Basic

/-! # A register driven by a history

A history lists what has happened, newest first. Each entry, read against what
came before it, writes a register, clears it or leaves it. The register's value is
then the latest write, if nothing has cleared it since.
-/

namespace Foundation

/-- What an entry does to the register. -/
inductive Effect (β : Type*)
  | write (value : β)
  | clear
  | keep

namespace Register

variable {ε β : Type*}

/-- The value of the register after a history. -/
def value (effect : List ε → ε → Effect β) : List ε → Option β
  | [] => none
  | entry :: older =>
      match effect older entry with
      | .write written => some written
      | .clear => none
      | .keep => value effect older

/-- Every entry of the newer part of a history meets a condition on it and on
all that came before it. -/
def Since (condition : List ε → ε → Prop) (newer older : List ε) : Prop :=
  ∀ later entry earlier, newer = later ++ entry :: earlier → condition (earlier ++ older) entry

/-- Nothing newer meets any condition. -/
theorem since_nil (condition : List ε → ε → Prop) (older : List ε) :
    Since condition [] older := by
  intro later entry earlier split
  cases later <;> cases split

/-- A condition since a point is about the newest entry and about those before it. -/
theorem since_cons {condition : List ε → ε → Prop} {entry : ε} {newer older : List ε} :
    Since condition (entry :: newer) older ↔
      condition (newer ++ older) entry ∧ Since condition newer older := by
  constructor
  · intro since
    refine ⟨since [] entry newer rfl, ?_⟩
    intro later other earlier split
    exact since (entry :: later) other earlier (congrArg (entry :: ·) split)
  · rintro ⟨here, since⟩ later other earlier split
    cases later with
    | nil =>
        obtain ⟨rfl, rfl⟩ := List.cons.inj split
        exact here
    | cons first later =>
        obtain ⟨_, split⟩ := List.cons.inj split
        exact since later other earlier split

/-- A condition since a point may be weakened. -/
theorem Since.imp {condition weaker : List ε → ε → Prop} {newer older : List ε}
    (since : Since condition newer older)
    (implies : ∀ before entry, condition before entry → weaker before entry) :
    Since weaker newer older :=
  fun later entry earlier split => implies _ _ (since later entry earlier split)

variable {effect : List ε → ε → Effect β} {history : List ε}

/-- The register holds a value exactly when the latest entry that does not leave
it alone wrote that value. -/
theorem value_eq_some_iff {written : β} :
    value effect history = some written ↔
      ∃ newer entry older, history = newer ++ entry :: older ∧
        effect older entry = .write written ∧
          Since (fun before other => effect before other = .keep) newer (entry :: older) := by
  induction history with
  | nil =>
      refine ⟨fun absent => (nomatch absent), ?_⟩
      rintro ⟨newer, entry, older, split, _⟩
      cases newer <;> cases split
  | cons head rest ih =>
      constructor
      · intro holds
        unfold value at holds
        split at holds
        · rename_i found happened
          exact ⟨[], head, rest, rfl, Option.some.inj holds ▸ happened, since_nil _ _⟩
        · cases holds
        · rename_i left
          obtain ⟨newer, entry, older, split, wrote, since⟩ := ih.mp holds
          exact ⟨head :: newer, entry, older, congrArg (head :: ·) split, wrote,
            since_cons.mpr ⟨split ▸ left, since⟩⟩
      · rintro ⟨newer, entry, older, split, wrote, since⟩
        cases newer with
        | nil =>
            obtain ⟨rfl, rfl⟩ := List.cons.inj split
            simp only [value, wrote]
        | cons first newer =>
            rw [List.cons_append] at split
            obtain ⟨rfl, rfl⟩ := List.cons.inj split
            obtain ⟨left, since⟩ := since_cons.mp since
            simp only [value, left]
            exact ih.mpr ⟨newer, entry, older, rfl, wrote, since⟩

/-- The register holds something exactly when something was written since it was
last cleared. -/
theorem value_isSome_iff :
    (value effect history).isSome ↔
      ∃ newer entry older written, history = newer ++ entry :: older ∧
        effect older entry = .write written ∧
          Since (fun before other => effect before other ≠ .clear) newer (entry :: older) := by
  constructor
  · intro holds
    obtain ⟨written, holds⟩ := Option.isSome_iff_exists.mp holds
    obtain ⟨newer, entry, older, split, wrote, since⟩ := value_eq_some_iff.mp holds
    exact ⟨newer, entry, older, written, split, wrote,
      since.imp fun _ _ left cleared => (nomatch left.symm.trans cleared)⟩
  · rintro ⟨newer, entry, older, written, rfl, wrote, since⟩
    induction newer with
    | nil => simp only [List.nil_append, value, wrote, Option.isSome_some]
    | cons head newer ih =>
        obtain ⟨uncleared, since⟩ := since_cons.mp since
        have before := ih since
        simp only [List.cons_append, value]
        split
        · rfl
        · rename_i cleared
          exact (uncleared cleared).elim
        · exact before

end Register
end Foundation
