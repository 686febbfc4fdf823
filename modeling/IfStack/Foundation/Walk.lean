import Mathlib.Data.Finset.Sort
import Mathlib.Order.Bounds.Basic
import Mathlib.Order.Interval.Set.Defs
import Mathlib.Order.UpperLower.Basic

/-! # Walks through changing sets

A walk visits members of a linear order one by one, each by a request of its own,
and each request is served by a set of its own. A request takes the least member of
its set between a floor and a ceiling, and what it took is the floor of the next.
-/

namespace Foundation

variable {κ : Type*} [LinearOrder κ]

/-- The walks below a ceiling from a floor, by the sets that serve the requests, the
members visited, and whether the walk has ended for want of a member. -/
inductive Walk (ceiling : Set κ) : Set κ → List (Set κ) → List κ → Bool → Prop
  /-- All requests so far have been served. -/
  | pending {floor : Set κ} : Walk ceiling floor [] [] false
  | ended {floor served : Set κ} {later : List (Set κ)}
      (exhausted : ∀ name ∈ served, name ∈ floor → name ∉ ceiling) :
      Walk ceiling floor (served :: later) [] true
  | visit {floor served : Set κ} {later : List (Set κ)} {name : κ} {names : List κ} {ended : Bool}
      (least : IsLeast {name | name ∈ served ∧ name ∈ floor ∧ name ∈ ceiling} name)
      (rest : Walk ceiling (Set.Ioi name) later names ended) :
      Walk ceiling floor (served :: later) (name :: names) ended

namespace Walk

variable {ceiling floor : Set κ} {sets : List (Set κ)} {names : List κ} {ended : Bool}

/-- A walk stays between its floor and its ceiling. -/
theorem bounded (walk : Walk ceiling floor sets names ended) (upper : IsUpperSet floor) :
    ∀ name ∈ names, name ∈ floor ∧ name ∈ ceiling := by
  induction walk with
  | pending | ended => exact fun name member => absurd member List.not_mem_nil
  | @visit floor served later first names ended least rest ih =>
      intro name member
      rcases List.mem_cons.mp member with rfl | further
      · exact least.1.2
      · obtain ⟨above, below⟩ := ih (isUpperSet_Ioi first) name further
        exact ⟨upper (le_of_lt above) least.1.2.1, below⟩

/-- A walk goes strictly upwards. -/
theorem sorted (walk : Walk ceiling floor sets names ended) : names.Pairwise (· < ·) := by
  induction walk with
  | pending | ended => exact List.Pairwise.nil
  | @visit floor served later first names ended least rest ih =>
      refine List.pairwise_cons.mpr ⟨fun name member => ?_, ih⟩
      exact (rest.bounded (isUpperSet_Ioi first) name member).1

/-- Each visited member is in the set that served its request. -/
theorem served (walk : Walk ceiling floor sets names ended) :
    List.Forall₂ (· ∈ ·) names (sets.take names.length) := by
  induction walk with
  | pending | ended => exact List.Forall₂.nil
  | visit least rest ih => exact List.Forall₂.cons least.1.1 ih

/-- So it is in one of the sets. -/
theorem mem_served (walk : Walk ceiling floor sets names ended) :
    ∀ name ∈ names, ∃ set ∈ sets, name ∈ set := by
  induction walk with
  | pending | ended => exact fun name member => absurd member List.not_mem_nil
  | visit least rest ih =>
      refine List.forall_mem_cons.mpr ⟨⟨_, List.mem_cons_self, least.1.1⟩, fun name member => ?_⟩
      obtain ⟨set, inside, present⟩ := ih name member
      exact ⟨set, List.mem_cons_of_mem _ inside, present⟩

/-- A walk that has not ended has used all its sets, and one that has ended has used
one set to find that nothing is left. -/
theorem length_eq (walk : Walk ceiling floor sets names ended) :
    if ended then names.length < sets.length else names.length = sets.length := by
  induction walk with
  | pending => rfl
  | ended => exact Nat.zero_lt_succ _
  | @visit floor served later first names ended least rest ih =>
      cases ended with
      | true => exact Nat.succ_lt_succ ih
      | false => exact congrArg Nat.succ ih

/-- A member of the range that was in every set that served the walk has been
visited, once the walk has ended. -/
theorem complete (walk : Walk ceiling floor sets names ended) (concluded : ended = true) {name : κ}
    (above : name ∈ floor) (below : name ∈ ceiling)
    (present : ∀ set ∈ sets.take (names.length + 1), name ∈ set) : name ∈ names := by
  induction walk with
  | pending => cases concluded
  | ended exhausted =>
      have here := present _ (List.mem_of_mem_head? rfl)
      exact absurd below (exhausted name here above)
  | @visit floor served later first names ended least rest ih =>
      have here := present served List.mem_cons_self
      rcases (least.2 ⟨here, above, below⟩).eq_or_lt with rfl | further
      · exact List.mem_cons_self
      · refine List.mem_cons_of_mem first (ih concluded further fun set member => ?_)
        exact present set (List.mem_cons_of_mem served member)

/-- Served by one set throughout, a walk visits the members of the range in order
and then ends, given enough requests. -/
theorem fixed {served : Set κ} {listed : List κ} {requests : Nat}
    (walk : Walk ceiling floor (List.replicate requests served) names ended)
    (upper : IsUpperSet floor) (ordered : listed.Pairwise (· < ·))
    (members : ∀ name, name ∈ listed ↔ name ∈ served ∧ name ∈ floor ∧ name ∈ ceiling)
    (enough : listed.length < requests) : names = listed ∧ ended = true := by
  induction listed generalizing floor names requests with
  | nil =>
      obtain ⟨count, rfl⟩ := Nat.exists_eq_succ_of_ne_zero (Nat.ne_of_gt enough)
      rw [List.replicate_succ] at walk
      cases walk with
      | ended _ => exact ⟨rfl, rfl⟩
      | visit least _ => exact absurd ((members _).mpr least.1) List.not_mem_nil
  | cons first listed ih =>
      obtain ⟨lowest, increasing⟩ := List.pairwise_cons.mp ordered
      obtain ⟨count, rfl⟩ := Nat.exists_eq_succ_of_ne_zero (Nat.ne_of_gt (Nat.zero_lt_of_lt enough))
      have here := (members first).mp List.mem_cons_self
      rw [List.replicate_succ] at walk
      cases walk with
      | ended exhausted => exact absurd here.2.2 (exhausted first here.1 here.2.1)
      | @visit _ _ _ name names _ least rest =>
          have taken : name = first := by
            apply le_antisymm (least.2 here)
            rcases List.mem_cons.mp ((members name).mpr least.1) with same | further
            · exact same.ge
            · exact (lowest name further).le
          subst taken
          have above (other : κ) : other ∈ listed ↔
              other ∈ served ∧ other ∈ Set.Ioi name ∧ other ∈ ceiling := by
            constructor
            · intro further
              obtain ⟨present, _, below⟩ := (members other).mp (List.mem_cons_of_mem name further)
              exact ⟨present, lowest other further, below⟩
            · rintro ⟨present, higher, below⟩
              have inside := upper (le_of_lt higher) here.2.1
              rcases List.mem_cons.mp ((members other).mpr ⟨present, inside, below⟩) with
                same | further
              · exact absurd same (ne_of_gt higher)
              · exact further
          obtain ⟨rfl, concluded⟩ :=
            ih rest (isUpperSet_Ioi name) increasing above (Nat.lt_of_succ_lt_succ enough)
          exact ⟨rfl, concluded⟩

/-- The chosen members of a list can be listed in order. -/
theorem exists_listing (members : List κ) (chosen : κ → Prop) :
    ∃ listed : List κ, listed.Pairwise (· < ·) ∧
      ∀ name, name ∈ listed ↔ name ∈ members ∧ chosen name := by
  classical
  refine ⟨(members.filter fun name => decide (chosen name)).toFinset.sort (· ≤ ·),
    (Finset.sortedLT_sort _).pairwise, fun name => ?_⟩
  rw [Finset.mem_sort, List.mem_toFinset, List.mem_filter, decide_eq_true_eq]

end Walk
end Foundation
