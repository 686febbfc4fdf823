import Mathlib.Data.List.Basic
import Mathlib.Data.Nat.Init

/-! # Points spaced apart

A list of points in time, newest first, each at least a gap after every older
one. A window of time holds few of them.
-/

namespace Foundation

/-- Every point lies at least a gap after the points older than it. -/
def Spaced (gap : Nat) (points : List Nat) : Prop :=
  points.Pairwise fun newer older => older + gap ≤ newer

namespace Spaced

variable {gap low high : Nat} {points : List Nat}

/-- The gaps between the points of a window fit into it. -/
theorem length_mul_le {point : Nat} (spaced : Spaced gap (point :: points))
    (inside : ∀ other ∈ point :: points, low ≤ other ∧ other ≤ high) :
    points.length * gap + low ≤ high := by
  induction points generalizing point high with
  | nil =>
      have bounds := inside point List.mem_cons_self
      rw [List.length_nil, Nat.zero_mul]
      omega
  | cons next points ih =>
      obtain ⟨after, rest⟩ := List.pairwise_cons.mp spaced
      have last := (inside point List.mem_cons_self).2
      have fits := @ih (high - gap) next rest fun other member => by
        have below := after other member
        have lower := (inside other (List.mem_cons_of_mem _ member)).1
        omega
      have room := after next List.mem_cons_self
      rw [List.length_cons, Nat.succ_mul]
      omega

/-- A window holds at most one point for each gap that fits into it, and one
more. -/
theorem length_le {span : Nat} (spaced : Spaced gap points) (positive : 0 < gap)
    (inside : ∀ point ∈ points, low ≤ point ∧ point ≤ low + span) :
    points.length ≤ span / gap + 1 := by
  cases points with
  | nil => exact Nat.zero_le _
  | cons point points =>
      have fits := spaced.length_mul_le inside
      have counted : points.length ≤ span / gap := by
        rw [Nat.le_div_iff_mul_le positive]
        omega
      exact Nat.succ_le_succ counted

end Spaced
end Foundation
