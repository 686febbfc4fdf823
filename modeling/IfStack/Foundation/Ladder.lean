import Mathlib.Algebra.Order.Group.Nat
import Mathlib.Tactic.Ring

/-! # Doubling up to a cap

The rungs of a ladder that starts at a unit and doubles until it reaches a cap.
Doubling a rung and capping the result again gives the next rung, so a counter
that is only ever doubled and capped is determined by how often that happened.
-/

namespace Foundation
namespace Ladder

/-- The value after a number of doublings. -/
def rung (unit cap count : Nat) : Nat := min (2 ^ count * unit) cap

variable {unit cap : Nat}

/-- The next rung is twice the last one, up to the cap. -/
theorem rung_succ (unit cap count : Nat) :
    rung unit cap (count + 1) = min (rung unit cap count + rung unit cap count) cap := by
  have doubled : 2 ^ (count + 1) * unit = 2 ^ count * unit + 2 ^ count * unit := by ring
  unfold rung
  omega

/-- No rung is over the cap. -/
theorem rung_le_cap (unit cap count : Nat) : rung unit cap count ≤ cap := Nat.min_le_right _ _

/-- Rungs do not fall. -/
theorem rung_le_rung (unit cap : Nat) {fewer more : Nat} (climbed : fewer ≤ more) :
    rung unit cap fewer ≤ rung unit cap more :=
  min_le_min_right _ (Nat.mul_le_mul_right _ (Nat.pow_le_pow_right Nat.two_pos climbed))

end Ladder
end Foundation
