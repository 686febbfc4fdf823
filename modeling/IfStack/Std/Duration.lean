import Mathlib.Algebra.Group.Nat.Defs
import Mathlib.Order.Lattice

/-! # Spans of time

`std::time::Duration` as the program uses it: a count of nanoseconds that never
exceeds `Duration::MAX`. Sums saturate there, and differences saturate at zero.
An instant of the monotonic clock is a number of nanoseconds.
-/

namespace IfStack

/-- The nanoseconds of `Duration::MAX`: `u64::MAX` seconds and 999 999 999 ns. -/
def maxNanos : Nat := 2 ^ 64 * 10 ^ 9 - 1

/-- A span of time, to the nanosecond. -/
@[ext] structure Duration where
  nanos : Nat
  nanos_le : nanos ≤ maxNanos
deriving Repr

namespace Duration

instance : LinearOrder Duration := LinearOrder.lift' Duration.nanos fun _ _ => Duration.ext

/-- Durations are ordered by their nanoseconds. -/
theorem le_def {first second : Duration} : first ≤ second ↔ first.nanos ≤ second.nanos := Iff.rfl

/-- The strict order is by the nanoseconds too. -/
theorem lt_def {first second : Duration} : first < second ↔ first.nanos < second.nanos := Iff.rfl

/-- `Duration::MAX`. -/
def maximum : Duration := ⟨maxNanos, Nat.le_refl _⟩

/-- `Duration::ZERO`. -/
def zero : Duration := ⟨0, Nat.zero_le _⟩

@[simp] theorem zero_nanos : zero.nanos = 0 := rfl

/-- No duration is over `Duration::MAX`. -/
theorem le_maximum (span : Duration) : span ≤ maximum := span.nanos_le

/-- A whole number of seconds. -/
def fromSecs (secs : UInt64) : Duration :=
  ⟨secs.toNat * 10 ^ 9, by
    have bound := secs.toNat_lt
    unfold maxNanos
    omega⟩

/-- The sum, or `Duration::MAX` where it does not fit. -/
def saturatingAdd (first second : Duration) : Duration :=
  ⟨min (first.nanos + second.nanos) maxNanos, Nat.min_le_right _ _⟩

/-- The difference, or zero where it would be negative. -/
def saturatingSub (first second : Duration) : Duration :=
  ⟨first.nanos - second.nanos, (Nat.sub_le _ _).trans first.nanos_le⟩

@[simp] theorem saturatingAdd_nanos (first second : Duration) :
    (first.saturatingAdd second).nanos = min (first.nanos + second.nanos) maxNanos := rfl

@[simp] theorem saturatingSub_nanos (first second : Duration) :
    (first.saturatingSub second).nanos = first.nanos - second.nanos := rfl

@[simp] theorem min_nanos (first second : Duration) :
    (min first second).nanos = min first.nanos second.nanos := by
  rcases le_total first second with below | above
  · rw [min_eq_left below, Nat.min_eq_left below]
  · rw [min_eq_right above, Nat.min_eq_right above]

@[simp] theorem max_nanos (first second : Duration) :
    (max first second).nanos = max first.nanos second.nanos := by
  rcases le_total first second with below | above
  · rw [max_eq_right below, Nat.max_eq_right below]
  · rw [max_eq_left above, Nat.max_eq_left above]

/-- A saturating sum is not below its first summand. -/
theorem le_saturatingAdd (first second : Duration) : first ≤ first.saturatingAdd second := by
  have bound := first.nanos_le
  simp only [le_def, saturatingAdd_nanos]
  omega

/-- Saturating addition is monotone. -/
theorem saturatingAdd_le_saturatingAdd {first first' second second' : Duration}
    (left : first ≤ first') (right : second ≤ second') :
    first.saturatingAdd second ≤ first'.saturatingAdd second' := by
  simp only [le_def, saturatingAdd_nanos] at left right ⊢
  omega

end Duration

/-- `saturating_duration_since`. -/
def durationSince (later earlier : Nat) : Duration := ⟨min (later - earlier) maxNanos, by omega⟩

/-- No time remains at the later instant or after it, and some does before it. -/
theorem durationSince_eq_zero {later earlier : Nat} :
    durationSince later earlier = .zero ↔ later ≤ earlier := by
  have positive : 0 < maxNanos := by decide
  constructor
  · intro passed
    have none : min (later - earlier) maxNanos = 0 := congrArg Duration.nanos passed
    omega
  · intro passed
    apply Duration.ext
    change min (later - earlier) maxNanos = 0
    omega

/-- Where time remains, the later instant is still to come. -/
theorem lt_of_durationSince {later earlier : Nat} (remains : durationSince later earlier ≠ .zero) :
    earlier < later :=
  Nat.lt_of_not_le (mt durationSince_eq_zero.mpr remains)

end IfStack
