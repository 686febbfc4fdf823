import IfStack.Foundation.Ladder
import IfStack.Monitor.State

/-! # The two backoff ladders

Failures and link changes back off alike: a second at first, twice as long each
time, never more than `maxDelay`. Both delays are rungs of one ladder.
-/

namespace IfStack

open Foundation

/-- The delay after a number of doublings: `min(2^count, 30)` seconds. -/
def backoff (count : Nat) : Duration where
  nanos := min (2 ^ count) 30 * 10 ^ 9
  nanos_le := by
    have capped := Nat.min_le_right (2 ^ count) 30
    unfold maxNanos
    omega

/-- The delays are the rungs from one second to thirty. -/
theorem backoff_nanos (count : Nat) :
    (backoff count).nanos = Ladder.rung (10 ^ 9) (30 * 10 ^ 9) count := by
  exact (Nat.mul_min_mul_right _ _ _).symm

/-- The initial delay is the first rung. -/
theorem initialDelay_eq : initialDelay = backoff 0 := rfl

/-- `next_delay` goes up by one rung. -/
theorem nextDelay_backoff (count : Nat) : nextDelay (backoff count) = backoff (count + 1) := by
  have capped := Ladder.rung_le_cap (10 ^ 9) (30 * 10 ^ 9) count
  have cap : maxDelay.nanos = 30 * 10 ^ 9 := rfl
  rw [Duration.ext_iff, backoff_nanos, Ladder.rung_succ, nextDelay, Duration.min_nanos, cap,
    Duration.saturatingAdd_nanos, backoff_nanos]
  unfold maxNanos
  omega

/-- No delay is over thirty seconds. -/
theorem backoff_le_maxDelay (count : Nat) : backoff count ≤ maxDelay := by
  rw [Duration.le_def, backoff_nanos]
  exact Ladder.rung_le_cap _ _ _

/-- Delays do not fall with the failures. -/
theorem backoff_le_backoff {fewer more : Nat} (climbed : fewer ≤ more) :
    backoff fewer ≤ backoff more := by
  rw [Duration.le_def, backoff_nanos, backoff_nanos]
  exact Ladder.rung_le_rung _ _ climbed

/-- No delay is below one second. -/
theorem initialDelay_le_backoff (count : Nat) : initialDelay ≤ backoff count := by
  rw [initialDelay_eq]
  exact backoff_le_backoff (Nat.zero_le count)

end IfStack
