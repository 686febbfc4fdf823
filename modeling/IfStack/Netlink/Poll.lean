import IfStack.Netlink.World
import Mathlib.Algebra.Group.Int.Defs

/-! # The timeout of a poll

`SocketIo::wait`: the sockets are polled until something happens or the timeout is over,
and polled again for the rest of it after an interruption. `poll` takes milliseconds as
an `i32`; what remains is rounded up to them, so that a poll neither ends early nor
returns at once while time remains.
-/

namespace IfStack

namespace Duration

/-- `as_secs`. -/
def asSecs (span : Duration) : UInt64 := .ofNat (span.nanos / 10 ^ 9)

/-- `subsec_nanos`. -/
def subsecNanos (span : Duration) : UInt32 := .ofNat (span.nanos % 10 ^ 9)

/-- `as_millis`, a `u128`. -/
def asMillis (span : Duration) : BitVec 128 :=
  span.asSecs.toBitVec.setWidth 128 * 1000#128 +
    (span.subsecNanos / 1000000).toBitVec.setWidth 128

/-- The whole seconds of a duration. -/
theorem asSecs_toNat (span : Duration) : span.asSecs.toNat = span.nanos / 10 ^ 9 := by
  have bound := span.nanos_le
  unfold maxNanos at bound
  unfold asSecs
  rw [UInt64.toNat_ofNat']
  omega

/-- The nanoseconds of a duration beyond its whole seconds. -/
theorem subsecNanos_toNat (span : Duration) : span.subsecNanos.toNat = span.nanos % 10 ^ 9 := by
  unfold subsecNanos
  rw [UInt32.toNat_ofNat']
  omega

/-- The milliseconds of a span fit. -/
theorem asMillis_toNat (span : Duration) : span.asMillis.toNat = span.nanos / 10 ^ 6 := by
  have bound := span.nanos_le
  unfold maxNanos at bound
  have secs : span.asSecs.toBitVec.toNat = span.nanos / 10 ^ 9 := span.asSecs_toNat
  have subsec : (span.subsecNanos / 1000000).toBitVec.toNat = span.nanos % 10 ^ 9 / 1000000 := by
    rw [UInt32.toNat_toBitVec, UInt32.toNat_div, subsecNanos_toNat]
    rfl
  unfold asMillis
  rw [BitVec.toNat_add, BitVec.toNat_mul, BitVec.toNat_setWidth, BitVec.toNat_setWidth, secs,
    subsec, BitVec.toNat_ofNat]
  omega

end Duration

/-- `u128::saturating_add`. -/
def saturatingAdd (first second : BitVec 128) : BitVec 128 :=
  if first.toNat + second.toNat < 2 ^ 128 then first + second else BitVec.allOnes 128

/-- One for a part of a millisecond: `u128::from(!subsec_nanos.is_multiple_of(..))`. -/
def roundUp (remaining : Duration) : BitVec 128 :=
  if remaining.subsecNanos % 1000000 = 0 then 0#128 else 1#128

/-- `min(i32::MAX as u128) as i32`. -/
def clampMillis (millis : BitVec 128) : Int32 :=
  .ofBitVec ((if millis.toNat ≤ 2147483647 then millis else 2147483647#128).setWidth 32)

/-- The timeout of a poll, in milliseconds. -/
def pollMillis (remaining : Duration) : Int32 :=
  clampMillis (saturatingAdd remaining.asMillis (roundUp remaining))

/-- How `poll` returns: with the `revents` of the two descriptors, or with an error. -/
inductive PollAnswer
  | polled (notification dump : Int16)
  | failed (error : Error)
deriving DecidableEq

/-- A turn of the loop: the instant that `started.elapsed()` reads, and the answer of
`poll`. -/
structure PollTurn where
  reading : Nat
  answer : PollAnswer
deriving DecidableEq

/-- A call of `poll`, behind a reading of the clock. -/
structure PollCall (S : Type) where
  reading : Nat
  descriptors : List S
  millis : Int32
deriving DecidableEq

namespace SocketIo

variable {S : Type}

/-- `POLLIN`. -/
def pollIn : Int16 := 0x001

/-- `POLLERR`. -/
def pollErr : Int16 := 0x008

/-- `POLLHUP`. -/
def pollHup : Int16 := 0x010

/-- `POLLNVAL`. -/
def pollNval : Int16 := 0x020

/-- The loop of `wait`, with the calls of `poll` it makes. Nothing is returned while
every poll is interrupted. -/
def pollLoop (descriptors : List S) (timeout : Duration) (started : Nat) :
    List PollTurn → List (PollCall S) × Option (Except Error (Int16 × Int16))
  | [] => ([], none)
  | turn :: turns =>
      let remaining := timeout.saturatingSub (durationSince turn.reading started)
      let call := ⟨turn.reading, descriptors, pollMillis remaining⟩
      match turn.answer with
      | .polled notification dump => ([call], some (.ok (notification, dump)))
      | .failed error =>
          if error.kind ≠ .interrupted then ([call], some (.error error))
          else
            let (calls, result) := pollLoop descriptors timeout started turns
            (call :: calls, result)

/-- What the `revents` say; without a dump socket there are none for it. -/
def readyFrom (dump : Option S) (revents : Int16 × Int16) : Ready :=
  let failed := pollHup ||| pollNval
  let notification := revents.1
  let dump := if dump.isSome then revents.2 else 0
  { notification := notification &&& (pollIn ||| pollErr) ≠ 0
    dump := dump &&& (pollIn ||| pollErr) ≠ 0
    notificationFailed := notification &&& failed ≠ 0
    dumpFailed := dump &&& failed ≠ 0 }

/-- `SocketIo::wait`, entered at an instant. -/
def wait (notification : S) (dump : Option S) (timeout : Duration) (started : Nat)
    (turns : List PollTurn) : List (PollCall S) × Option (Except Error Ready) :=
  let (calls, result) := pollLoop (notification :: dump.toList) timeout started turns
  (calls, result.map fun answer => answer.map (readyFrom dump))

end SocketIo

/-- The conversion of a span to milliseconds never overflows: the count fits a `u128`,
one more does too, and the cast to `i32` keeps the value. -/
structure Converts (remaining : Duration) : Prop where
  millis : remaining.asMillis.toNat = remaining.nanos / 10 ^ 6
  sum : remaining.asMillis.toNat + 1 < 2 ^ 128
  cast : (pollMillis remaining).toInt =
    (min ((remaining.nanos + (10 ^ 6 - 1)) / 10 ^ 6) (2 ^ 31 - 1) : Nat)

/-- Milliseconds that stand for the nanoseconds that remain. -/
structure Rounded (remaining : Nat) (millis : Int32) : Prop where
  exact : millis.toInt = (min ((remaining + (10 ^ 6 - 1)) / 10 ^ 6) (2 ^ 31 - 1) : Nat)
  nonneg : 0 ≤ millis.toInt
  zero : millis = 0 ↔ remaining = 0
  covers : millis.toInt = 2 ^ 31 - 1 ∨ remaining ≤ millis.toInt * 10 ^ 6
  close : millis.toInt * 10 ^ 6 < remaining + 10 ^ 6

/-- A saturating sum that fits is the sum. -/
theorem saturatingAdd_toNat {first second : BitVec 128}
    (fits : first.toNat + second.toNat < 2 ^ 128) :
    (saturatingAdd first second).toNat = first.toNat + second.toNat := by
  rw [saturatingAdd, if_pos fits, BitVec.toNat_add, Nat.mod_eq_of_lt fits]

/-- A part of a millisecond counts as one. -/
theorem roundUp_toNat (remaining : Duration) :
    (roundUp remaining).toNat = if remaining.nanos % 10 ^ 6 = 0 then 0 else 1 := by
  have same : remaining.subsecNanos % 1000000 = 0 ↔ remaining.nanos % 10 ^ 6 = 0 := by
    rw [← UInt32.toNat_inj, UInt32.toNat_mod, Duration.subsecNanos_toNat]
    change remaining.nanos % 10 ^ 9 % 1000000 = 0 ↔ _
    omega
  unfold roundUp
  split <;> rename_i whole
  · rw [if_pos (same.mp whole)]
    rfl
  · rw [if_neg (mt same.mpr whole)]
    rfl

/-- A count that is at most `i32::MAX` keeps its value. -/
theorem clampMillis_toInt (millis : BitVec 128) :
    (clampMillis millis).toInt = (min millis.toNat (2 ^ 31 - 1) : Nat) := by
  have cast (value : BitVec 128) (small : value.toNat < 2 ^ 31) :
      (Int32.ofBitVec (value.setWidth 32)).toInt = value.toNat := by
    have narrow : (value.setWidth 32).toNat = value.toNat := by
      rw [BitVec.toNat_setWidth]
      omega
    change (value.setWidth 32).toInt = _
    rw [BitVec.toInt_eq_toNat_of_lt (by omega), narrow]
  unfold clampMillis
  split <;> rename_i within
  · rw [cast millis (by omega)]
    omega
  · rw [cast _ (by decide)]
    change (2147483647 : Int) = _
    omega

/-- Every remaining time is converted. -/
theorem converts (remaining : Duration) : Converts remaining := by
  have bound := remaining.nanos_le
  unfold maxNanos at bound
  have millis := remaining.asMillis_toNat
  have up := roundUp_toNat remaining
  have sum : remaining.asMillis.toNat + 1 < 2 ^ 128 := by omega
  have total := saturatingAdd_toNat
    (show remaining.asMillis.toNat + (roundUp remaining).toNat < 2 ^ 128 by
      rw [up]
      split <;> omega)
  have ceiling : (saturatingAdd remaining.asMillis (roundUp remaining)).toNat =
      (remaining.nanos + (10 ^ 6 - 1)) / 10 ^ 6 := by
    rw [total, millis, up]
    split <;> omega
  refine ⟨millis, sum, ?_⟩
  unfold pollMillis
  rw [clampMillis_toInt, ceiling]

/-- What a poll is given stands for what remains. -/
theorem pollMillis_rounded (remaining : Duration) :
    Rounded remaining.nanos (pollMillis remaining) := by
  have exact := (converts remaining).cast
  refine ⟨exact, ?_, ?_, ?_, ?_⟩
  · omega
  · have zero : (0 : Int32).toInt = 0 := rfl
    rw [← Int32.toInt_inj, exact, zero]
    omega
  · omega
  · omega

namespace SocketIo

variable {S : Type}

/-- What remains of a timeout is counted from the instant at which the wait was
entered. -/
theorem remaining_nanos (timeout : Duration) (started reading : Nat) :
    (timeout.saturatingSub (durationSince reading started)).nanos =
      timeout.nanos - (reading - started) := by
  have bound := timeout.nanos_le
  rw [Duration.saturatingSub_nanos]
  unfold durationSince
  dsimp only
  omega

/-- Each poll of the loop waits for what is left of the time, rounded up. -/
theorem pollLoop_rounded (descriptors : List S) (timeout : Duration) (started : Nat)
    (turns : List PollTurn) :
    ∀ call ∈ (pollLoop descriptors timeout started turns).1,
      Rounded (timeout.nanos - (call.reading - started)) call.millis := by
  induction turns with
  | nil =>
      intro call member
      cases member
  | cons turn turns ih =>
      have first : Rounded (timeout.nanos - (turn.reading - started))
          (pollMillis (timeout.saturatingSub (durationSince turn.reading started))) := by
        rw [← remaining_nanos]
        exact pollMillis_rounded _
      rw [pollLoop]
      dsimp only
      split
      · exact List.forall_mem_singleton.mpr first
      · split
        · exact List.forall_mem_singleton.mpr first
        · exact List.forall_mem_cons.mpr ⟨first, ih⟩

/-- While it is interrupted, a wait polls again at each turn. -/
theorem pollLoop_interrupted (descriptors : List S) (timeout : Duration) (started : Nat)
    {turns : List PollTurn}
    (interrupted : ∀ turn ∈ turns, ∃ error, turn.answer = .failed error ∧
      error.kind = .interrupted) :
    (pollLoop descriptors timeout started turns).1.map PollCall.reading =
      turns.map PollTurn.reading := by
  induction turns with
  | nil => rfl
  | cons turn turns ih =>
      obtain ⟨first, rest⟩ := List.forall_mem_cons.mp interrupted
      obtain ⟨error, failed, again⟩ := first
      rw [pollLoop]
      simp only [failed, again, ne_eq, not_true_eq_false, ↓reduceIte, List.map_cons, ih rest]

/-- Every poll of a wait is given what remains of the timeout, rounded up to
milliseconds, however often it is interrupted; and no span overflows the conversion. -/
theorem wait_rounded (notification : S) (dump : Option S) (timeout : Duration) (started : Nat)
    (turns : List PollTurn) :
    (∀ call ∈ (wait notification dump timeout started turns).1,
      Rounded (timeout.nanos - (call.reading - started)) call.millis) ∧
    ((∀ turn ∈ turns, ∃ error, turn.answer = .failed error ∧ error.kind = .interrupted) →
      (wait notification dump timeout started turns).1.map PollCall.reading =
        turns.map PollTurn.reading) ∧
    ∀ remaining, Converts remaining :=
  ⟨pollLoop_rounded _ timeout started turns, pollLoop_interrupted _ timeout started, converts⟩

example : pollMillis .maximum = 2147483647 := by decide +kernel

end SocketIo
end IfStack
