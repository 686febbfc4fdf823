import IfStack.Netlink.Decode
import IfStack.Std.Duration

/-! # The world behind the datagram seam

`trait DatagramIo` and the monotonic clock. A behaviour answers every call from
the calls made before it, so any course of answers is the course of some
behaviour. The world keeps the log of its calls, newest first.
-/

namespace IfStack

/-- `Ready`. -/
structure Ready where
  notification : Bool
  dump : Bool
  notificationFailed : Bool
  dumpFailed : Bool
deriving DecidableEq

/-- The use of a socket. -/
inductive Role
  | notification
  | dump
deriving DecidableEq

/-- A call of the world and its answer. Instants are in nanoseconds. -/
inductive Call (S : Type)
  | opened (groups : UInt32) (answer : Except Error S)
  | sent (socket : S) (bytes : List UInt8) (answer : Except Error Unit)
  | polled (notification : S) (dump : Option S) (timeout : Duration)
      (answer : Except Error Ready)
  | received (role : Role) (socket : S) (answer : Except Error Datagram)
  /-- `Instant::now()`. -/
  | instant (reading : Nat)
  /-- `origin.elapsed()`, with the instant it read. -/
  | elapsed (reading : Nat)
  | slept (timeout : Duration)

/-- The answers to the calls of `DatagramIo` and to readings of the clock, given
all earlier calls. -/
structure Behaviour (S : Type) where
  openSocket : List (Call S) → UInt32 → Except Error S
  send : List (Call S) → S → List UInt8 → Except Error Unit
  wait : List (Call S) → S → Option S → Duration → Except Error Ready
  receive : List (Call S) → S → Except Error Datagram
  clock : List (Call S) → Nat

/-- After the calls of a log, the behaviour gives a call its answer. -/
def Behaviour.Answers {S : Type} (behaviour : Behaviour S) (log : List (Call S)) : Call S → Prop
  | .opened groups answer => behaviour.openSocket log groups = answer
  | .sent socket bytes answer => behaviour.send log socket bytes = answer
  | .polled notification dump timeout answer =>
      behaviour.wait log notification dump timeout = answer
  | .received _ socket answer => behaviour.receive log socket = answer
  | .instant reading | .elapsed reading => behaviour.clock log = reading
  | .slept _ => True

/-- The platform, its behaviour, and the calls made so far, newest first. -/
structure World (S : Type) where
  platform : Platform
  behaviour : Behaviour S
  log : List (Call S)

namespace World

variable {S : Type}

/-- Enter a call into the log. -/
def record (world : World S) (call : Call S) : World S := { world with log := call :: world.log }

@[simp] theorem record_platform (world : World S) (call : Call S) :
    (world.record call).platform = world.platform := rfl

/-- The world after some more calls, newest first. -/
def extend (world : World S) (calls : List (Call S)) : World S :=
  { world with log := calls ++ world.log }

@[simp] theorem extend_platform (world : World S) (calls : List (Call S)) :
    (world.extend calls).platform = world.platform := rfl

/-- Two extensions are one by both. -/
@[simp] theorem extend_extend (world : World S) (newer older : List (Call S)) :
    (world.extend older).extend newer = world.extend (newer ++ older) := by
  simp only [extend, List.append_assoc]

/-- An extension adds calls to the log, and nothing else shows. -/
theorem extend_eq {before after : World S} {calls : List (Call S)}
    (extended : after = before.extend calls) :
    after.platform = before.platform ∧ after.log = calls ++ before.log :=
  extended ▸ ⟨rfl, rfl⟩

/-- These calls, newest first, get their answers when they are the next to be made. -/
def Answers (world : World S) : List (Call S) → Prop
  | [] => True
  | call :: older => world.behaviour.Answers (older ++ world.log) call ∧ world.Answers older

/-- Calls in sequence are answered in sequence. -/
theorem answers_append {world : World S} {newer older : List (Call S)} :
    world.Answers (newer ++ older) ↔
      world.Answers older ∧ (world.extend older).Answers newer := by
  induction newer with
  | nil => exact (and_iff_left trivial).symm
  | cons call newer ih =>
      rw [List.cons_append, Answers, ih, Answers, extend, List.append_assoc, and_left_comm]

/-- `DatagramIo::open`. -/
def openSocket (world : World S) (groups : UInt32) : Except Error S × World S :=
  let answer := world.behaviour.openSocket world.log groups
  (answer, world.record (.opened groups answer))

/-- `DatagramIo::send`. -/
def send (world : World S) (socket : S) (bytes : List UInt8) : Except Error Unit × World S :=
  let answer := world.behaviour.send world.log socket bytes
  (answer, world.record (.sent socket bytes answer))

/-- `DatagramIo::wait`. -/
def wait (world : World S) (notification : S) (dump : Option S) (timeout : Duration) :
    Except Error Ready × World S :=
  let answer := world.behaviour.wait world.log notification dump timeout
  (answer, world.record (.polled notification dump timeout answer))

/-- `DatagramIo::receive`. -/
def receive (world : World S) (role : Role) (socket : S) : Except Error Datagram × World S :=
  let answer := world.behaviour.receive world.log socket
  (answer, world.record (.received role socket answer))

/-- `Instant::now()`. -/
def instant (world : World S) : Nat × World S :=
  let reading := world.behaviour.clock world.log
  (reading, world.record (.instant reading))

/-- The instant that `origin.elapsed()` reads. -/
def elapsed (world : World S) : Nat × World S :=
  let reading := world.behaviour.clock world.log
  (reading, world.record (.elapsed reading))

/-- `std::thread::sleep`. -/
def sleep (world : World S) (timeout : Duration) : World S := world.record (.slept timeout)

end World

end IfStack
