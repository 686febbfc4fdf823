import IfStack.Session.Pdu

/-! # The stream to the master

`UnixStream` and the monotonic clock as the session uses them. The stream holds the
bytes that the master sends before it closes, and how the reads, the clock readings
and the other calls to come will go, so any course of a connection is that of some
stream. It keeps the log of its calls, newest first.
-/

namespace IfStack

/-- How a read ends: with some of the bytes that wait, or with an error. -/
inductive Delivery
  | chunk (size : Nat)
  | failed (error : Error)
deriving DecidableEq

/-- The end of a read, and how long it takes. -/
structure Arrival where
  delay : Nat
  delivery : Delivery
deriving DecidableEq

/-- A call, with its answer. Instants are in nanoseconds. -/
inductive SocketCall
  | connected (answer : Except Error Unit)
  | readTimeoutSet (timeout : Option Duration) (answer : Except Error Unit)
  | writeTimeoutSet (timeout : Option Duration) (answer : Except Error Unit)
  | readTimeoutGot (answer : Except Error (Option Duration))
  /-- `Instant::now()`. -/
  | instant (reading : Nat)
  /-- A read under a timeout, and when it returned. -/
  | read (timeout : Option Duration) (requested : Nat) (answer : Except Error (List UInt8))
      (returned : Nat)
  | wrote (bytes : List UInt8) (answer : Except Error Unit)
  /-- The buffer of a frame grows to a length. -/
  | resized (length : Nat)
  /-- A frame is there as a whole. -/
  | received (header : Header) (bytes : List UInt8)
  /-- The callback `registered`. -/
  | registered

/-- Without a timeout there is none of zero. -/
theorem noTimeout_nonzero : (none : Option Duration) ≠ some .zero := (Option.some_ne_none _).symm

/-- The stream. A read takes the next arrival, and all it asked for when none is left;
a reading of the clock comes the next lag later; any other call is refused with the
next refusal that is an error. A timeout is never zero. -/
structure UnixStream where
  incoming : List UInt8
  arrivals : List Arrival
  lags : List Nat
  refusals : List (Option Error)
  now : Nat
  readTimeout : Option Duration
  log : List SocketCall
  nonzero : readTimeout ≠ some .zero := by exact noTimeout_nonzero

/-- How a run stops early: with an error that is returned, or a panic. -/
inductive Stop
  | failed (error : Error)
  | panicked
deriving DecidableEq

namespace UnixStream

/-- Enter a call into the log. -/
def record (stream : UnixStream) (call : SocketCall) : UnixStream :=
  { stream with log := call :: stream.log }

/-- The answer to a call that may be refused. -/
def answer (stream : UnixStream) : Except Error Unit × UnixStream :=
  match stream.refusals with
  | [] => (.ok (), stream)
  | none :: refusals => (.ok (), { stream with refusals })
  | some error :: refusals => (.error error, { stream with refusals })

/-- `UnixStream::set_read_timeout`. A zero timeout is an error. -/
def setReadTimeout (timeout : Option Duration) (stream : UnixStream) :
    Except Error Unit × UnixStream :=
  if zero : timeout = some .zero then
    let refusal := .error ⟨.invalidInput, [.text "cannot set a 0 duration timeout"]⟩
    (refusal, stream.record (.readTimeoutSet timeout refusal))
  else
    match stream.answer with
    | (.ok (), stream) =>
        let stream := { stream with readTimeout := timeout, nonzero := zero }
        (.ok (), stream.record (.readTimeoutSet timeout (.ok ())))
    | (.error error, stream) =>
        (.error error, stream.record (.readTimeoutSet timeout (.error error)))

/-- A call that may be refused and leaves no trace but its answer. -/
def ask (call : Except Error Unit → SocketCall) (stream : UnixStream) :
    Except Error Unit × UnixStream :=
  let (answer, stream) := stream.answer
  (answer, stream.record (call answer))

/-- `UnixStream::connect`. -/
def connect : UnixStream → Except Error Unit × UnixStream := ask .connected

/-- `UnixStream::set_write_timeout`. -/
def setWriteTimeout (timeout : Option Duration) : UnixStream → Except Error Unit × UnixStream :=
  ask (.writeTimeoutSet timeout)

/-- `Write::write_all`. -/
def writeAll (bytes : List UInt8) : UnixStream → Except Error Unit × UnixStream :=
  ask (.wrote bytes)

/-- `UnixStream::read_timeout`. -/
def getReadTimeout (stream : UnixStream) : Except Error (Option Duration) × UnixStream :=
  match stream.answer with
  | (.ok (), stream) =>
      (.ok stream.readTimeout, stream.record (.readTimeoutGot (.ok stream.readTimeout)))
  | (.error error, stream) => (.error error, stream.record (.readTimeoutGot (.error error)))

/-- `Instant::now()`. -/
def instant (stream : UnixStream) : Nat × UnixStream :=
  let reading := stream.now + stream.lags.headD 0
  (reading, { stream with now := reading, lags := stream.lags.tail }.record (.instant reading))

/-- `Read::read` into a buffer of a length. It gives at least one byte, unless the
master has closed. -/
def read (requested : Nat) (stream : UnixStream) : Except Error (List UInt8) × UnixStream :=
  let arrival := stream.arrivals.headD ⟨0, .chunk requested⟩
  let stream := { stream with
    arrivals := stream.arrivals.tail, now := stream.now + arrival.delay }
  match arrival.delivery with
  | .failed error =>
      (.error error,
        stream.record (.read stream.readTimeout requested (.error error) stream.now))
  | .chunk size =>
      let count := min (max size 1) requested
      let bytes := stream.incoming.take count
      (.ok bytes, { stream with incoming := stream.incoming.drop count }.record
        (.read stream.readTimeout requested (.ok bytes) stream.now))

/-- A later state of the stream: bytes are taken and calls made, and of what is to
come a part is left. -/
structure Advances (before after : UnixStream) (bytes : List UInt8)
    (calls : List SocketCall) : Prop where
  incoming : before.incoming = bytes ++ after.incoming
  arrivals : after.arrivals <:+ before.arrivals
  refusals : after.refusals <:+ before.refusals
  log : after.log = calls ++ before.log

/-- A stream advances by nothing. -/
theorem Advances.refl (stream : UnixStream) : stream.Advances stream [] [] :=
  ⟨rfl, List.suffix_rfl, List.suffix_rfl, rfl⟩

/-- It advances by two steps in turn. -/
theorem Advances.trans {first second third : UnixStream} {bytes bytes' : List UInt8}
    {calls calls' : List SocketCall} (before : first.Advances second bytes calls)
    (after : second.Advances third bytes' calls') :
    first.Advances third (bytes ++ bytes') (calls' ++ calls) where
  incoming := by rw [before.incoming, after.incoming, List.append_assoc]
  arrivals := after.arrivals.trans before.arrivals
  refusals := after.refusals.trans before.refusals
  log := by rw [after.log, before.log, List.append_assoc]

/-- Reading the clock advances by that call. -/
theorem instant_advances (stream : UnixStream) :
    stream.Advances stream.instant.2 [] [.instant stream.instant.1] :=
  ⟨rfl, List.suffix_rfl, List.suffix_rfl, rfl⟩

/-- A call that may be refused uses up what answers it. -/
theorem answer_advances (stream : UnixStream) : stream.Advances stream.answer.2 [] [] ∧
    stream.answer.2.readTimeout = stream.readTimeout := by
  unfold answer
  split
  · exact ⟨.refl stream, rfl⟩
  · rename_i refused
    exact ⟨⟨rfl, List.suffix_rfl, refused ▸ List.suffix_cons _ _, rfl⟩, rfl⟩
  · rename_i refused
    exact ⟨⟨rfl, List.suffix_rfl, refused ▸ List.suffix_cons _ _, rfl⟩, rfl⟩

/-- Asking the system advances by that call. -/
theorem ask_advances {call : Except Error Unit → SocketCall} {stream after : UnixStream}
    {answer : Except Error Unit} (asked : stream.ask call = (answer, after)) :
    stream.Advances after [] [call answer] := by
  have answered := (answer_advances stream).1
  cases asked
  exact ⟨answered.incoming, answered.arrivals, answered.refusals, congrArg (_ :: ·) answered.log⟩

/-- Setting the read timeout advances by that call. -/
theorem setReadTimeout_advances {timeout : Option Duration} {stream after : UnixStream}
    {answer : Except Error Unit} (set : stream.setReadTimeout timeout = (answer, after)) :
    stream.Advances after [] [.readTimeoutSet timeout answer] := by
  unfold setReadTimeout at set
  split at set
  · obtain ⟨rfl, rfl⟩ := Prod.mk.inj set
    exact ⟨rfl, List.suffix_rfl, List.suffix_rfl, rfl⟩
  · have answered := (answer_advances stream).1
    split at set <;> rename_i same <;> rw [same] at answered <;>
      obtain ⟨rfl, rfl⟩ := Prod.mk.inj set <;>
      exact ⟨answered.incoming, answered.arrivals, answered.refusals,
        congrArg (_ :: ·) answered.log⟩

/-- A timeout that is set stands. -/
theorem setReadTimeout_ok {timeout : Option Duration} {stream after : UnixStream}
    (set : stream.setReadTimeout timeout = (.ok (), after)) : after.readTimeout = timeout := by
  unfold setReadTimeout at set
  split at set
  · cases congrArg Prod.fst set
  · split at set
    · cases set
      rfl
    · cases congrArg Prod.fst set

/-- Looking at the read timeout advances by that call, and gives the one that is set. -/
theorem getReadTimeout_advances {stream after : UnixStream}
    {answer : Except Error (Option Duration)} (found : stream.getReadTimeout = (answer, after)) :
    stream.Advances after [] [.readTimeoutGot answer] ∧
      ∀ timeout, answer = .ok timeout → timeout = stream.readTimeout := by
  unfold getReadTimeout at found
  obtain ⟨answered, kept⟩ := answer_advances stream
  split at found <;> rename_i same <;> rw [same] at answered kept <;>
    obtain ⟨rfl, rfl⟩ := Prod.mk.inj found
  · refine ⟨⟨answered.incoming, answered.arrivals, answered.refusals,
      congrArg (_ :: ·) answered.log⟩, fun timeout known => ?_⟩
    exact (Except.ok.inj known).symm.trans kept
  · refine ⟨⟨answered.incoming, answered.arrivals, answered.refusals,
      congrArg (_ :: ·) answered.log⟩, fun timeout known => ?_⟩
    cases known

/-- What a read takes. -/
def taken : Except Error (List UInt8) → List UInt8
  | .ok bytes => bytes
  | .error _ => []

/-- A read takes no more than it asks for. -/
theorem read_advances {requested : Nat} {stream after : UnixStream}
    {answer : Except Error (List UInt8)} (got : stream.read requested = (answer, after)) :
    stream.Advances after (taken answer)
        [.read stream.readTimeout requested answer after.now] ∧
      (taken answer).length ≤ requested ∧ after.readTimeout = stream.readTimeout := by
  unfold read at got
  dsimp only at got
  split at got
  · obtain ⟨rfl, rfl⟩ := Prod.mk.inj got
    exact ⟨⟨rfl, List.tail_suffix _, List.suffix_rfl, rfl⟩, Nat.zero_le _, rfl⟩
  · obtain ⟨rfl, rfl⟩ := Prod.mk.inj got
    refine ⟨⟨(List.take_append_drop _ _).symm, List.tail_suffix _, List.suffix_rfl, rfl⟩, ?_, rfl⟩
    rw [taken, List.length_take]
    omega

/-- The calls made since an earlier state, newest first. -/
def since (before after : UnixStream) : List SocketCall :=
  after.log.take (after.log.length - before.log.length)

/-- The calls since a state are those added to its log. -/
theorem since_eq {before after : UnixStream} {calls : List SocketCall}
    (log : after.log = calls ++ before.log) : before.since after = calls := by
  unfold since
  rw [log, List.length_append, Nat.add_sub_cancel, List.take_left]

/-- No call is refused. -/
def Granted (stream : UnixStream) : Prop := ∀ refusal ∈ stream.refusals, refusal = none

variable {stream after : UnixStream}

/-- A stream whose calls are granted stays so. -/
theorem Granted.advances {bytes : List UInt8} {calls : List SocketCall}
    (granted : stream.Granted) (advances : stream.Advances after bytes calls) : after.Granted :=
  fun refusal member => granted refusal (advances.refusals.subset member)

/-- The next call is granted. -/
theorem Granted.answer (granted : stream.Granted) : stream.answer.1 = .ok () := by
  unfold UnixStream.answer
  split
  · rfl
  · rfl
  · rename_i refused
    have accepted := granted _ (refused ▸ List.mem_cons_self)
    cases accepted

/-- A timeout other than zero is set. -/
theorem Granted.setReadTimeout (granted : stream.Granted) {timeout : Option Duration}
    (nonzero : timeout ≠ some .zero) : (stream.setReadTimeout timeout).1 = .ok () := by
  have answered := granted.answer
  unfold UnixStream.setReadTimeout
  rw [dif_neg nonzero]
  split <;> rename_i same
  · rfl
  · rw [same] at answered
    cases answered

/-- The read timeout is found. -/
theorem Granted.getReadTimeout (granted : stream.Granted) :
    ∃ timeout, stream.getReadTimeout.1 = .ok timeout := by
  have answered := granted.answer
  unfold UnixStream.getReadTimeout
  split <;> rename_i same
  · exact ⟨_, rfl⟩
  · rw [same] at answered
    cases answered

end UnixStream
end IfStack
