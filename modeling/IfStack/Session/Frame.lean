import IfStack.Session.Pdu
import IfStack.Session.Socket

/-! # Receiving a frame

`receive` of `session.rs`: a frame is read in three parts, its first byte without a
deadline, the rest of its header and its payload before one. Each part is a loop of
reads that goes on when a read is interrupted.
-/

namespace IfStack

/-- `MAX_PAYLOAD`. -/
def maxPayload : UInt32 := 1024 * 1024

/-- `frame_deadline`. -/
def frameDeadline : Error := ⟨.timedOut, [.text "AgentX PDU frame deadline exceeded"]⟩

/-- The operator `?` on a call. -/
def attempt {σ α : Type} (call : σ → Except Error α × σ) : EStateM Stop σ α := fun state =>
  match call state with
  | (.ok value, state) => .ok value state
  | (.error error, state) => .error (.failed error) state

/-- A call that gives a value returns it. -/
theorem attempt_ok {σ α : Type} {call : σ → Except Error α × σ} {state after : σ} {value : α}
    (given : call state = (.ok value, after)) : attempt call state = .ok value after := by
  rw [attempt, given]

/-- The operator `?` on a result. -/
def raise {σ α : Type} (result : Except Error α) : EStateM Stop σ α := fun state =>
  match result with
  | .ok value => .ok value state
  | .error error => .error (.failed error) state

/-- A value is returned. -/
theorem raise_ok {σ α : Type} {result : Except Error α} {value : α} {state : σ}
    (given : result = .ok value) : raise result state = .ok value state := by
  rw [given, raise]

/-- An error ends the action. -/
theorem raise_error {σ α : Type} {result : Except Error α} {error : Error} {state : σ}
    (given : result = .error error) : raise result state = .error (.failed error) state := by
  rw [given, raise]

namespace UnixStream

/-- What waits and what is to come is not changed by reading the clock or setting a
timeout. -/
theorem setReadTimeout_arrivals (timeout : Option Duration) (stream : UnixStream) :
    (stream.setReadTimeout timeout).2.arrivals = stream.arrivals := by
  unfold setReadTimeout answer
  split
  · rfl
  · rcases stream.refusals with _ | ⟨_ | error, refusals⟩ <;> rfl

/-- A read that gives bytes uses an arrival up, or leaves less to ask for. -/
theorem read_ok_shrinks {requested : Nat} {stream after : UnixStream} {byte : UInt8}
    {bytes : List UInt8} (got : stream.read requested = (.ok (byte :: bytes), after)) :
    after.arrivals.length + (requested - (bytes.length + 1)) <
      stream.arrivals.length + requested := by
  unfold read at got
  cases arrivals : stream.arrivals with
  | nil =>
      simp only [arrivals, List.headD_nil] at got
      obtain ⟨same, rfl⟩ := Prod.mk.inj got
      have length := congrArg List.length (Except.ok.inj same)
      simp only [List.length_take, List.length_cons] at length
      simp only [record, List.tail_nil, List.length_nil]
      omega
  | cons arrival arrivals' =>
      simp only [arrivals, List.headD_cons] at got
      split at got
      · cases congrArg Prod.fst got
      · obtain ⟨_, rfl⟩ := Prod.mk.inj got
        simp only [record, List.tail_cons, List.length_cons]
        omega

/-- A read fails as the next arrival says. -/
theorem read_failed {requested : Nat} {stream after : UnixStream} {error : Error}
    (got : stream.read requested = (.error error, after)) :
    ∃ delay, stream.arrivals = ⟨delay, .failed error⟩ :: after.arrivals := by
  unfold read at got
  cases arrivals : stream.arrivals with
  | nil =>
      simp only [arrivals, List.headD_nil] at got
      cases congrArg Prod.fst got
  | cons arrival arrivals' =>
      simp only [arrivals, List.headD_cons] at got
      obtain ⟨delay, delivery⟩ := arrival
      cases delivery with
      | failed error' =>
          cases got
          exact ⟨delay, rfl⟩
      | chunk size => cases congrArg Prod.fst got

/-- A read that fails uses an arrival up. -/
theorem read_error_shrinks {requested : Nat} {stream after : UnixStream} {error : Error}
    (got : stream.read requested = (.error error, after)) :
    after.arrivals.length < stream.arrivals.length := by
  obtain ⟨delay, arrivals⟩ := read_failed got
  rw [arrivals]
  exact Nat.lt_succ_self _

/-- `Read::read_exact`. -/
def readExact (count : Nat) (stream : UnixStream) :
    EStateM.Result Stop UnixStream (List UInt8) :=
  if count = 0 then .ok [] stream
  else
    match _got : stream.read count with
    | (.ok [], after) =>
        .error (.failed ⟨.unexpectedEof, [.text "failed to fill whole buffer"]⟩) after
    | (.ok (byte :: bytes), after) =>
        match readExact (count - (bytes.length + 1)) after with
        | .ok rest final => .ok (byte :: bytes ++ rest) final
        | .error stop final => .error stop final
    | (.error error, after) =>
        if error.kind = .interrupted then readExact count after
        else .error (.failed error) after
termination_by stream.arrivals.length + count
decreasing_by
  · exact read_ok_shrinks _got
  · exact Nat.add_lt_add_right (read_error_shrinks _got) count

/-- `read_before`. -/
def readBefore (deadline count : Nat) (stream : UnixStream) :
    EStateM.Result Stop UnixStream (List UInt8) :=
  if count = 0 then .ok [] stream
  else
    let clocked := stream.instant.2
    let remaining := durationSince deadline stream.instant.1
    if remaining = .zero then .error (.failed frameDeadline) clocked
    else
      match _set : clocked.setReadTimeout (some remaining) with
      | (.error error, refused) => .error (.failed error) refused
      | (.ok (), timed) =>
          match _got : timed.read count with
          | (.ok [], after) =>
              .error (.failed ⟨.unexpectedEof, [.text "unexpected end of file"]⟩) after
          | (.ok (byte :: bytes), after) =>
              match readBefore deadline (count - (bytes.length + 1)) after with
              | .ok rest final => .ok (byte :: bytes ++ rest) final
              | .error stop final => .error stop final
          | (.error error, after) =>
              if error.kind = .interrupted then readBefore deadline count after
              else if error.kind = .timedOut ∨ error.kind = .wouldBlock then
                .error (.failed frameDeadline) after
              else .error (.failed error) after
termination_by stream.arrivals.length + count
decreasing_by
  all_goals
    have same := setReadTimeout_arrivals (some remaining) clocked
    rw [_set] at same
    have same' : timed.arrivals = stream.arrivals := same
    rw [← same']
  · exact read_ok_shrinks _got
  · exact Nat.add_lt_add_right (read_error_shrinks _got) count

/-- `Instant::now()`, as a call. -/
def readClock : EStateM Stop UnixStream Nat := fun stream => .ok stream.instant.1 stream.instant.2

/-- The buffer of a frame grows. -/
def resize (length : Nat) : EStateM Stop UnixStream Unit := fun stream =>
  .ok () (stream.record (.resized length))

end UnixStream

open UnixStream

variable {ID : Type} (codec : Codec ID)

/-- The first half of `receive`: the bytes of a header. The deadline counts from the
first of them. -/
def receiveFront (frameBudget : Duration) :
    EStateM Stop UnixStream (Nat × Option Duration × List UInt8) := do
  let first ← readExact 1
  let idleTimeout ← attempt getReadTimeout
  let reading ← readClock
  let deadline := reading + frameBudget.nanos
  let rest ← readBefore deadline 19
  return (deadline, idleTimeout, first ++ rest)

/-- The second half of `receive`: the header is checked, the payload read, and the
timeout restored. -/
def receivePayload (deadline : Nat) (idleTimeout : Option Duration) (bytes : List UInt8) :
    EStateM Stop UnixStream (Header × List UInt8) := do
  let header ← raise (codec.headerFromBytes bytes)
  if header.version ≠ 1 ∨ maxPayload < header.payloadLength ∨ header.payloadLength % 4 ≠ 0 then
    throw (.failed (.invalid "invalid AgentX version or payload length"))
  else
    resize (20 + header.payloadLength.toNat)
    let payload ← readBefore deadline header.payloadLength.toNat
    attempt (setReadTimeout idleTimeout)
    return (header, bytes ++ payload)

/-- `receive`. -/
def receive (frameBudget : Duration) : EStateM Stop UnixStream (Header × List UInt8) := do
  let (deadline, idleTimeout, bytes) ← receiveFront frameBudget
  receivePayload codec deadline idleTimeout bytes

end IfStack
