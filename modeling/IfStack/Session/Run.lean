import IfStack.Session.Dispatch
import IfStack.Session.Receive

/-! # Runs of a session

`run` of `session.rs`: the session is opened and its table registered, each with an
acknowledgement from the master, and then one request after the other is received
and answered, until the master closes the session or something fails.
-/

namespace IfStack

open Foundation UnixStream

/-- `IO_TIMEOUT`. -/
def ioTimeout : Duration := .fromSecs 5

/-- `TABLE`: the identifier of `ifStackTable`. -/
def table : List UInt32 := [1, 3, 6, 1, 2, 1, 31, 1, 2]

/-- The configuration, as far as a connected session reads it. -/
structure Config where
  priority : UInt8

section

variable {ID : Type} [AgentxId ID]

/-- The state of a run: the stream, and the reader of the published table. -/
structure Session (ID : Type) [AgentxId ID] where
  stream : UnixStream
  tables : TableReader ID

/-- How a pass of the loop ends that does not stop the run. -/
inductive Pass
  | next
  | returned
deriving DecidableEq

/-- An action on the stream of a session. -/
def onStream {α : Type} (action : EStateM Stop UnixStream α) : EStateM Stop (Session ID) α :=
  fun session =>
    match action session.stream with
    | .ok value stream => .ok value { session with stream }
    | .error stop stream => .error stop { session with stream }

/-- An entry into the log. -/
def note (call : SocketCall) : EStateM Stop UnixStream Unit := fun stream =>
  .ok () (stream.record call)

/-- A part of a buffer. A buffer that is too short is a panic. -/
def slice {σ : Type} (bytes : List UInt8) (first last : Nat) : EStateM Stop σ (List UInt8) :=
  if last ≤ bytes.length then return (bytes.drop first).take (last - first)
  else throw .panicked

/-- `bytes[24..26].copy_from_slice(..)`, when there is an error to put there. -/
def patch {σ : Type} (order : ByteOrder) (bytes : List UInt8) :
    Option UInt16 → EStateM Stop σ (List UInt8)
  | none => return bytes
  | some error =>
      if 26 ≤ bytes.length then return bytes.take 24 ++ order.encode16 error ++ bytes.drop 26
      else throw .panicked

namespace Codec

variable (codec : Codec ID)

/-- `receive`, as the session calls it. The frame is entered into the log. -/
def receiveFrame : EStateM Stop (Session ID) (Header × List UInt8) := do
  let (header, bytes) ← onStream (receive codec ioTimeout)
  onStream (note (.received header bytes))
  return (header, bytes)

/-- A PDU is encoded and written. -/
def send (encoded : Except Error (List UInt8)) : EStateM Stop (Session ID) Unit := do
  let bytes ← raise encoded
  onStream (attempt (writeAll bytes))

/-- A response is encoded, given its SNMP error, and written. -/
def answer (response : Response ID) (snmpError : Option UInt16) :
    EStateM Stop (Session ID) Unit := do
  let encoded ← raise (codec.responseToBytes response)
  let bytes ← patch response.header.order encoded snmpError
  onStream (attempt (writeAll bytes))

/-- `acknowledge`. -/
def acknowledge (request : Header) : EStateM Stop (Session ID) Header := do
  let (header, bytes) ← codec.receiveFrame
  if header.ty ≠ .response ∨ header.payloadLength < 8 ∨ header.packetId ≠ request.packetId ∨
      header.transactionId ≠ request.transactionId ∨
      (request.ty ≠ .open' ∧ header.sessionId ≠ request.sessionId) then
    throw (.failed (.invalid "unexpected AgentX acknowledgement"))
  else
    let block ← slice bytes 24 26
    let error ← raise (codec.resErrorFromBytes block header.order)
    if error ≠ .noAgentXError then
      throw (.failed ⟨.other, [.text "AgentX ", .display request.ty.printed,
        .text " rejected: ", .display error.printed]⟩)
    else
      let index ← slice bytes 26 28
      if index ≠ [0, 0] then
        throw (.failed (.invalid "nonzero administrative response error index"))
      else
        return header

/-- The Open PDU. -/
def openPdu : OpenPdu ID where
  header := { codec.newHeader .open' with flags := networkOrder, packetId := 1 }
  timeout := ioTimeout
  id := codec.defaultId
  description := "agentx-ifstack"

/-- The Register PDU, in the session that is opened. -/
def registerPdu (config : Config) (opened : Header) : RegisterPdu ID where
  header := { codec.newHeader .register with
    sessionId := opened.sessionId, flags := opened.flags &&& networkOrder, packetId := 2 }
  priority := config.priority
  subtree := AgentxId.ofSubids table

/-- The first steps of `run`: the session is opened. -/
def openSession : EStateM Stop (Session ID) Header := do
  onStream (attempt connect)
  onStream (attempt (setReadTimeout (some ioTimeout)))
  onStream (attempt (setWriteTimeout (some ioTimeout)))
  send (codec.openToBytes codec.openPdu)
  codec.acknowledge codec.openPdu.header

/-- The next steps of `run`: the table is registered. -/
def registerTable (config : Config) (opened : Header) : EStateM Stop (Session ID) Unit := do
  let register := codec.registerPdu config opened
  send (codec.registerToBytes register)
  let _ ← codec.acknowledge register.header
  onStream (attempt (setReadTimeout none))
  onStream (note .registered)

/-- The first part of `run`, before its loop. -/
def handshake (config : Config) : EStateM Stop (Session ID) Header := do
  let opened ← codec.openSession
  codec.registerTable config opened
  return opened

/-- `dispatch`, on the reader of the session. -/
def dispatchFrame (header : Header) (bytes : List UInt8) :
    EStateM Stop (Session ID) (Except Error (Response ID × Option UInt16)) := fun session =>
  let (result, tables) := codec.dispatch header bytes session.tables
  .ok result { session with tables }

/-- What the loop does with a frame. -/
def handle (opened header : Header) (bytes : List UInt8) : EStateM Stop (Session ID) Pass := do
  if header.sessionId ≠ opened.sessionId then
    codec.answer { codec.reply header with resError := .notOpen } none
    return .next
  else if header.ty = .close then
    raise (codec.closeFromBytes bytes)
    codec.answer (codec.reply header) none
    return .returned
  else if header.ty = .cleanupSet then
    if header.payloadLength ≠ 0 then
      throw (.failed (.invalid "CleanupSet has a payload"))
    else
      return .next
  else
    match ← codec.dispatchFrame header bytes with
    | .ok (response, snmpError) =>
        codec.answer response snmpError
        return .next
    | .error _ =>
        codec.answer { codec.reply header with resError := .parseError } none
        return .next

/-- A pass of the loop. -/
def pass (opened : Header) : EStateM Stop (Session ID) Pass := do
  let (header, bytes) ← codec.receiveFrame
  codec.handle opened header bytes

/-- What is written for a response. -/
def Encodes (response : Response ID) (snmpError : Option UInt16) (written : List UInt8) : Prop :=
  ∃ encoded, codec.responseToBytes response = .ok encoded ∧
    match snmpError with
    | none => written = encoded
    | some error => 26 ≤ encoded.length ∧
        written = encoded.take 24 ++ response.header.order.encode16 error ++ encoded.drop 26

/-- The response to a frame, and whether the session goes on. -/
inductive Responds (opened header : Header) (bytes : List UInt8) (tables : TableReader ID) :
    Response ID → Option UInt16 → Pass → Prop
  /-- A frame of another session is refused, whatever it is. -/
  | foreign : header.sessionId ≠ opened.sessionId →
      Responds opened header bytes tables { codec.reply header with resError := .notOpen } none
        .next
  | closed : header.sessionId = opened.sessionId → header.ty = .close →
      codec.closeFromBytes bytes = .ok () →
      Responds opened header bytes tables (codec.reply header) none .returned
  | dispatched {response : Response ID} {snmpError : Option UInt16} :
      header.sessionId = opened.sessionId → header.ty ≠ .close → header.ty ≠ .cleanupSet →
      (codec.dispatch header bytes tables).1 = .ok (response, snmpError) →
      Responds opened header bytes tables response snmpError .next
  | unparsed {error : Error} :
      header.sessionId = opened.sessionId → header.ty ≠ .close → header.ty ≠ .cleanupSet →
      (codec.dispatch header bytes tables).1 = .error error →
      Responds opened header bytes tables { codec.reply header with resError := .parseError } none
        .next

/-- How a frame is handled. -/
inductive Handled (opened header : Header) (bytes : List UInt8) (session : Session ID) :
    EStateM.Result Stop (Session ID) Pass → Prop
  | answered {response : Response ID} {snmpError : Option UInt16} {written : List UInt8}
      {ends : Pass} {after : Session ID} :
      codec.Responds opened header bytes session.tables response snmpError ends →
      codec.Encodes response snmpError written →
      session.stream.Advances after.stream [] [.wrote written (.ok ())] →
      Handled opened header bytes session (.ok ends after)
  | unwritten {response : Response ID} {snmpError : Option UInt16} {written : List UInt8}
      {ends : Pass} {error : Error} {after : Session ID} :
      codec.Responds opened header bytes session.tables response snmpError ends →
      codec.Encodes response snmpError written →
      session.stream.Advances after.stream [] [.wrote written (.error error)] →
      Handled opened header bytes session (.error (.failed error) after)
  | unencoded {response : Response ID} {snmpError : Option UInt16} {ends : Pass} {stop : Stop}
      {after : Session ID} :
      codec.Responds opened header bytes session.tables response snmpError ends →
      (∀ written, ¬ codec.Encodes response snmpError written) →
      after.stream = session.stream →
      Handled opened header bytes session (.error stop after)
  | ignored : header.sessionId = opened.sessionId → header.ty = .cleanupSet →
      header.payloadLength = 0 → Handled opened header bytes session (.ok .next session)
  | refusedClose {error : Error} : header.sessionId = opened.sessionId → header.ty = .close →
      codec.closeFromBytes bytes = .error error →
      Handled opened header bytes session (.error (.failed error) session)
  | refusedCleanup : header.sessionId = opened.sessionId → header.ty = .cleanupSet →
      header.payloadLength ≠ 0 →
      Handled opened header bytes session
        (.error (.failed (.invalid "CleanupSet has a payload")) session)

variable {codec}

/-- A frame that is received is well framed, and leaves the table alone. -/
theorem receiveFrame_ok {session after : Session ID} {header : Header} {bytes : List UInt8}
    (received : codec.receiveFrame session = .ok (header, bytes) after) :
    WellFramed codec header bytes ∧ after.tables = session.tables ∧
      ∃ calls, session.stream.Advances after.stream bytes (.received header bytes :: calls) ∧
        ∀ call ∈ calls, call.Listens := by
  obtain ⟨frame, middle, got, noted⟩ := bind_eq_ok received
  unfold onStream at got
  split at got <;> rename_i got'
  · cases got
    cases noted
    obtain ⟨framed, _, calls, advances, listens⟩ := receive_ok codec got'
    refine ⟨framed, rfl, calls, ?_, listens⟩
    exact ⟨advances.incoming, advances.arrivals, advances.refusals, congrArg (_ :: ·) advances.log⟩
  · cases got

/-- A session fails to receive as its stream does. -/
theorem receiveFrame_error {session after : Session ID} {stop : Stop}
    (failed : codec.receiveFrame session = .error stop after) :
    receive codec ioTimeout session.stream = .error stop after.stream := by
  rcases bind_eq_error failed with got | ⟨frame, middle, _, noted⟩
  · unfold onStream at got
    split at got <;> rename_i got'
    · cases got
    · cases got
      exact got'
  · cases noted

/-- What is encoded is written. -/
theorem answer_encodes {response : Response ID} {snmpError : Option UInt16}
    {written : List UInt8} (encodes : codec.Encodes response snmpError written)
    (session : Session ID) :
    codec.answer response snmpError session = onStream (attempt (writeAll written)) session := by
  obtain ⟨encoded, same, patched⟩ := encodes
  unfold answer
  rw [bind_ok (raise_ok same)]
  cases snmpError with
  | none =>
      cases patched
      rfl
  | some error =>
      obtain ⟨fits, rfl⟩ := patched
      rw [patch, if_pos fits]
      rfl

/-- What is not encoded is not written. -/
theorem answer_unencoded {response : Response ID} {snmpError : Option UInt16}
    (unencoded : ∀ written, ¬ codec.Encodes response snmpError written) (session : Session ID) :
    ∃ stop, codec.answer response snmpError session = .error stop session := by
  unfold answer
  cases encoded : codec.responseToBytes response with
  | error error => exact ⟨_, bind_error (raise_error rfl)⟩
  | ok bytes =>
      rw [bind_ok (raise_ok rfl)]
      cases snmpError with
      | none => exact absurd ⟨bytes, encoded, rfl⟩ (unencoded bytes)
      | some error =>
          rw [patch]
          split
          · rename_i fits
            exact absurd ⟨bytes, encoded, fits, rfl⟩ (unencoded _)
          · exact ⟨.panicked, rfl⟩

/-- A response is written, or the session stops. -/
theorem answer_handled {opened header : Header} {bytes : List UInt8} {session middle : Session ID}
    {response : Response ID} {snmpError : Option UInt16} {ends : Pass}
    (same : middle.stream = session.stream)
    (responds : codec.Responds opened header bytes session.tables response snmpError ends) :
    codec.Handled opened header bytes session
      ((do codec.answer response snmpError; return ends : EStateM Stop (Session ID) Pass)
        middle) := by
  by_cases encodes : ∃ written, codec.Encodes response snmpError written
  · obtain ⟨written, encodes⟩ := encodes
    have answered := answer_encodes encodes middle
    cases wrote : middle.stream.writeAll written with
    | mk answer stream =>
        have advances := ask_advances wrote
        rw [same] at advances
        rw [onStream, attempt, wrote] at answered
        cases answer with
        | ok =>
            rw [bind_ok answered]
            exact .answered responds encodes advances
        | error error =>
            rw [bind_error answered]
            exact .unwritten responds encodes advances
  · have unencoded := not_exists.mp encodes
    obtain ⟨stop, stopped⟩ := answer_unencoded unencoded middle
    rw [bind_error stopped]
    exact .unencoded responds unencoded same

/-- A dispatch in a session gives its result and leaves its reader. -/
theorem dispatchFrame_ok {header : Header} {bytes : List UInt8} {session : Session ID}
    {result : Except Error (Response ID × Option UInt16)} {tables : TableReader ID}
    (dispatched : codec.dispatch header bytes session.tables = (result, tables)) :
    codec.dispatchFrame header bytes session = .ok result { session with tables } := by
  rw [dispatchFrame, dispatched]

/-- `handle` handles a frame in one of the ways there are. -/
theorem handle_handled (opened header : Header) (bytes : List UInt8) (session : Session ID) :
    codec.Handled opened header bytes session (codec.handle opened header bytes session) := by
  unfold handle
  by_cases own : header.sessionId = opened.sessionId
  · rw [if_neg (not_not.mpr own)]
    by_cases close : header.ty = .close
    · rw [if_pos close]
      cases decoded : codec.closeFromBytes bytes with
      | error error =>
          rw [bind_error (raise_error rfl)]
          exact .refusedClose own close decoded
      | ok =>
          rw [bind_ok (raise_ok rfl)]
          exact answer_handled rfl (.closed own close decoded)
    · rw [if_neg close]
      by_cases cleanup : header.ty = .cleanupSet
      · rw [if_pos cleanup]
        by_cases empty : header.payloadLength = 0
        · rw [if_neg (not_not.mpr empty)]
          exact .ignored own cleanup empty
        · rw [if_pos empty]
          exact .refusedCleanup own cleanup empty
      · rw [if_neg cleanup]
        rcases dispatched : codec.dispatch header bytes session.tables with ⟨result, tables⟩
        rw [bind_ok (dispatchFrame_ok dispatched)]
        have result' := congrArg Prod.fst dispatched
        rcases result with error | ⟨response, snmpError⟩
        · exact answer_handled rfl (.unparsed own close cleanup result')
        · exact answer_handled rfl (.dispatched own close cleanup result')
  · rw [if_pos own]
    exact answer_handled rfl (.foreign own)

/-- A frame is handled without a look at the stream. -/
theorem Handled.incoming {opened header : Header} {bytes : List UInt8}
    {session after : Session ID} {ends : Pass}
    (handled : codec.Handled opened header bytes session (.ok ends after)) :
    after.stream.incoming = session.stream.incoming := by
  cases handled with
  | answered _ _ advances => exact advances.incoming.symm
  | ignored => rfl

/-- A pass finds no frame, or handles one. -/
theorem pass_cases (opened : Header) (session : Session ID) :
    (∃ stop after, codec.receiveFrame session = .error stop after ∧
      codec.pass opened session = .error stop after) ∨
    ∃ header bytes middle, codec.receiveFrame session = .ok (header, bytes) middle ∧
      codec.Handled opened header bytes middle (codec.pass opened session) := by
  cases received : codec.receiveFrame session with
  | error stop after => exact .inl ⟨stop, after, rfl, bind_error received⟩
  | ok frame middle =>
      obtain ⟨header, bytes⟩ := frame
      have passes : codec.pass opened session = codec.handle opened header bytes middle :=
        bind_ok received
      refine .inr ⟨header, bytes, middle, rfl, ?_⟩
      rw [passes]
      exact handle_handled opened header bytes middle

/-- A pass that ends has handled a frame. -/
theorem pass_ok {opened : Header} {session after : Session ID} {ends : Pass}
    (passed : codec.pass opened session = .ok ends after) :
    ∃ header bytes middle, codec.receiveFrame session = .ok (header, bytes) middle ∧
      codec.Handled opened header bytes middle (.ok ends after) := by
  rcases @pass_cases _ _ codec opened session with ⟨_, _, _, stopped⟩ | handled
  · cases passed.symm.trans stopped
  · rw [passed] at handled
    exact handled

/-- A pass that goes on has taken a frame. -/
theorem pass_shrinks {opened : Header} {session after : Session ID} {ends : Pass}
    (passed : codec.pass opened session = .ok ends after) :
    after.stream.incoming.length < session.stream.incoming.length := by
  obtain ⟨header, bytes, middle, received, handled⟩ := pass_ok passed
  obtain ⟨framed, _, calls, advances, _⟩ := receiveFrame_ok received
  have length := framed.length
  rw [handled.incoming, advances.incoming, List.length_append]
  omega

variable (codec)

/-- The loop of `run`. -/
def serve (opened : Header) (session : Session ID) :
    EStateM.Result Stop (Session ID) Unit :=
  match _passed : codec.pass opened session with
  | .error stop after => .error stop after
  | .ok .returned after => .ok () after
  | .ok .next after => serve opened after
termination_by session.stream.incoming.length
decreasing_by exact pass_shrinks _passed

variable {codec}

/-- A pass that goes on is followed by the rest of the loop. -/
theorem serve_next {opened : Header} {session after : Session ID}
    (passed : codec.pass opened session = .ok .next after) :
    codec.serve opened session = codec.serve opened after := by
  conv_lhs => unfold serve
  split <;> rename_i passed' <;> cases passed.symm.trans passed'
  rfl

/-- The loop returns when a pass does. -/
theorem serve_returned {opened : Header} {session after : Session ID}
    (passed : codec.pass opened session = .ok .returned after) :
    codec.serve opened session = .ok () after := by
  unfold serve
  split <;> rename_i passed' <;> cases passed.symm.trans passed'
  rfl

/-- The loop stops when a pass does. -/
theorem serve_error {opened : Header} {session after : Session ID} {stop : Stop}
    (passed : codec.pass opened session = .error stop after) :
    codec.serve opened session = .error stop after := by
  unfold serve
  split <;> rename_i passed' <;> cases passed.symm.trans passed'
  rfl

variable (codec)

/-- `run`. -/
def run (config : Config) : EStateM Stop (Session ID) Unit := do
  let opened ← codec.handshake config
  serve codec opened

end Codec

end
end IfStack
