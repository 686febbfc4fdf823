import IfStack.Session.Exchange

/-! # The protocol of a session

Once the table is registered, every frame but a CleanupSet is answered by exactly one
response, in order, until the master closes the session, sends a Close or a CleanupSet
that cannot be taken, or is lost.
-/

namespace IfStack

open Foundation UnixStream

/-- A response carries the ids of a request and, of its flags, the byte order. -/
structure Response.Echoes {ID : Type} (response : Response ID) (header : Header) : Prop where
  sessionId : response.header.sessionId = header.sessionId
  transactionId : response.header.transactionId = header.transactionId
  packetId : response.header.packetId = header.packetId
  flags : response.header.flags = header.flags &&& networkOrder

namespace Codec

variable {ID : Type} [AgentxId ID] (codec : Codec ID)

/-- What a response says to a frame: a frame of another session is refused, and one of
this session gets what `dispatch` says of it. -/
structure Answers (opened header : Header) (bytes : List UInt8) (response : Response ID)
    (snmpError : Option UInt16) : Prop where
  echoes : response.Echoes header
  foreign : header.sessionId ≠ opened.sessionId →
    response.resError = .notOpen ∧ response.vb = none ∧ snmpError = none
  own : header.sessionId = opened.sessionId → header.ty ≠ .close →
    ∃ tables : TableReader ID, match (codec.dispatch header bytes tables).1 with
      | .ok dispatched => (response, snmpError) = dispatched
      | .error _ => response.resError = .parseError ∧ response.vb = none ∧ snmpError = none

/-- An exchange after which the session goes on: only a CleanupSet is not answered. -/
structure Answered (opened : Header) (exchange : Exchange) : Prop where
  silent : exchange.written = none ↔ exchange.header.ty = .cleanupSet
  empty : exchange.header.ty = .cleanupSet → exchange.header.payloadLength = 0
  notClosed : ¬ (exchange.header.sessionId = opened.sessionId ∧ exchange.header.ty = .close)
  answers : ∀ written, exchange.written = some written → ∃ response snmpError,
    codec.Answers opened exchange.header exchange.bytes response snmpError ∧
    codec.Encodes response snmpError written

variable {codec}

/-- What is dispatched keeps the header of the reply. -/
theorem dispatch_header {header : Header} {bytes : List UInt8} {tables : TableReader ID}
    {response : Response ID} {snmpError : Option UInt16}
    (dispatched : (codec.dispatch header bytes tables).1 = .ok (response, snmpError)) :
    response.header = (codec.reply header).header := by
  unfold dispatch at dispatched
  dsimp only at dispatched
  split at dispatched
  · cases dispatched
    rfl
  · split at dispatched <;> (repeat' split at dispatched) <;> cases dispatched <;> rfl

omit [AgentxId ID] in
/-- A reply carries the ids of its request, and of its flags the byte order. -/
theorem reply_echoes (replies : codec.Replies) (header : Header) :
    (codec.reply header).Echoes header where
  sessionId := replies.sessionId header
  transactionId := replies.transactionId header
  packetId := replies.packetId header
  flags := rfl

/-- Every response has the header that `reply` gives it. -/
theorem Responds.header {opened header : Header} {bytes : List UInt8} {tables : TableReader ID}
    {response : Response ID} {snmpError : Option UInt16} {ends : Pass}
    (responds : codec.Responds opened header bytes tables response snmpError ends) :
    response.header = (codec.reply header).header := by
  cases responds with
  | foreign | closed | unparsed => rfl
  | dispatched _ _ _ dispatched => exact dispatch_header dispatched

/-- Every response carries the ids of its request, and of its flags the byte order. -/
theorem Responds.echoes (replies : codec.Replies) {opened header : Header} {bytes : List UInt8}
    {tables : TableReader ID} {response : Response ID} {snmpError : Option UInt16} {ends : Pass}
    (responds : codec.Responds opened header bytes tables response snmpError ends) :
    response.Echoes header := by
  obtain ⟨sessionId, transactionId, packetId, flags⟩ := reply_echoes replies header
  rw [← responds.header] at sessionId transactionId packetId flags
  exact ⟨sessionId, transactionId, packetId, flags⟩

/-- A response that lets the session go on answers its frame. -/
theorem Responds.answers (replies : codec.Replies) {opened header : Header} {bytes : List UInt8}
    {tables : TableReader ID} {response : Response ID} {snmpError : Option UInt16}
    (responds : codec.Responds opened header bytes tables response snmpError .next) :
    codec.Answers opened header bytes response snmpError := by
  refine ⟨responds.echoes replies, ?_, ?_⟩
  · intro foreign
    cases responds with
    | foreign => exact ⟨rfl, replies.vb header, rfl⟩
    | dispatched own | unparsed own => exact absurd own foreign
  · intro own notClose
    refine ⟨tables, ?_⟩
    cases responds with
    | foreign foreign => exact absurd own foreign
    | dispatched _ _ _ dispatched =>
        rw [dispatched]
    | unparsed _ _ _ failed =>
        rw [failed]
        exact ⟨rfl, replies.vb header, rfl⟩

/-- A frame that is answered while the session goes on does not close it. -/
theorem Responds.notClosed {opened header : Header} {bytes : List UInt8}
    {tables : TableReader ID} {response : Response ID} {snmpError : Option UInt16}
    (responds : codec.Responds opened header bytes tables response snmpError .next) :
    ¬ (header.sessionId = opened.sessionId ∧ header.ty = .close) := by
  intro given
  obtain ⟨own, close⟩ := given
  cases responds with
  | foreign foreign => exact foreign own
  | dispatched _ notClose | unparsed _ notClose => exact notClose close

/-- A CleanupSet of the session is not answered. -/
theorem Responds.notCleanup {opened header : Header} {bytes : List UInt8}
    {tables : TableReader ID} {response : Response ID} {snmpError : Option UInt16} {ends : Pass}
    (responds : codec.Responds opened header bytes tables response snmpError ends) :
    ¬ (header.sessionId = opened.sessionId ∧ header.ty = .cleanupSet) := by
  intro given
  obtain ⟨own, cleanup⟩ := given
  cases responds with
  | foreign foreign => exact foreign own
  | closed _ close =>
      rw [close] at cleanup
      cases cleanup
  | dispatched _ _ notCleanup | unparsed _ _ notCleanup => exact notCleanup cleanup

omit [AgentxId ID] in
/-- Every response is encoded. -/
theorem EncodesResponses.encodes (encodes : codec.EncodesResponses) (response : Response ID)
    (snmpError : Option UInt16) : ∃ written, codec.Encodes response snmpError written := by
  obtain ⟨encoded, same, length⟩ := encodes response
  cases snmpError with
  | none => exact ⟨encoded, encoded, same, rfl⟩
  | some error => exact ⟨_, encoded, same, by omega, rfl⟩

/-- The assumption on the frames: a CleanupSet is one of the session. -/
theorem Continues.answered (replies : codec.Replies) {opened : Header} {exchange : Exchange}
    (continues : codec.Continues opened exchange)
    (ordinary : exchange.header.ty = .cleanupSet →
      exchange.header.sessionId = opened.sessionId) : codec.Answered opened exchange := by
  obtain ⟨header, bytes, written⟩ := exchange
  cases written with
  | none =>
      obtain ⟨own, cleanup, empty⟩ := continues
      refine ⟨⟨fun _ => cleanup, fun _ => rfl⟩, fun _ => empty, ?_, ?_⟩
      · intro given
        obtain ⟨_, close⟩ := given
        rw [cleanup] at close
        cases close
      · intro written silent
        cases silent
  | some written =>
      obtain ⟨tables, response, snmpError, responds, encodes⟩ := continues
      have notCleanup : header.ty ≠ .cleanupSet := fun cleanup =>
        responds.notCleanup ⟨ordinary cleanup, cleanup⟩
      refine ⟨⟨fun silent => ?_, fun cleanup => absurd cleanup notCleanup⟩,
        fun cleanup => absurd cleanup notCleanup, responds.notClosed, ?_⟩
      · cases silent
      · intro written' same
        cases same
        exact ⟨response, snmpError, responds.answers replies, encodes⟩

end Codec
end IfStack
