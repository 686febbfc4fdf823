import IfStack.Session.Run
import IfStack.Session.Wire

/-! # Exchanges of a session

What a session does on the wire, as a sequence of exchanges: a frame is received, and
it is answered or it is not. The loop of `run` is a sequence of exchanges that let it
go on, and a last one that ends it.
-/

namespace IfStack

open Foundation UnixStream

/-- What shows of a session from outside. -/
inductive SessionEvent
  | received (header : Header) (bytes : List UInt8)
  | wrote (bytes : List UInt8)
  | registered
deriving DecidableEq

/-- The event that a call shows as. A write shows whether it succeeds or not. -/
def SocketCall.event? : SocketCall → Option SessionEvent
  | .received header bytes => some (.received header bytes)
  | .wrote bytes _ => some (.wrote bytes)
  | .registered => some .registered
  | _ => none

/-- The events of calls that come newest first. -/
def eventsOf (calls : List SocketCall) : List SessionEvent :=
  calls.reverse.filterMap SocketCall.event?

/-- The events of calls, in two parts. -/
theorem eventsOf_append (later earlier : List SocketCall) :
    eventsOf (later ++ earlier) = eventsOf earlier ++ eventsOf later := by
  unfold eventsOf
  rw [List.reverse_append, List.filterMap_append]

/-- Listening does not show. -/
theorem eventsOf_listens {calls : List SocketCall} (listens : ∀ call ∈ calls, call.Listens) :
    eventsOf calls = [] := by
  apply List.filterMap_eq_nil_iff.mpr
  intro call member
  have quiet := listens call (List.mem_reverse.mp member)
  cases call <;> first | rfl | exact absurd quiet id

/-- Of the calls that receive a frame, only the frame shows. -/
theorem eventsOf_received (header : Header) (bytes : List UInt8) {calls : List SocketCall}
    (listens : ∀ call ∈ calls, call.Listens) :
    eventsOf (.received header bytes :: calls) = [.received header bytes] := by
  rw [← List.singleton_append, eventsOf_append, eventsOf_listens listens]
  rfl

/-- The events on a stream so far. -/
def UnixStream.events (stream : UnixStream) : List SessionEvent := eventsOf stream.log

/-- What shows of a stream that advances is added to what has shown. -/
theorem UnixStream.Advances.events {before after : UnixStream} {bytes : List UInt8}
    {calls : List SocketCall} (advances : before.Advances after bytes calls) :
    after.events = before.events ++ eventsOf calls := by
  rw [UnixStream.events, advances.log, eventsOf_append]
  rfl

/-- The events since an earlier state. -/
def UnixStream.eventsSince (before after : UnixStream) : List SessionEvent :=
  after.events.drop before.events.length

/-- The events since a state are those added to its own. -/
theorem UnixStream.eventsSince_eq {before after : UnixStream} {events : List SessionEvent}
    (shown : after.events = before.events ++ events) : before.eventsSince after = events := by
  rw [UnixStream.eventsSince, shown, List.drop_left]

/-- A frame that is received, and what is written for it. -/
structure Exchange where
  header : Header
  bytes : List UInt8
  written : Option (List UInt8)

/-- The events of an exchange. -/
def Exchange.events (exchange : Exchange) : List SessionEvent :=
  .received exchange.header exchange.bytes :: exchange.written.toList.map .wrote

/-- The frames received in exchanges are theirs. -/
theorem mem_received_iff {exchanges : List Exchange} {header : Header} {bytes : List UInt8} :
    .received header bytes ∈ exchanges.flatMap Exchange.events ↔
      ∃ exchange ∈ exchanges, exchange.header = header ∧ exchange.bytes = bytes := by
  rw [List.mem_flatMap]
  apply exists_congr
  intro exchange
  apply and_congr_right
  intro _
  simp [Exchange.events, eq_comm]

namespace Codec

variable {ID : Type} [AgentxId ID] (codec : Codec ID)

/-- An exchange after which the session goes on. -/
def Continues (opened : Header) (exchange : Exchange) : Prop :=
  match exchange.written with
  | none => exchange.header.sessionId = opened.sessionId ∧ exchange.header.ty = .cleanupSet ∧
      exchange.header.payloadLength = 0
  | some written => ∃ tables response snmpError,
      codec.Responds opened exchange.header exchange.bytes tables response snmpError .next ∧
      codec.Encodes response snmpError written

/-- How the loop ends, with its last exchange. -/
inductive Ends (opened : Header) :
    Option Exchange → EStateM.Result Stop (Session ID) Unit → Prop
  | closed {header : Header} {bytes written : List UInt8} {tables : TableReader ID}
      {response : Response ID} {snmpError : Option UInt16} {after : Session ID} :
      codec.Responds opened header bytes tables response snmpError .returned →
      codec.Encodes response snmpError written →
      Ends opened (some ⟨header, bytes, some written⟩) (.ok () after)
  | refusedClose {header : Header} {bytes : List UInt8} {error : Error} {after : Session ID} :
      header.sessionId = opened.sessionId → header.ty = .close →
      codec.closeFromBytes bytes = .error error →
      Ends opened (some ⟨header, bytes, none⟩) (.error (.failed error) after)
  | refusedCleanup {header : Header} {bytes : List UInt8} {after : Session ID} :
      header.sessionId = opened.sessionId → header.ty = .cleanupSet → header.payloadLength ≠ 0 →
      Ends opened (some ⟨header, bytes, none⟩)
        (.error (.failed (.invalid "CleanupSet has a payload")) after)
  | lost {stream : UnixStream} {stop : Stop} {after : Session ID} :
      receive codec ioTimeout stream = .error stop after.stream →
      Ends opened none (.error stop after)
  | unwritten {header : Header} {bytes written : List UInt8} {tables : TableReader ID}
      {response : Response ID} {snmpError : Option UInt16} {ends : Pass} {error : Error}
      {after : Session ID} :
      codec.Responds opened header bytes tables response snmpError ends →
      codec.Encodes response snmpError written →
      .wrote written (.error error) ∈ after.stream.log →
      Ends opened (some ⟨header, bytes, some written⟩) (.error (.failed error) after)
  | unencoded {header : Header} {bytes : List UInt8} {tables : TableReader ID}
      {response : Response ID} {snmpError : Option UInt16} {ends : Pass} {stop : Stop}
      {after : Session ID} :
      codec.Responds opened header bytes tables response snmpError ends →
      (∀ written, ¬ codec.Encodes response snmpError written) →
      Ends opened (some ⟨header, bytes, none⟩) (.error stop after)

/-- The loop as a sequence of exchanges, of which the last ends it. They are on the
frames at the front of the stream, and nothing else shows. -/
structure Serves (opened : Header) (session : Session ID) (exchanges : List Exchange)
    (last : Option Exchange) (result : EStateM.Result Stop (Session ID) Unit) : Prop where
  continues : ∀ exchange ∈ exchanges, codec.Continues opened exchange
  ends : codec.Ends opened last result
  framed : ∀ exchange ∈ exchanges ++ last.toList,
    WellFramed codec exchange.header exchange.bytes
  incoming : (exchanges ++ last.toList).flatMap Exchange.bytes <+: session.stream.incoming
  events : (reached result).stream.events =
    session.stream.events ++ (exchanges ++ last.toList).flatMap Exchange.events

variable {codec}

/-- An exchange before the others. -/
theorem Serves.cons {opened : Header} {session middle : Session ID} {exchange : Exchange}
    {exchanges : List Exchange} {last : Option Exchange}
    {result : EStateM.Result Stop (Session ID) Unit}
    (framed : WellFramed codec exchange.header exchange.bytes)
    (continues : codec.Continues opened exchange)
    (incoming : session.stream.incoming = exchange.bytes ++ middle.stream.incoming)
    (events : middle.stream.events = session.stream.events ++ exchange.events)
    (serves : codec.Serves opened middle exchanges last result) :
    codec.Serves opened session (exchange :: exchanges) last result where
  continues := List.forall_mem_cons.mpr ⟨continues, serves.continues⟩
  ends := serves.ends
  framed := List.forall_mem_cons.mpr ⟨framed, serves.framed⟩
  incoming := by
    rw [incoming, List.cons_append, List.flatMap_cons]
    exact (List.prefix_append_right_inj _).mpr serves.incoming
  events := by
    rw [serves.events, events, List.cons_append, List.flatMap_cons, List.append_assoc]

/-- An exchange that ends the loop. -/
theorem Serves.last {opened : Header} {session : Session ID} {exchange : Exchange}
    {rest : List UInt8} {result : EStateM.Result Stop (Session ID) Unit}
    (framed : WellFramed codec exchange.header exchange.bytes)
    (ends : codec.Ends opened (some exchange) result)
    (incoming : session.stream.incoming = exchange.bytes ++ rest)
    (events : (reached result).stream.events = session.stream.events ++ exchange.events) :
    codec.Serves opened session [] (some exchange) result where
  continues := fun _ member => absurd member List.not_mem_nil
  ends := ends
  framed := List.forall_mem_singleton.mpr framed
  incoming := by
    rw [incoming]
    exact ⟨rest, by simp⟩
  events := by
    rw [events]
    simp

/-- The end of a stream in which no frame is received. -/
theorem Serves.lost {opened : Header} {session after : Session ID} {stop : Stop}
    (lost : receive codec ioTimeout session.stream = .error stop after.stream) :
    codec.Serves opened session [] none (.error stop after) where
  continues := fun _ member => absurd member List.not_mem_nil
  ends := .lost lost
  framed := fun _ member => absurd member List.not_mem_nil
  incoming := List.nil_prefix
  events := by
    obtain ⟨_, bytes, calls, advances, listens⟩ := receive_error codec lost
    change after.stream.events = _
    rw [advances.events, eventsOf_listens listens]
    rfl

/-- A frame that is received shows. -/
theorem receiveFrame_shows {session middle : Session ID} {header : Header} {bytes : List UInt8}
    (received : codec.receiveFrame session = .ok (header, bytes) middle) :
    WellFramed codec header bytes ∧
      session.stream.incoming = bytes ++ middle.stream.incoming ∧
      middle.stream.events = session.stream.events ++ [.received header bytes] := by
  obtain ⟨framed, _, calls, advances, listens⟩ := receiveFrame_ok received
  refine ⟨framed, advances.incoming, ?_⟩
  rw [advances.events, eventsOf_received header bytes listens]

/-- A frame that is handled adds to what has shown. -/
theorem Handled.adds {opened header : Header} {bytes : List UInt8} {session : Session ID}
    {result : EStateM.Result Stop (Session ID) Pass}
    (handled : codec.Handled opened header bytes session result) :
    ∃ shown, (reached result).stream.events = session.stream.events ++ shown := by
  cases handled with
  | answered _ _ advances | unwritten _ _ advances => exact ⟨_, advances.events⟩
  | unencoded _ _ same => exact ⟨[], by rw [List.append_nil, ← same]; rfl⟩
  | ignored | refusedClose | refusedCleanup => exact ⟨[], (List.append_nil _).symm⟩

/-- A pass that goes on is an exchange. -/
theorem pass_next {opened : Header} {session after : Session ID}
    (passed : codec.pass opened session = .ok .next after) :
    ∃ exchange, WellFramed codec exchange.header exchange.bytes ∧
      codec.Continues opened exchange ∧
      session.stream.incoming = exchange.bytes ++ after.stream.incoming ∧
      after.stream.events = session.stream.events ++ exchange.events := by
  obtain ⟨header, bytes, middle, received, handled⟩ := pass_ok passed
  obtain ⟨framed, incoming, events⟩ := receiveFrame_shows received
  cases handled with
  | answered responds encodes advances =>
      refine ⟨⟨header, bytes, some _⟩, framed, ⟨_, _, _, responds, encodes⟩, ?_, ?_⟩
      · exact incoming.trans (congrArg (bytes ++ ·) advances.incoming)
      · rw [advances.events, events, List.append_assoc]
        rfl
  | ignored own cleanup empty =>
      exact ⟨⟨header, bytes, none⟩, framed, ⟨own, cleanup, empty⟩, incoming, events⟩

/-- A pass that returns is the last exchange. -/
theorem pass_returned {opened : Header} {session after : Session ID}
    (passed : codec.pass opened session = .ok .returned after) :
    ∃ exchange, codec.Serves opened session [] (some exchange) (.ok () after) := by
  obtain ⟨header, bytes, middle, received, handled⟩ := pass_ok passed
  obtain ⟨framed, incoming, events⟩ := receiveFrame_shows received
  cases handled with
  | answered responds encodes advances =>
      refine ⟨_, .last framed (.closed responds encodes) incoming ?_⟩
      change after.stream.events = _
      rw [advances.events, events, List.append_assoc]
      rfl

/-- A pass that stops is the last exchange, or finds no frame. -/
theorem pass_stopped {opened : Header} {session after : Session ID} {stop : Stop}
    (passed : codec.pass opened session = .error stop after) :
    ∃ last, codec.Serves opened session [] last (.error stop after) := by
  rcases @pass_cases _ _ codec opened session with
    ⟨_, _, lost, stopped⟩ | ⟨header, bytes, middle, received, handled⟩
  · cases passed.symm.trans stopped
    exact ⟨none, .lost (receiveFrame_error lost)⟩
  · obtain ⟨framed, incoming, events⟩ := receiveFrame_shows received
    rw [passed] at handled
    cases handled with
    | unwritten responds encodes advances =>
        refine ⟨_, .last framed (.unwritten responds encodes ?_) incoming ?_⟩
        · rw [advances.log]
          exact List.mem_cons_self
        · change after.stream.events = _
          rw [advances.events, events, List.append_assoc]
          rfl
    | unencoded responds unencoded same =>
        refine ⟨_, .last framed (.unencoded responds unencoded) incoming ?_⟩
        change after.stream.events = _
        rw [same]
        exact events
    | refusedClose own close undecodable =>
        exact ⟨_, .last framed (.refusedClose own close undecodable) incoming events⟩
    | refusedCleanup own cleanup payload =>
        exact ⟨_, .last framed (.refusedCleanup own cleanup payload) incoming events⟩

/-- The loop is a sequence of exchanges. -/
theorem serve_serves (opened : Header) (session : Session ID) :
    ∃ exchanges last, codec.Serves opened session exchanges last
      (codec.serve opened session) := by
  fun_induction serve codec opened session with
  | case1 session stop after passed =>
      obtain ⟨last, serves⟩ := pass_stopped passed
      exact ⟨[], last, serves⟩
  | case2 session after passed =>
      obtain ⟨exchange, serves⟩ := pass_returned passed
      exact ⟨[], some exchange, serves⟩
  | case3 session after passed ih =>
      obtain ⟨exchange, framed, continues, incoming, events⟩ := pass_next passed
      obtain ⟨exchanges, last, serves⟩ := ih
      exact ⟨exchange :: exchanges, last, .cons framed continues incoming events serves⟩

variable (codec) in
/-- What is written for a response: its encoding, or nothing when it has none. -/
def Writes (response : Response ID) (snmpError : Option UInt16)
    (written : Option (List UInt8)) : Prop :=
  ∀ bytes, written = some bytes ↔ codec.Encodes response snmpError bytes

variable (codec) in
/-- A frame judged by the session that was opened. One of another session is not open,
whatever it is. Of its own, a CleanupSet is not answered, a Close is when it decodes, and
any other is answered as it is dispatched. -/
structure Judges (opened : Header) (exchange : Exchange) : Prop where
  foreign : exchange.header.sessionId ≠ opened.sessionId →
    codec.Writes { codec.reply exchange.header with resError := .notOpen } none exchange.written
  cleanup : exchange.header.sessionId = opened.sessionId → exchange.header.ty = .cleanupSet →
    exchange.written = none
  close : exchange.header.sessionId = opened.sessionId → exchange.header.ty = .close →
    match codec.closeFromBytes exchange.bytes with
    | .ok () => codec.Writes (codec.reply exchange.header) none exchange.written
    | .error _ => exchange.written = none
  dispatched : exchange.header.sessionId = opened.sessionId → exchange.header.ty ≠ .cleanupSet →
    exchange.header.ty ≠ .close → ∃ tables : TableReader ID,
      match (codec.dispatch exchange.header exchange.bytes tables).1 with
      | .ok (response, snmpError) => codec.Writes response snmpError exchange.written
      | .error _ => codec.Writes { codec.reply exchange.header with resError := .parseError } none
          exchange.written

omit [AgentxId ID] in
/-- A response has one encoding. -/
theorem Encodes.writes {response : Response ID} {snmpError : Option UInt16}
    {written : List UInt8} (encodes : codec.Encodes response snmpError written) :
    codec.Writes response snmpError (some written) := by
  intro bytes
  constructor
  · rintro ⟨⟩
    exact encodes
  · intro other
    obtain ⟨encoded, given, shape⟩ := encodes
    obtain ⟨encoded', given', shape'⟩ := other
    cases given.symm.trans given'
    cases snmpError with
    | none => rw [shape, shape']
    | some error => rw [shape.2, shape'.2]

omit [AgentxId ID] in
/-- A response without an encoding is not written. -/
theorem writes_none {response : Response ID} {snmpError : Option UInt16}
    (unencoded : ∀ written, ¬ codec.Encodes response snmpError written) :
    codec.Writes response snmpError none :=
  fun bytes => ⟨nofun, fun encodes => absurd encodes (unencoded bytes)⟩

/-- A frame with a response is judged by it. -/
theorem Responds.judges {opened header : Header} {bytes : List UInt8} {tables : TableReader ID}
    {response : Response ID} {snmpError : Option UInt16} {ends : Pass}
    {written : Option (List UInt8)}
    (responds : codec.Responds opened header bytes tables response snmpError ends)
    (writes : codec.Writes response snmpError written) :
    codec.Judges opened ⟨header, bytes, written⟩ := by
  cases responds with
  | foreign foreign =>
      exact ⟨fun _ => writes, fun own => absurd own foreign, fun own => absurd own foreign,
        fun own => absurd own foreign⟩
  | closed own close decoded =>
      refine ⟨fun foreign => absurd own foreign, fun _ cleanup => ?_, fun _ _ => ?_,
        fun _ _ notClose => absurd close notClose⟩
      · cases close.symm.trans cleanup
      · rw [decoded]
        exact writes
  | dispatched own notClose notCleanup dispatched =>
      refine ⟨fun foreign => absurd own foreign, fun _ cleanup => absurd cleanup notCleanup,
        fun _ close => absurd close notClose, fun _ _ _ => ⟨tables, ?_⟩⟩
      rw [dispatched]
      exact writes
  | unparsed own notClose notCleanup failed =>
      refine ⟨fun foreign => absurd own foreign, fun _ cleanup => absurd cleanup notCleanup,
        fun _ close => absurd close notClose, fun _ _ _ => ⟨tables, ?_⟩⟩
      rw [failed]
      exact writes

/-- A CleanupSet of the session is judged by silence. -/
theorem judges_cleanup {opened header : Header} {bytes : List UInt8}
    (own : header.sessionId = opened.sessionId) (cleanup : header.ty = .cleanupSet) :
    codec.Judges opened ⟨header, bytes, none⟩ where
  foreign foreign := absurd own foreign
  cleanup _ _ := rfl
  close _ close := by cases cleanup.symm.trans close
  dispatched _ notCleanup := absurd cleanup notCleanup

/-- An exchange after which the session goes on is a judged frame. -/
theorem Continues.judges {opened : Header} {exchange : Exchange}
    (continues : codec.Continues opened exchange) : codec.Judges opened exchange := by
  obtain ⟨header, bytes, written⟩ := exchange
  cases written with
  | none => exact judges_cleanup continues.1 continues.2.1
  | some written =>
      obtain ⟨tables, response, snmpError, responds, encodes⟩ := continues
      exact responds.judges encodes.writes

/-- The exchange that ends the loop is a judged frame. -/
theorem Ends.judges {opened : Header} {exchange : Exchange}
    {result : EStateM.Result Stop (Session ID) Unit}
    (ends : codec.Ends opened (some exchange) result) : codec.Judges opened exchange := by
  cases ends with
  | closed responds encodes | unwritten responds encodes _ =>
      exact responds.judges encodes.writes
  | unencoded responds unencoded => exact responds.judges (writes_none unencoded)
  | refusedCleanup own cleanup _ => exact judges_cleanup own cleanup
  | refusedClose own close undecodable =>
      refine ⟨fun foreign => absurd own foreign, fun _ _ => rfl, fun _ _ => ?_,
        fun _ _ notClose => absurd close notClose⟩
      rw [undecodable]

/-- Every frame of the loop is judged. -/
theorem Serves.judges {opened : Header} {session : Session ID} {exchanges : List Exchange}
    {last : Option Exchange} {result : EStateM.Result Stop (Session ID) Unit}
    (serves : codec.Serves opened session exchanges last result) :
    ∀ exchange ∈ exchanges ++ last.toList, codec.Judges opened exchange := by
  intro exchange member
  rcases List.mem_append.mp member with before | ending
  · exact (serves.continues exchange before).judges
  · obtain rfl := Option.mem_toList.mp ending
    exact serves.ends.judges

end Codec

/-- A connection on which the master sends its acknowledgements and then some frames. -/
def connection (frames : List Header) : Session PlainId where
  stream :=
    let acknowledgement (flags : UInt8) (packetId : UInt32) : Response PlainId :=
      ⟨⟨1, .response, flags, 7, 0, packetId, 0⟩, .noAgentXError, 0, none⟩
    { incoming := Wire.encodeResponse (acknowledgement networkOrder 1) ++
        Wire.encodeResponse (acknowledgement 0 2) ++ frames.flatMap Wire.encodeHeader
      arrivals := [], lags := [], refusals := [], now := 0, readTimeout := none, log := [] }
  tables := ⟨.initial, []⟩

/-- The header of the first acknowledgement. -/
def acknowledged : Header := ⟨1, .response, networkOrder, 7, 0, 1, 8⟩

end IfStack
