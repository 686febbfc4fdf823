import IfStack.Session.Exchange

/-! # The handshake gate

A session is registered only by two acknowledgements, of its Open and of its Register,
as the first two frames it receives. Without them the run fails, and no request is
served.
-/

namespace IfStack

open Foundation UnixStream

/-- The frames among events. -/
def framesOf (events : List SessionEvent) : List (Header × List UInt8) :=
  events.filterMap fun
    | .received header bytes => some (header, bytes)
    | _ => none

/-- The frames among events, in two parts. -/
theorem framesOf_append (events events' : List SessionEvent) :
    framesOf (events ++ events') = framesOf events ++ framesOf events' :=
  List.filterMap_append

/-- The frames of exchanges are the ones they are on. -/
theorem framesOf_exchanges (exchanges : List Exchange) :
    framesOf (exchanges.flatMap Exchange.events) =
      exchanges.map fun exchange => (exchange.header, exchange.bytes) := by
  induction exchanges with
  | nil => rfl
  | cons exchange exchanges ih =>
      rw [List.flatMap_cons, framesOf_append, ih, Exchange.events]
      cases exchange.written <;> rfl

namespace Codec

variable {ID : Type} [AgentxId ID] (codec : Codec ID)

/-- A valid acknowledgement of a request, in a session when there is one. Its error and
its index are in its own byte order. -/
structure Acknowledges (request : Header) (session : Option UInt32) (header : Header)
    (bytes : List UInt8) : Prop where
  ty : header.ty = .response
  payload : 8 ≤ header.payloadLength
  packetId : header.packetId = request.packetId
  transactionId : header.transactionId = request.transactionId
  sessionId : ∀ id ∈ session, header.sessionId = id
  error : codec.resErrorFromBytes ((bytes.drop 24).take 2) header.order = .ok .noAgentXError
  index : Wire.decodeNat header.order ((bytes.drop 26).take 2) = 0

/-- The session that a request is acknowledged in. -/
def requestSession (request : Header) : Option UInt32 :=
  if request.ty = .open' then none else some request.sessionId

/-- What is received in place of an acknowledgement: nothing, or another frame. -/
inductive Unacknowledged (request : Header) (session : Option UInt32) :
    List SessionEvent → Prop
  | lost : Unacknowledged request session []
  | refused {header : Header} {bytes : List UInt8} :
      ¬ codec.Acknowledges request session header bytes →
      Unacknowledged request session [.received header bytes]

/-- What `acknowledge` does: it takes one frame, or none. -/
def Acknowledged (request : Header) (session : Session ID) :
    EStateM.Result Stop (Session ID) Header → Prop
  | .ok opened after => ∃ bytes calls,
      codec.Acknowledges request (requestSession request) opened bytes ∧
      session.stream.Advances after.stream bytes calls ∧
      eventsOf calls = [.received opened bytes]
  | .error stop after => (∃ error, stop = .failed error) ∧ ∃ bytes calls,
      session.stream.Advances after.stream bytes calls ∧
      codec.Unacknowledged request (requestSession request) (eventsOf calls)

/-- The events of a handshake, and the session that it registers the table in. -/
inductive Shakes (config : Config) : List SessionEvent → Option Header → Prop
  | unopened {openBytes : List UInt8} {answer : List SessionEvent} :
      codec.openToBytes codec.openPdu = .ok openBytes →
      codec.Unacknowledged codec.openPdu.header none answer →
      Shakes config (.wrote openBytes :: answer) none
  | unregistered {openBytes registerBytes bytes : List UInt8} {opened : Header}
      {answer : List SessionEvent} :
      codec.openToBytes codec.openPdu = .ok openBytes →
      codec.Acknowledges codec.openPdu.header none opened bytes →
      codec.registerToBytes (codec.registerPdu config opened) = .ok registerBytes →
      codec.Unacknowledged (codec.registerPdu config opened).header (some opened.sessionId)
        answer →
      Shakes config
        ([.wrote openBytes, .received opened bytes, .wrote registerBytes] ++ answer) none
  | registered {openBytes registerBytes bytes bytes' : List UInt8} {opened header : Header} :
      codec.openToBytes codec.openPdu = .ok openBytes →
      codec.Acknowledges codec.openPdu.header none opened bytes →
      codec.registerToBytes (codec.registerPdu config opened) = .ok registerBytes →
      codec.Acknowledges (codec.registerPdu config opened).header (some opened.sessionId) header
        bytes' →
      Shakes config [.wrote openBytes, .received opened bytes, .wrote registerBytes,
        .received header bytes', .registered] (some opened)

variable {codec}

/-- Both bytes of an index that is zero are zero. -/
theorem decodeNat_eq_zero (order : ByteOrder) {bytes : List UInt8} (length : bytes.length = 2) :
    Wire.decodeNat order bytes = 0 ↔ bytes = [0, 0] := by
  obtain ⟨first, second, rfl⟩ := List.length_eq_two.mp length
  constructor
  · intro zero
    have both : first.toNat = 0 ∧ second.toNat = 0 := by
      cases order <;> simp [Wire.decodeNat] at zero <;> omega
    have first_eq : first = 0 := UInt8.toNat_inj.mp both.1
    have second_eq : second = 0 := UInt8.toNat_inj.mp both.2
    rw [first_eq, second_eq]
  · intro zero
    cases zero
    cases order <;> rfl

/-- Indexing within the bytes does not panic. -/
theorem slice_ok {σ : Type} {bytes : List UInt8} {first last : Nat} {state : σ}
    (within : last ≤ bytes.length) :
    slice bytes first last state = .ok ((bytes.drop first).take (last - first)) state := by
  rw [slice, if_pos within]
  rfl

/-- The checks of `acknowledge` before it looks into the payload. -/
theorem headChecks_iff (request header : Header) :
    ¬ (header.ty ≠ .response ∨ header.payloadLength < 8 ∨ header.packetId ≠ request.packetId ∨
      header.transactionId ≠ request.transactionId ∨
      (request.ty ≠ .open' ∧ header.sessionId ≠ request.sessionId)) ↔
    header.ty = .response ∧ 8 ≤ header.payloadLength ∧ header.packetId = request.packetId ∧
      header.transactionId = request.transactionId ∧
      ∀ id ∈ requestSession request, header.sessionId = id := by
  have session : (∀ id ∈ requestSession request, header.sessionId = id) ↔
      (request.ty ≠ .open' → header.sessionId = request.sessionId) := by
    unfold requestSession
    by_cases isOpen : request.ty = .open'
    · simp [isOpen]
    · simp [isOpen]
  rw [session]
  simp [not_or, UInt32.not_lt]

omit [AgentxId ID] in
/-- A payload of eight bytes covers what `acknowledge` looks at. -/
theorem covers_block {header : Header} {bytes : List UInt8}
    (framed : WellFramed codec header bytes) (payload : 8 ≤ header.payloadLength) :
    28 ≤ bytes.length := by
  have bound : 8 ≤ header.payloadLength.toNat := UInt32.le_iff_toNat_le.mp payload
  rw [framed.length]
  omega

/-- A frame that is received in place of an acknowledgement. -/
theorem Acknowledged.refuse {request header : Header} {session after : Session ID}
    {bytes : List UInt8} {calls : List SocketCall} (error : Error)
    (advances : session.stream.Advances after.stream bytes calls)
    (shown : eventsOf calls = [.received header bytes])
    (invalid : ¬ codec.Acknowledges request (requestSession request) header bytes) :
    codec.Acknowledged request session (.error (.failed error) after) := by
  refine ⟨⟨error, rfl⟩, bytes, calls, advances, ?_⟩
  rw [shown]
  exact .refused invalid

/-- `acknowledge` returns the header of a valid acknowledgement, or fails on what it received.
-/
theorem acknowledge_acknowledged (request : Header) (session : Session ID) :
    codec.Acknowledged request session (codec.acknowledge request session) := by
  unfold acknowledge
  cases received : codec.receiveFrame session with
  | error stop after =>
      obtain ⟨failed, bytes, calls, advances, listens⟩ :=
        receive_error codec (receiveFrame_error received)
      rw [bind_error received]
      refine ⟨failed, bytes, calls, advances, ?_⟩
      rw [eventsOf_listens listens]
      exact .lost
  | ok frame after =>
      obtain ⟨header, bytes⟩ := frame
      obtain ⟨framed, _, calls, advances, listens⟩ := receiveFrame_ok received
      have shown := eventsOf_received header bytes listens
      rw [bind_ok received]
      dsimp only
      by_cases head : header.ty ≠ .response ∨ header.payloadLength < 8 ∨
          header.packetId ≠ request.packetId ∨ header.transactionId ≠ request.transactionId ∨
          (request.ty ≠ .open' ∧ header.sessionId ≠ request.sessionId)
      · rw [if_pos head]
        apply Acknowledged.refuse _ advances shown
        intro valid
        exact (headChecks_iff request header).mpr
          ⟨valid.ty, valid.payload, valid.packetId, valid.transactionId, valid.sessionId⟩ head
      · rw [if_neg head]
        obtain ⟨ty, payload, packetId, transactionId, sessionId⟩ :=
          (headChecks_iff request header).mp head
        have covers := covers_block framed payload
        rw [bind_ok (slice_ok (by omega))]
        cases decoded : codec.resErrorFromBytes ((bytes.drop 24).take 2) header.order with
        | error error =>
            rw [bind_error (raise_error rfl)]
            apply Acknowledged.refuse _ advances shown
            intro valid
            cases decoded.symm.trans valid.error
        | ok error =>
            rw [bind_ok (raise_ok rfl)]
            by_cases accepted : error = .noAgentXError
            · rw [if_neg (not_not.mpr accepted), bind_ok (slice_ok covers)]
              have two : ((bytes.drop 26).take 2).length = 2 := by
                rw [List.length_take, List.length_drop]
                omega
              have decodes := decodeNat_eq_zero header.order two
              by_cases zero : (bytes.drop 26).take 2 = [0, 0]
              · rw [if_neg (not_not.mpr zero)]
                exact ⟨bytes, _, ⟨ty, payload, packetId, transactionId, sessionId,
                  accepted ▸ decoded, decodes.mpr zero⟩, advances, shown⟩
              · rw [if_pos zero]
                apply Acknowledged.refuse _ advances shown
                intro valid
                exact zero (decodes.mp valid.index)
            · rw [if_pos accepted]
              apply Acknowledged.refuse _ advances shown
              intro valid
              exact accepted (Except.ok.inj (decoded.symm.trans valid.error))

/-- A call that is granted. -/
theorem onStream_attempt {call : UnixStream → Except Error Unit × UnixStream}
    {session : Session ID} {calls : List SocketCall}
    (granted : (call session.stream).1 = .ok ())
    (advances : session.stream.Advances (call session.stream).2 [] calls) :
    ∃ after : Session ID, onStream (attempt call) session = .ok () after ∧
      session.stream.Advances after.stream [] calls := by
  refine ⟨{ session with stream := (call session.stream).2 }, ?_, advances⟩
  rw [onStream, attempt_ok (Prod.ext granted rfl)]

/-- Where the system grants its calls, a call succeeds. -/
theorem granted_ask {session : Session ID} (granted : session.stream.Granted)
    (call : Except Error Unit → SocketCall) :
    ∃ after : Session ID, onStream (attempt (ask call)) session = .ok () after ∧
      session.stream.Advances after.stream [] [call (.ok ())] := by
  have answered : (session.stream.ask call).1 = .ok () := granted.answer
  exact onStream_attempt answered (answered ▸ ask_advances (rfl : session.stream.ask call = _))

/-- Where the system grants its calls, a timeout other than zero is set. -/
theorem granted_setReadTimeout {session : Session ID} (granted : session.stream.Granted)
    {timeout : Option Duration} (nonzero : timeout ≠ some .zero) :
    ∃ after : Session ID, onStream (attempt (setReadTimeout timeout)) session = .ok () after ∧
      session.stream.Advances after.stream [] [.readTimeoutSet timeout (.ok ())] := by
  have answered := granted.setReadTimeout nonzero
  exact onStream_attempt answered
    (answered ▸ setReadTimeout_advances (rfl : session.stream.setReadTimeout timeout = _))

/-- Where the system grants its calls, an encoded request is written. -/
theorem granted_send {session : Session ID} (granted : session.stream.Granted)
    {encoded : Except Error (List UInt8)} {bytes : List UInt8} (encodes : encoded = .ok bytes) :
    ∃ after : Session ID, send encoded session = .ok () after ∧
      session.stream.Advances after.stream [] [.wrote bytes (.ok ())] := by
  obtain ⟨after, written, advances⟩ := granted_ask granted (.wrote bytes)
  exact ⟨after, (bind_ok (raise_ok encodes)).trans written, advances⟩

/-- Opening a session comes down to the acknowledgement of its Open. -/
theorem openSession_eq {session : Session ID} (granted : session.stream.Granted)
    {openBytes : List UInt8} (encodes : codec.openToBytes codec.openPdu = .ok openBytes) :
    ∃ (asked : Session ID) (calls : List SocketCall),
      session.stream.Advances asked.stream [] calls ∧ eventsOf calls = [.wrote openBytes] ∧
      codec.openSession session = codec.acknowledge codec.openPdu.header asked := by
  obtain ⟨first, connected, advances⟩ := granted_ask granted .connected
  obtain ⟨second, timed, advances'⟩ := granted_setReadTimeout (granted.advances advances)
    (by decide : some ioTimeout ≠ some .zero)
  have upTo := advances.trans advances'
  obtain ⟨third, timed', advances'⟩ := granted_ask (granted.advances upTo)
    (.writeTimeoutSet (some ioTimeout))
  have upTo' := upTo.trans advances'
  obtain ⟨asked, sent, advances'⟩ := granted_send (granted.advances upTo') encodes
  refine ⟨asked, _, upTo'.trans advances', rfl, ?_⟩
  exact (bind_ok connected).trans
    ((bind_ok timed).trans ((bind_ok timed').trans (bind_ok sent)))

omit [AgentxId ID] in
/-- An Open is acknowledged in no session yet. -/
theorem requestSession_open (types : ∀ ty, (codec.newHeader ty).ty = ty) :
    requestSession codec.openPdu.header = none := by
  have isOpen : codec.openPdu.header.ty = .open' := types .open'
  rw [requestSession, if_pos isOpen]

/-- A Register is acknowledged in the session that was opened. -/
theorem requestSession_register (types : ∀ ty, (codec.newHeader ty).ty = ty) (config : Config)
    (opened : Header) :
    requestSession (codec.registerPdu config opened).header = some opened.sessionId := by
  have isRegister : (codec.registerPdu config opened).header.ty = .register := types .register
  have notOpen : (codec.registerPdu config opened).header.ty ≠ .open' := by
    rw [isRegister]
    decide
  rw [requestSession, if_neg notOpen]
  rfl

/-- What `registerTable` does: the Register is written, and it ends by its
acknowledgement. -/
def Registered (codec : Codec ID) (config : Config) (opened : Header) (session : Session ID)
    (registerBytes : List UInt8) : EStateM.Result Stop (Session ID) Unit → Prop
  | .ok () after => ∃ header bytes calls,
      codec.Acknowledges (codec.registerPdu config opened).header (some opened.sessionId) header
        bytes ∧
      session.stream.Advances after.stream bytes calls ∧
      eventsOf calls = [.wrote registerBytes, .received header bytes, .registered]
  | .error stop after => (∃ error, stop = .failed error) ∧ ∃ bytes calls answer,
      session.stream.Advances after.stream bytes calls ∧
      codec.Unacknowledged (codec.registerPdu config opened).header (some opened.sessionId)
        answer ∧
      eventsOf calls = .wrote registerBytes :: answer

/-- The second half of the handshake registers the table, or fails on its acknowledgement. -/
theorem registerTable_registered (types : ∀ ty, (codec.newHeader ty).ty = ty) (config : Config)
    (opened : Header) {session : Session ID} (granted : session.stream.Granted)
    {registerBytes : List UInt8}
    (encodes : codec.registerToBytes (codec.registerPdu config opened) = .ok registerBytes) :
    codec.Registered config opened session registerBytes
      (codec.registerTable config opened session) := by
  obtain ⟨asked, sent, advances⟩ := granted_send granted encodes
  have acknowledged := @acknowledge_acknowledged _ _ codec
    (codec.registerPdu config opened).header asked
  unfold registerTable
  rw [bind_ok sent]
  cases answered : codec.acknowledge (codec.registerPdu config opened).header asked with
  | error stop after =>
      rw [answered] at acknowledged
      obtain ⟨failed, bytes, calls, further, unacknowledged⟩ := acknowledged
      rw [bind_error answered]
      rw [requestSession_register types] at unacknowledged
      refine ⟨failed, bytes, _, _, advances.trans further, unacknowledged, ?_⟩
      rw [eventsOf_append]
      rfl
  | ok header after =>
      rw [answered] at acknowledged
      obtain ⟨bytes, calls, acknowledges, further, shown⟩ := acknowledged
      rw [requestSession_register types] at acknowledges
      have upTo := advances.trans further
      obtain ⟨idle, set, advances'⟩ := granted_setReadTimeout (granted.advances upTo)
        noTimeout_nonzero
      have noted : idle.stream.Advances (idle.stream.record .registered) [] [.registered] :=
        ⟨rfl, List.suffix_rfl, List.suffix_rfl, rfl⟩
      rw [bind_ok answered, bind_ok set]
      have whole := (upTo.trans advances').trans noted
      rw [List.append_nil, List.append_nil] at whole
      refine ⟨header, bytes, _, acknowledges, whole, ?_⟩
      rw [eventsOf_append, eventsOf_append, eventsOf_append, shown]
      rfl

/-- A handshake shows one of its three courses. -/
def Shaken (codec : Codec ID) (config : Config) (session : Session ID) :
    EStateM.Result Stop (Session ID) Header → Prop
  | .ok opened after => ∃ events, codec.Shakes config events (some opened) ∧
      after.stream.events = session.stream.events ++ events
  | .error stop after => (∃ error, stop = .failed error) ∧
      ∃ events, codec.Shakes config events none ∧
        after.stream.events = session.stream.events ++ events

/-- The handshake shows its requests and the frames it receives, and ends by them. -/
theorem handshake_shaken (types : ∀ ty, (codec.newHeader ty).ty = ty)
    (openEncodes : ∃ bytes, codec.openToBytes codec.openPdu = .ok bytes)
    (registerEncodes : ∀ register, ∃ bytes, codec.registerToBytes register = .ok bytes)
    (config : Config) {session : Session ID} (granted : session.stream.Granted) :
    codec.Shaken config session (codec.handshake config session) := by
  obtain ⟨openBytes, openEncodes⟩ := openEncodes
  obtain ⟨asked, calls, advances, shown, same⟩ := openSession_eq granted openEncodes
  have acknowledged := @acknowledge_acknowledged _ _ codec codec.openPdu.header asked
  unfold handshake
  cases answered : codec.acknowledge codec.openPdu.header asked with
  | error stop after =>
      rw [answered] at acknowledged
      obtain ⟨failed, bytes, calls', further, unacknowledged⟩ := acknowledged
      rw [requestSession_open types] at unacknowledged
      rw [bind_error (same.trans answered)]
      refine ⟨failed, _, .unopened openEncodes unacknowledged, ?_⟩
      rw [(advances.trans further).events, eventsOf_append, shown]
      rfl
  | ok opened middle =>
      rw [answered] at acknowledged
      obtain ⟨bytes, calls', acknowledges, further, shown'⟩ := acknowledged
      rw [requestSession_open types] at acknowledges
      have upTo := advances.trans further
      obtain ⟨registerBytes, registerEncodes⟩ :=
        registerEncodes (codec.registerPdu config opened)
      have registered := registerTable_registered types config opened (granted.advances upTo)
        registerEncodes
      rw [bind_ok (same.trans answered)]
      cases ended : codec.registerTable config opened middle with
      | error stop after =>
          rw [ended] at registered
          obtain ⟨failed, _, calls'', answer, further', unacknowledged, shown''⟩ := registered
          rw [bind_error ended]
          refine ⟨failed, _, .unregistered openEncodes acknowledges registerEncodes
            unacknowledged, ?_⟩
          rw [(upTo.trans further').events, eventsOf_append, eventsOf_append, shown, shown',
            shown'']
          rfl
      | ok _ after =>
          rw [ended] at registered
          obtain ⟨header, bytes', calls'', acknowledges', further', shown''⟩ := registered
          rw [bind_ok ended]
          refine ⟨_, .registered openEncodes acknowledges registerEncodes acknowledges', ?_⟩
          rw [(upTo.trans further').events, eventsOf_append, eventsOf_append, shown, shown',
            shown'']
          rfl

/-- A handshake that registers nothing has not received both acknowledgements. -/
theorem Shakes.not_registered {config : Config} {events : List SessionEvent}
    (shakes : codec.Shakes config events none) :
    .registered ∉ events ∧ ∀ opened bytes header bytes' rest,
      framesOf events = (opened, bytes) :: (header, bytes') :: rest →
      codec.Acknowledges codec.openPdu.header none opened bytes →
      ¬ codec.Acknowledges (codec.registerPdu config opened).header (some opened.sessionId)
        header bytes' := by
  cases shakes with
  | unopened _ unacknowledged =>
      refine ⟨?_, fun opened bytes header bytes' rest frames => ?_⟩
      · cases unacknowledged <;> simp
      · cases unacknowledged <;> cases frames
  | unregistered _ _ _ unacknowledged =>
      refine ⟨?_, fun opened bytes header bytes' rest frames _ => ?_⟩
      · cases unacknowledged <;> simp
      · cases unacknowledged with
        | lost => cases frames
        | refused refused =>
            cases frames
            exact refused

/-- A handshake that registers the table does so once, by both acknowledgements. -/
theorem Shakes.registers {config : Config} {events : List SessionEvent} {opened : Header}
    (shakes : codec.Shakes config events (some opened)) :
    .registered ∈ events ∧ events.count .registered = 1 ∧ ∃ bytes header bytes',
      framesOf events = [(opened, bytes), (header, bytes')] ∧
      codec.Acknowledges codec.openPdu.header none opened bytes ∧
      codec.Acknowledges (codec.registerPdu config opened).header (some opened.sessionId) header
        bytes' := by
  cases shakes with
  | registered _ first _ second =>
      refine ⟨?_, ?_, _, _, _, rfl, first, second⟩
      · simp
      · simp

/-- Serving does not register. -/
theorem registered_not_mem (exchanges : List Exchange) :
    .registered ∉ exchanges.flatMap Exchange.events := by
  intro member
  obtain ⟨exchange, _, inside⟩ := List.mem_flatMap.mp member
  simp [Exchange.events] at inside

omit [AgentxId ID] in
/-- Receiving a frame does not index beyond it. -/
theorem receive_not_panicked (codec : Codec ID) (stream after : UnixStream) :
    receive codec ioTimeout stream ≠ .error .panicked after := by
  intro panicked
  obtain ⟨⟨error, impossible⟩, _⟩ := receive_error codec panicked
  cases impossible

/-- Waiting for an acknowledgement does not index beyond the frame. -/
theorem acknowledge_not_panicked (codec : Codec ID) (request : Header)
    (session after : Session ID) : codec.acknowledge request session ≠ .error .panicked after := by
  intro panicked
  have acknowledged := @acknowledge_acknowledged _ _ codec request session
  rw [panicked] at acknowledged
  obtain ⟨⟨error, impossible⟩, _⟩ := acknowledged
  cases impossible

/-- A run fails in its handshake, or it serves behind it, and what it serves is judged by
the session that was opened. -/
theorem run_course (types : ∀ ty, (codec.newHeader ty).ty = ty)
    (openEncodes : ∃ bytes, codec.openToBytes codec.openPdu = .ok bytes)
    (registerEncodes : ∀ register, ∃ bytes, codec.registerToBytes register = .ok bytes)
    (config : Config) {session : Session ID} (granted : session.stream.Granted)
    (fresh : session.stream.log = []) :
    (∃ error after, codec.run config session = .error (.failed error) after ∧
      codec.Shakes config after.stream.events none) ∨
    ∃ opened middle, ∃ exchanges : List Exchange,
      codec.run config session = codec.serve opened middle ∧
      codec.Shakes config middle.stream.events (some opened) ∧
      (reached (codec.run config session)).stream.events =
        middle.stream.events ++ exchanges.flatMap Exchange.events ∧
      ∀ exchange ∈ exchanges, codec.Judges opened exchange := by
  have empty : session.stream.events = [] := by
    rw [UnixStream.events, fresh]
    rfl
  have shaken := handshake_shaken types openEncodes registerEncodes config granted
  cases shook : codec.handshake config session with
  | error stop after =>
      rw [shook] at shaken
      obtain ⟨⟨error, rfl⟩, events, shakes, shown⟩ := shaken
      rw [empty, List.nil_append] at shown
      exact .inl ⟨error, after, bind_error shook, shown ▸ shakes⟩
  | ok opened middle =>
      rw [shook] at shaken
      obtain ⟨events, shakes, shown⟩ := shaken
      rw [empty, List.nil_append] at shown
      have serves : codec.run config session = codec.serve opened middle := bind_ok shook
      obtain ⟨exchanges, last, served⟩ := @serve_serves _ _ codec opened middle
      refine .inr ⟨opened, middle, exchanges ++ last.toList, serves, shown ▸ shakes, ?_,
        served.judges⟩
      rw [serves]
      exact served.events

/-- **Handshake gate.** A run registers at most once, and it does so just when the first
two frames it receives are valid acknowledgements of its Open and of its Register. Each
frame it receives from then on is judged by the session of the first of them. Otherwise it
fails, and it has written nothing else. No frame makes it look beyond its bytes. -/
theorem run_registers (types : ∀ ty, (codec.newHeader ty).ty = ty)
    (openEncodes : ∃ bytes, codec.openToBytes codec.openPdu = .ok bytes)
    (registerEncodes : ∀ register, ∃ bytes, codec.registerToBytes register = .ok bytes)
    (config : Config) {session : Session ID} (granted : session.stream.Granted)
    (fresh : session.stream.log = []) :
    let result := codec.run config session
    let events := (reached result).stream.events
    events.count .registered ≤ 1 ∧
    (.registered ∈ events ↔ ∃ opened bytes header bytes' rest,
      framesOf events = (opened, bytes) :: (header, bytes') :: rest ∧
      codec.Acknowledges codec.openPdu.header none opened bytes ∧
      codec.Acknowledges (codec.registerPdu config opened).header (some opened.sessionId) header
        bytes') ∧
    (.registered ∉ events → (∃ error after, result = .error (.failed error) after) ∧
      codec.Shakes config events none) ∧
    (.registered ∈ events → ∃ opened middle, ∃ exchanges : List Exchange,
      result = codec.serve opened middle ∧
      codec.Shakes config middle.stream.events (some opened) ∧
      events = middle.stream.events ++ exchanges.flatMap Exchange.events ∧
      ∀ exchange ∈ exchanges, codec.Judges opened exchange) ∧
    (∀ opened, (codec.registerPdu config opened).header.sessionId = opened.sessionId ∧
      (codec.registerPdu config opened).header.flags = opened.flags &&& networkOrder) ∧
    (∀ stream after, receive codec ioTimeout stream ≠ .error .panicked after) ∧
    (∀ request session after, codec.acknowledge request session ≠ .error .panicked after) := by
  intro result events
  have noPanic := And.intro (receive_not_panicked codec) (acknowledge_not_panicked codec)
  rcases run_course types openEncodes registerEncodes config granted fresh with
    ⟨error, after, failed, shakes⟩ | ⟨opened, middle, exchanges, serves, shakes, shown, judged⟩
  · have same : events = after.stream.events :=
      congrArg (fun result => (reached result).stream.events) failed
    rw [← same] at shakes
    obtain ⟨unregistered, refused⟩ := shakes.not_registered
    refine ⟨?_, ⟨fun registered => absurd registered unregistered, fun valid => ?_⟩,
      fun _ => ⟨⟨error, after, failed⟩, shakes⟩, fun registered => absurd registered unregistered,
      fun _ => ⟨rfl, rfl⟩, noPanic⟩
    · rw [List.count_eq_zero_of_not_mem unregistered]
      exact Nat.zero_le 1
    · obtain ⟨opened, bytes, header, bytes', rest, frames, first, second⟩ := valid
      exact absurd second (refused opened bytes header bytes' rest frames first)
  · have split : events = middle.stream.events ++ exchanges.flatMap Exchange.events := shown
    have later := registered_not_mem exchanges
    obtain ⟨registered, once, frames⟩ := shakes.registers
    have reports : .registered ∈ events := split ▸ List.mem_append_left _ registered
    refine ⟨?_, ⟨fun _ => ?_, fun _ => reports⟩, fun unregistered => absurd reports unregistered,
      fun _ => ⟨opened, middle, exchanges, serves, shakes, split, judged⟩,
      fun _ => ⟨rfl, rfl⟩, noPanic⟩
    · rw [split, List.count_append, once, List.count_eq_zero_of_not_mem later]
    · obtain ⟨bytes, header, bytes', same, first, second⟩ := frames
      refine ⟨opened, bytes, header, bytes', framesOf (exchanges.flatMap Exchange.events), ?_,
        first, second⟩
      rw [split, framesOf_append]
      exact congrArg (· ++ _) same

/-- A Ping of another session, and one of the session. -/
def twoPings : List Header :=
  [⟨1, .ping, networkOrder, 8, 1, 3, 0⟩, ⟨1, .ping, networkOrder, 7, 2, 4, 0⟩]

/-- A run that is acknowledged twice registers once and judges the two Pings. -/
theorem run_registers_acknowledged :
    let events := (reached (plain.run ⟨127⟩ (connection twoPings))).stream.events
    events.count .registered ≤ 1 ∧ .registered ∈ events ∧ ∃ opened, ∃ exchanges : List Exchange,
      exchanges.map Exchange.header = twoPings ∧
      ∀ exchange ∈ exchanges, plain.Judges opened exchange := by
  have gate := @run_registers _ _ plain (fun _ => rfl) ⟨_, rfl⟩ (fun _ => ⟨_, rfl⟩) ⟨127⟩
    (connection twoPings) (fun _ member => absurd member List.not_mem_nil) rfl
  obtain ⟨once, registers, _, served, _⟩ := gate
  have registered := registers.mpr ⟨acknowledged, (connection []).stream.incoming.take 28,
    ⟨1, .response, 0, 7, 0, 2, 8⟩, (connection []).stream.incoming.drop 28,
    twoPings.map fun header => (header, Wire.encodeHeader header), by decide +kernel,
    ⟨rfl, by decide, rfl, rfl, by simp, by decide +kernel, by decide +kernel⟩,
    ⟨rfl, by decide, rfl, rfl, by simp; rfl, by decide +kernel, by decide +kernel⟩⟩
  refine ⟨once, registered, ?_⟩
  obtain ⟨opened, middle, exchanges, _, shakes, shown, judged⟩ := served registered
  obtain ⟨_, _, _, _, _, first, _⟩ := shakes.registers
  have received : (framesOf (reached (plain.run ⟨127⟩ (connection twoPings))).stream.events).map
      Prod.fst = [acknowledged, ⟨1, .response, 0, 7, 0, 2, 8⟩] ++ twoPings := by
    decide +kernel
  rw [shown, framesOf_append, first, framesOf_exchanges, List.map_append, List.map_map] at received
  exact ⟨opened, exchanges, List.append_inj_right received rfl, judged⟩

end Codec
end IfStack
