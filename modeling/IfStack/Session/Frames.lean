import IfStack.Session.Exchange
import IfStack.Session.Reassembly

/-! # The session on frames

What a session does is a matter of the frames it is sent and of the tables it finds, and
of nothing else. The loop on the stream is followed by a machine on frames, which knows of
no bytes that wait, no reads and no clock: where reads are only interrupted and no deadline
is hit, the two show the same, however the bytes are split over reads.
-/

namespace IfStack

open Foundation UnixStream

namespace Codec

variable {ID : Type} [AgentxId ID] (codec : Codec ID)

/-- What is written for a response, or why none is. -/
def encoded (response : Response ID) (snmpError : Option UInt16) : Except Stop (List UInt8) :=
  match codec.responseToBytes response, snmpError with
  | .error error, _ => .error (.failed error)
  | .ok bytes, none => .ok bytes
  | .ok bytes, some error =>
      if 26 ≤ bytes.length then
        .ok (bytes.take 24 ++ response.header.order.encode16 error ++ bytes.drop 26)
      else .error .panicked

/-- What is made of a frame: what is written for it, if anything, and whether the session
goes on, or why it stops. -/
abbrev Made := Except Stop (Option (List UInt8) × Pass)

/-- A response, after which the session goes on or returns. -/
def responds (response : Response ID) (snmpError : Option UInt16) (ends : Pass) : Made :=
  match codec.encoded response snmpError with
  | .ok written => .ok (some written, ends)
  | .error stop => .error stop

/-- What is made of a frame, with the reader as it is left. -/
def make (opened header : Header) (bytes : List UInt8) (tables : TableReader ID) :
    Made × TableReader ID :=
  if header.sessionId ≠ opened.sessionId then
    (codec.responds { codec.reply header with resError := .notOpen } none .next, tables)
  else if header.ty = .close then
    match codec.closeFromBytes bytes with
    | .ok () => (codec.responds (codec.reply header) none .returned, tables)
    | .error error => (.error (.failed error), tables)
  else if header.ty = .cleanupSet then
    if header.payloadLength ≠ 0 then
      (.error (.failed (.invalid "CleanupSet has a payload")), tables)
    else (.ok (none, .next), tables)
  else
    match codec.dispatch header bytes tables with
    | (.ok (response, snmpError), tables) => (codec.responds response snmpError .next, tables)
    | (.error _, tables) =>
        (codec.responds { codec.reply header with resError := .parseError } none .next, tables)

/-- What the frames of a session show, and how it ends, if it does. -/
def serveFrames (opened : Header) :
    List (Header × List UInt8) → TableReader ID → List SessionEvent × Option (Except Stop Unit)
  | [], _ => ([], none)
  | (header, bytes) :: frames, tables =>
      match codec.make opened header bytes tables with
      | (.error stop, _) => ([.received header bytes], some (.error stop))
      | (.ok (written, .returned), _) =>
          (.received header bytes :: written.toList.map .wrote, some (.ok ()))
      | (.ok (written, .next), tables) =>
          let (shown, ends) := serveFrames opened frames tables
          (.received header bytes :: written.toList.map .wrote ++ shown, ends)

/-- What is made of a frame is put on the stream. -/
def perform (stream : UnixStream) :
    Made × TableReader ID → EStateM.Result Stop (Session ID) Pass
  | (.error stop, tables) => .error stop ⟨stream, tables⟩
  | (.ok (none, ends), tables) => .ok ends ⟨stream, tables⟩
  | (.ok (some written, ends), tables) =>
      match stream.writeAll written with
      | (.ok (), stream) => .ok ends ⟨stream, tables⟩
      | (.error error, stream) => .error (.failed error) ⟨stream, tables⟩

variable {codec}

/-- A response is encoded, then written. -/
theorem answer_eq (response : Response ID) (snmpError : Option UInt16) (ends : Pass)
    (session : Session ID) :
    (do codec.answer response snmpError; return ends : EStateM Stop (Session ID) Pass) session =
      perform session.stream (codec.responds response snmpError ends, session.tables) := by
  have written (bytes : List UInt8)
      (answered : codec.answer response snmpError session =
        onStream (attempt (writeAll bytes)) session) :
      (do codec.answer response snmpError; return ends : EStateM Stop (Session ID) Pass)
        session = perform session.stream (.ok (some bytes, ends), session.tables) := by
    rw [onStream, attempt] at answered
    unfold perform
    dsimp only
    cases wrote : session.stream.writeAll bytes with
    | mk answer stream =>
        rw [wrote] at answered
        cases answer with
        | ok => exact bind_ok answered
        | error error => exact bind_error answered
  unfold responds encoded
  cases bytes : codec.responseToBytes response with
  | error error =>
      have failed : codec.answer response snmpError session = .error (.failed error) session :=
        bind_error (raise_error bytes)
      rw [bind_error failed]
      rfl
  | ok bytes' =>
      have answered : codec.answer response snmpError session =
          (do let bytes ← patch response.header.order bytes' snmpError
              onStream (attempt (writeAll bytes)) : EStateM Stop (Session ID) Unit) session :=
        bind_ok (raise_ok bytes)
      cases snmpError with
      | none => exact written bytes' answered
      | some error =>
          rw [patch] at answered
          dsimp only
          by_cases fits : 26 ≤ bytes'.length
          · rw [if_pos fits] at answered ⊢
            exact written _ answered
          · rw [if_neg fits] at answered ⊢
            exact bind_error answered

/-- A frame is handled as the machine says. -/
theorem handle_eq (opened header : Header) (bytes : List UInt8) (session : Session ID) :
    codec.handle opened header bytes session =
      perform session.stream (codec.make opened header bytes session.tables) := by
  unfold handle make
  split
  · exact answer_eq _ _ _ session
  split
  · cases decoded : codec.closeFromBytes bytes with
    | error error => exact bind_error (raise_error rfl)
    | ok => exact (bind_ok (raise_ok rfl)).trans (answer_eq _ _ _ session)
  split
  · split <;> rfl
  · rcases dispatched : codec.dispatch header bytes session.tables with ⟨result, tables⟩
    rw [bind_ok (dispatchFrame_ok dispatched)]
    rcases result with error | ⟨response, snmpError⟩
    · exact answer_eq _ _ _ { session with tables }
    · exact answer_eq _ _ _ { session with tables }

/-- Where no call is refused, what is made of a frame is put on the stream as it is. -/
theorem perform_granted {stream : UnixStream} (calm : stream.Calm) (made : Made)
    (tables : TableReader ID) :
    ∃ after, perform stream (made, tables) = (match made with
        | .error stop => .error stop ⟨after, tables⟩
        | .ok (_, ends) => .ok ends ⟨after, tables⟩) ∧
      after.Calm ∧ after.incoming = stream.incoming ∧
      after.events = stream.events ++ (match made with
        | .error _ => []
        | .ok (written, _) => written.toList.map SessionEvent.wrote) := by
  rcases made with stop | ⟨_ | written, ends⟩
  · exact ⟨stream, rfl, calm, rfl, (List.append_nil _).symm⟩
  · exact ⟨stream, rfl, calm, rfl, (List.append_nil _).symm⟩
  · have accepted : (stream.writeAll written).1 = .ok () := calm.granted.answer
    cases wrote : stream.writeAll written with
    | mk answer after =>
        rw [wrote] at accepted
        cases accepted
        have advances := ask_advances wrote
        refine ⟨after, ?_, calm.advances advances, advances.incoming.symm, advances.events⟩
        rw [perform, wrote]

variable (codec)

/-- No frame that the loop receives next hits its deadline. -/
def Timely (opened : Header) : Nat → Session ID → Prop
  | 0, _ => True
  | count + 1, session =>
      OnTime ioTimeout (session.stream.since (reached (receive codec ioTimeout session.stream))) ∧
        match codec.pass opened session with
        | .ok .next after => Timely opened count after
        | _ => True

instance decidableTimely (opened : Header) :
    (count : Nat) → (session : Session ID) → Decidable (codec.Timely opened count session)
  | 0, _ => isTrue trivial
  | count + 1, session =>
      have : Decidable (match codec.pass opened session with
          | .ok .next after => codec.Timely opened count after
          | _ => True) :=
        match codec.pass opened session with
        | .ok .next after => decidableTimely opened count after
        | .ok .returned _ | .error _ _ => isTrue trivial
      inferInstanceAs (Decidable (_ ∧ _))

variable {codec}

/-- The next frame that waits is received. -/
theorem receiveFrame_next {session : Session ID} (calm : session.stream.Calm)
    {header : Header} {bytes rest : List UInt8} (framed : WellFramed codec header bytes)
    (incoming : session.stream.incoming = bytes ++ rest)
    (onTime : OnTime ioTimeout
      (session.stream.since (reached (receive codec ioTimeout session.stream)))) :
    ∃ middle : Session ID, codec.receiveFrame session = .ok (header, bytes) middle ∧
      middle.stream.Calm ∧ middle.stream.incoming = rest ∧ middle.tables = session.tables := by
  obtain ⟨after, received, calm', left, _⟩ := @receive_next _ codec session.stream ioTimeout calm
    (header, bytes) rest framed incoming fun stop after stopped => by
      rw [stopped] at onTime
      exact onTime
  have got : onStream (receive codec ioTimeout) session =
      .ok (header, bytes) { session with stream := after } := by
    rw [onStream, received]
  refine ⟨_, (bind_ok got).trans rfl, ⟨calm'.arrivals, calm'.granted⟩, left, rfl⟩

/-- A pass over the next frame that waits does what the machine says. -/
theorem pass_frame {opened header : Header} {session : Session ID}
    (calm : session.stream.Calm) {bytes rest : List UInt8}
    (framed : WellFramed codec header bytes)
    (incoming : session.stream.incoming = bytes ++ rest)
    (onTime : OnTime ioTimeout
      (session.stream.since (reached (receive codec ioTimeout session.stream)))) :
    ∃ after : UnixStream, after.Calm ∧ after.incoming = rest ∧
      match codec.make opened header bytes session.tables with
      | (.error stop, tables) => codec.pass opened session = .error stop ⟨after, tables⟩ ∧
          after.events = session.stream.events ++ [.received header bytes]
      | (.ok (written, ends), tables) => codec.pass opened session = .ok ends ⟨after, tables⟩ ∧
          after.events =
            session.stream.events ++ .received header bytes :: written.toList.map .wrote := by
  obtain ⟨middle, received, calm', left, same⟩ := receiveFrame_next calm framed incoming onTime
  have shows := (receiveFrame_shows received).2.2
  have passed : codec.pass opened session =
      perform middle.stream (codec.make opened header bytes session.tables) := by
    rw [← same, ← handle_eq]
    exact bind_ok received
  rw [passed]
  rcases codec.make opened header bytes session.tables with ⟨made, tables⟩
  obtain ⟨after, performed, calm'', kept, adds⟩ := perform_granted calm' made tables
  refine ⟨after, calm'', kept.trans left, ?_⟩
  rw [performed, adds, shows]
  cases made with
  | error stop => exact ⟨rfl, List.append_nil _⟩
  | ok made => exact ⟨rfl, List.append_assoc _ _ _⟩

/-- How a session ends by what ends it on frames: without a frame that ends it, it is lost
when the stream ends. -/
def EndsAs (result : EStateM.Result Stop (Session ID) Unit) : Option (Except Stop Unit) → Prop
  | some (.ok ()) => ∃ after, result = .ok () after
  | some (.error stop) => ∃ after, result = .error stop after
  | none => ∃ error after, result = .error (.failed error) after

/-- The loop shows what the machine shows on the frames, and ends as it does. -/
theorem serve_frames (opened : Header) (frames : List (Header × List UInt8))
    (rest : List UInt8) (session : Session ID) (calm : session.stream.Calm)
    (timely : codec.Timely opened frames.length session)
    (framed : ∀ frame ∈ frames, WellFramed codec frame.1 frame.2)
    (incoming : session.stream.incoming = frames.flatMap Prod.snd ++ rest)
    (truncated : Truncated codec rest) :
    (reached (codec.serve opened session)).stream.events =
        session.stream.events ++ (codec.serveFrames opened frames session.tables).1 ∧
      EndsAs (codec.serve opened session) (codec.serveFrames opened frames session.tables).2 := by
  induction frames generalizing session with
  | nil =>
      rw [List.flatMap_nil, List.nil_append] at incoming
      obtain ⟨error, after, lost⟩ := receive_truncated codec ioTimeout session.stream
        (incoming ▸ truncated)
      have ended : codec.serve opened session = .error (.failed error)
          { session with stream := after } := by
        apply serve_error
        apply bind_error
        apply bind_error
        rw [onStream, lost]
      rw [ended]
      obtain ⟨_, _, _, advances, listens⟩ := receive_error codec lost
      refine ⟨?_, _, _, rfl⟩
      change after.events = _
      rw [advances.events, eventsOf_listens listens]
      rfl
  | cons frame frames ih =>
      obtain ⟨header, bytes⟩ := frame
      obtain ⟨onTime, later⟩ := timely
      rw [List.flatMap_cons, List.append_assoc] at incoming
      obtain ⟨after, calm', left, made⟩ := @pass_frame _ _ codec opened header session calm bytes
        _ (framed _ List.mem_cons_self) incoming onTime
      rcases result : codec.make opened header bytes session.tables with
        ⟨stop | ⟨written, ends⟩, tables⟩ <;>
        rw [result] at made <;> rw [serveFrames, result]
      · obtain ⟨passed, adds⟩ := made
        rw [serve_error passed]
        exact ⟨adds, _, rfl⟩
      · obtain ⟨passed, adds⟩ := made
        cases ends with
        | returned =>
            rw [serve_returned passed]
            exact ⟨adds, _, rfl⟩
        | next =>
            rw [passed] at later
            obtain ⟨shown, ended⟩ := ih ⟨after, tables⟩ calm' later
              (fun frame member => framed frame (List.mem_cons_of_mem _ member)) left
            rw [serve_next passed]
            refine ⟨?_, ended⟩
            rw [shown, adds, List.append_assoc]

/-- **Frames.** However the bytes of some frames are split over reads, and wherever reads
are interrupted, a run shows after its handshake what the machine shows on the frames, and
ends as it does: no frame is lost, served twice or out of order, and nothing but the frames
and the tables found for them matters. -/
theorem run_frames {config : Config} {session middle : Session ID} {opened : Header}
    (registered : codec.handshake config session = .ok opened middle)
    (calm : middle.stream.Calm) (frames : List (Header × List UInt8)) (rest : List UInt8)
    (timely : codec.Timely opened frames.length middle)
    (framed : ∀ frame ∈ frames, WellFramed codec frame.1 frame.2)
    (incoming : middle.stream.incoming = frames.flatMap Prod.snd ++ rest)
    (truncated : Truncated codec rest) :
    (reached (codec.run config session)).stream.events =
        middle.stream.events ++ (codec.serveFrames opened frames middle.tables).1 ∧
      EndsAs (codec.run config session) (codec.serveFrames opened frames middle.tables).2 := by
  have run_eq : codec.run config session = codec.serve opened middle := bind_ok registered
  rw [run_eq]
  exact serve_frames opened frames rest middle calm timely framed incoming truncated

/-- A Ping of the session, a CleanupSet, a Ping of another session and a CommitSet. -/
def fourFrames : List Header :=
  [⟨1, .ping, networkOrder, 7, 1, 3, 0⟩, ⟨1, .cleanupSet, 0, 7, 2, 4, 0⟩,
    ⟨1, .ping, 0, 8, 3, 5, 0⟩, ⟨1, .commitSet, networkOrder, 7, 4, 6, 0⟩]

/-- They come in small pieces, and reads are interrupted. -/
def splitConnection : Session PlainId :=
  let whole := connection fourFrames
  { whole with stream := { whole.stream with
      arrivals := [⟨0, .failed ⟨.interrupted, []⟩⟩, ⟨5, .chunk 1⟩, ⟨2, .chunk 7⟩, ⟨1, .chunk 12⟩,
        ⟨4, .chunk 8⟩, ⟨0, .chunk 28⟩, ⟨3, .chunk 28⟩, ⟨9, .chunk 1⟩,
        ⟨0, .failed ⟨.interrupted, []⟩⟩, ⟨2, .chunk 10⟩, ⟨6, .chunk 9⟩, ⟨1, .chunk 1⟩]
      lags := [1, 0, 2] } }

/-- How a read that is only interrupted ends can be decided. -/
instance (arrival : Arrival) : Decidable (∀ error, arrival.delivery = .failed error →
    error.kind = .interrupted) :=
  match arrival.delivery with
  | .chunk _ => isTrue nofun
  | .failed error => decidable_of_iff (error.kind = .interrupted)
      ⟨fun kind _ same => Delivery.failed.inj same ▸ kind, fun all => all error rfl⟩

/-- Four frames that come in pieces are served as frames. -/
theorem run_frames_split : ∃ (middle : Session PlainId) (error : Error)
    (after : Session PlainId),
    plain.handshake ⟨127⟩ splitConnection = .ok acknowledged middle ∧
    plain.run ⟨127⟩ splitConnection = .error (.failed error) after ∧
    after.stream.events = middle.stream.events ++ (plain.serveFrames acknowledged
      (fourFrames.map fun header => (header, Wire.encodeHeader header)) middle.tables).1 := by
  have registered : plain.handshake ⟨127⟩ splitConnection = .ok acknowledged
      (reached (plain.handshake ⟨127⟩ splitConnection)) :=
    eq_ok_of_ended (by decide +kernel)
  have calm : (reached (plain.handshake ⟨127⟩ splitConnection)).stream.Calm :=
    ⟨by decide +kernel, by unfold Granted; decide +kernel⟩
  have framed : ∀ frame ∈ fourFrames.map fun header => (header, Wire.encodeHeader header),
      WellFramed plain frame.1 frame.2 := by
    intro frame member
    simp only [fourFrames, List.map_cons, List.map_nil, List.mem_cons, List.not_mem_nil,
      or_false] at member
    rcases member with rfl | rfl | rfl | rfl <;>
      exact ⟨by decide, by decide, by decide, by decide, by decide⟩
  obtain ⟨shown, ends⟩ := run_frames registered calm _ [] (by decide +kernel) framed
    (by decide +kernel) (.inl (by decide))
  have open' : (plain.serveFrames acknowledged
      (fourFrames.map fun header => (header, Wire.encodeHeader header))
        (reached (plain.handshake ⟨127⟩ splitConnection)).tables).2 = none :=
    Option.isNone_iff_eq_none.mp (by decide +kernel)
  rw [open'] at ends
  obtain ⟨error, after, ended⟩ := ends
  rw [ended] at shown
  exact ⟨_, error, after, registered, ended, shown⟩

end Codec
end IfStack
