import IfStack.Session.Receive
import IfStack.Session.Wire

/-! # Reassembly of frames

However the bytes of a stream are split over reads, receiving gives its frames: where
reads are only interrupted and the deadline is not hit, each call takes exactly the
next frame. A header that is refused costs its 20 bytes, and a frame that is cut short
is an error.
-/

namespace IfStack

open Foundation

namespace UnixStream

/-- Reads are only ever interrupted, and no other call is refused. -/
structure Calm (stream : UnixStream) : Prop where
  arrivals : ∀ arrival ∈ stream.arrivals, ∀ error, arrival.delivery = .failed error →
    error.kind = .interrupted
  granted : stream.Granted

end UnixStream

/-- The readings of the clock, newest first. -/
def readings (calls : List SocketCall) : List Nat :=
  calls.filterMap fun
    | .instant reading => some reading
    | _ => none

/-- The readings of the clock stay before the deadline, which counts from the first of
them. -/
def OnTime (frameBudget : Duration) (calls : List SocketCall) : Prop :=
  ∀ first ∈ (readings calls).getLast?, ∀ reading ∈ readings calls,
    reading < first + frameBudget.nanos

instance (frameBudget : Duration) (calls : List SocketCall) :
    Decidable (OnTime frameBudget calls) :=
  inferInstanceAs (Decidable (∀ first ∈ (readings calls).getLast?, ∀ reading ∈ readings calls,
    reading < first + frameBudget.nanos))

section

variable {ID : Type} (codec : Codec ID) (frameBudget : Duration)

/-- The next calls of `receive` never hit the deadline. -/
def NeverLate : Nat → UnixStream → Prop
  | 0, _ => True
  | count + 1, stream =>
      match receive codec frameBudget stream with
      | .ok _ after => OnTime frameBudget (stream.since after) ∧ NeverLate count after
      | .error _ after => OnTime frameBudget (stream.since after)

instance decidableNeverLate : (count : Nat) → (stream : UnixStream) →
    Decidable (NeverLate codec frameBudget count stream)
  | 0, _ => isTrue trivial
  | count + 1, stream =>
      match received : receive codec frameBudget stream with
      | .ok _ after =>
          have := decidableNeverLate count after
          decidable_of_iff
            (OnTime frameBudget (stream.since after) ∧ NeverLate codec frameBudget count after)
            (by rw [NeverLate, received])
      | .error _ after =>
          decidable_of_iff (OnTime frameBudget (stream.since after)) (by rw [NeverLate, received])

/-- Repeated calls of `receive` give frames. Each takes the bytes of its frame and
leaves the timeout as it was. -/
inductive Receives : UnixStream → List (Header × List UInt8) → UnixStream → Prop
  | done (stream : UnixStream) : Receives stream [] stream
  | next {stream middle last : UnixStream} {frame : Header × List UInt8}
      {frames : List (Header × List UInt8)} :
      receive codec frameBudget stream = .ok frame middle →
      stream.incoming = frame.2 ++ middle.incoming →
      middle.readTimeout = stream.readTimeout →
      Receives middle frames last → Receives stream (frame :: frames) last

/-- A stream that ends inside its next frame, or before it. -/
def Truncated (bytes : List UInt8) : Prop :=
  bytes.length < 20 ∨ ∃ header, codec.headerFromBytes (bytes.take 20) = .ok header ∧
    bytes.length < 20 + header.payloadLength.toNat

end

namespace UnixStream

variable {stream after : UnixStream}

/-- A calm stream stays calm. -/
theorem Calm.advances {bytes : List UInt8} {calls : List SocketCall} (calm : stream.Calm)
    (advances : stream.Advances after bytes calls) : after.Calm where
  arrivals arrival member := calm.arrivals arrival (advances.arrivals.subset member)
  granted := calm.granted.advances advances

/-- A calm stream refuses a read only by an interruption. -/
theorem Calm.read (calm : stream.Calm) {requested : Nat} {error : Error}
    (got : stream.read requested = (.error error, after)) : error.kind = .interrupted := by
  obtain ⟨delay, arrivals⟩ := read_failed got
  exact calm.arrivals ⟨delay, .failed error⟩ (arrivals ▸ List.mem_cons_self) error rfl

/-- A read gives no bytes only at the end of the stream. -/
theorem read_nil {requested : Nat} (asked : requested ≠ 0)
    (got : stream.read requested = (.ok [], after)) : stream.incoming = [] := by
  unfold UnixStream.read at got
  dsimp only at got
  split at got
  · cases congrArg Prod.fst got
  · have none := Except.ok.inj (congrArg Prod.fst got)
    rcases List.take_eq_nil_iff.mp none with zero | ended
    · omega
    · exact ended

/-- What waits behind a read is what is still asked for. -/
theorem enough_after {requested : Nat} {answer : Except Error (List UInt8)}
    (got : stream.read requested = (answer, after)) (enough : requested ≤ stream.incoming.length) :
    requested - (taken answer).length ≤ after.incoming.length := by
  have split := congrArg List.length (read_advances got).1.incoming
  rw [List.length_append] at split
  omega

/-- Where enough bytes wait, reads that are only interrupted fill the buffer. -/
theorem readExact_calm (count : Nat) (stream : UnixStream) (calm : stream.Calm)
    (enough : count ≤ stream.incoming.length) :
    ∃ bytes after, readExact count stream = .ok bytes after := by
  fun_induction readExact count stream with
  | case1 stream => exact ⟨_, _, rfl⟩
  | case2 count stream asked after got =>
      rw [read_nil asked got] at enough
      exact absurd (Nat.le_zero.mp enough) asked
  | case3 => exact ⟨_, _, rfl⟩
  | case4 count stream asked byte bytes after got stop final failed ih =>
      obtain ⟨rest, final', filled⟩ := ih (calm.advances (read_advances got).1)
        (enough_after got enough)
      cases filled.symm.trans failed
  | case5 count stream asked error after got interrupted ih =>
      exact ih (calm.advances (read_advances got).1) (enough_after got enough)
  | case6 count stream asked error after got other => exact absurd (calm.read got) other

/-- An action under a deadline stops only when a reading of the clock is past it. -/
def Punctual {α : Type} (deadline : Nat) (stream : UnixStream) :
    EStateM.Result Stop UnixStream α → Prop
  | .ok _ _ => True
  | .error _ after => ∃ calls, after.log = calls ++ stream.log ∧
      ∃ reading ∈ readings calls, deadline ≤ reading

/-- What is punctual from a later state is so from the earlier one. -/
theorem Punctual.from {α : Type} {deadline : Nat} {middle : UnixStream} {bytes : List UInt8}
    {calls : List SocketCall} {result : EStateM.Result Stop UnixStream α}
    (advances : stream.Advances middle bytes calls) (punctual : Punctual deadline middle result) :
    Punctual deadline stream result := by
  cases result with
  | ok value final => trivial
  | error stop final =>
      obtain ⟨later, log, reading, member, late⟩ := punctual
      refine ⟨later ++ calls, ?_, reading, ?_, late⟩
      · rw [log, advances.log, List.append_assoc]
      · rw [readings, List.filterMap_append]
        exact List.mem_append_left _ member

/-- Where enough bytes wait, reads that are only interrupted fill the buffer before the
deadline. -/
theorem readBefore_calm (deadline count : Nat) (stream : UnixStream) (calm : stream.Calm)
    (enough : count ≤ stream.incoming.length) :
    Punctual deadline stream (readBefore deadline count stream) := by
  fun_induction readBefore deadline count stream with
  | case1 stream => trivial
  | case2 count stream asked clocked remaining passed =>
      exact ⟨[_], rfl, _, List.mem_singleton_self _, durationSince_eq_zero.mp passed⟩
  | case3 count stream asked clocked remaining left error refused set =>
      have accepted : (clocked.setReadTimeout (some remaining)).1 = .ok () :=
        (calm.advances (instant_advances stream)).granted.setReadTimeout
          fun zero => left (Option.some.inj zero)
      rw [set] at accepted
      cases accepted
  | case4 count stream asked clocked remaining left timed set after got =>
      have waits : stream.incoming = timed.incoming := (timed_advances set).incoming
      rw [waits, read_nil asked got] at enough
      exact absurd (Nat.le_zero.mp enough) asked
  | case5 => trivial
  | case6 count stream asked clocked remaining left timed set byte bytes after got stop final
      failed ih =>
      have waits : stream.incoming = timed.incoming := (timed_advances set).incoming
      obtain ⟨calls, advances, _⟩ := pass_advances set got
      have punctual := ih (calm.advances advances) (enough_after got (waits ▸ enough))
      rw [failed] at punctual
      exact punctual.from advances
  | case7 count stream asked clocked remaining left timed set error after got interrupted ih =>
      have waits : stream.incoming = timed.incoming := (timed_advances set).incoming
      obtain ⟨calls, advances, _⟩ := pass_advances set got
      exact (ih (calm.advances advances) (enough_after got (waits ▸ enough))).from advances
  | case8 count stream asked clocked remaining left timed set error after got other timeout =>
      exact absurd ((calm.advances (timed_advances set)).read got) other
  | case9 count stream asked clocked remaining left timed set error after got other _ =>
      exact absurd ((calm.advances (timed_advances set)).read got) other

/-- Reads do not look at the clock. -/
theorem readings_of_reads {calls : List SocketCall} (reads : ∀ call ∈ calls, call.Reads) :
    readings calls = [] := by
  apply List.filterMap_eq_nil_iff.mpr
  intro call member
  cases call with
  | read => rfl
  | _ => exact absurd (reads _ member) id

/-- The first reading of a run is that of its earlier part. -/
theorem readings_getLast? {later earlier : List SocketCall} {first : Nat}
    (opened : (readings earlier).getLast? = some first) :
    (readings (later ++ earlier)).getLast? = some first := by
  unfold readings at opened ⊢
  rw [List.filterMap_append, List.getLast?_append, opened]
  rfl

/-- A reading past the deadline, which counts from the first reading. -/
theorem not_onTime {frameBudget : Duration} {later earlier : List SocketCall}
    {first reading : Nat} (opened : (readings earlier).getLast? = some first)
    (member : reading ∈ readings later) (late : first + frameBudget.nanos ≤ reading) :
    ¬ OnTime frameBudget (later ++ earlier) := by
  intro onTime
  have all : reading ∈ readings (later ++ earlier) := by
    rw [readings, List.filterMap_append]
    exact List.mem_append_left _ member
  have early := onTime first (readings_getLast? opened) reading all
  omega

/-- What stops behind the deadline is not on time. -/
theorem not_onTime_since {frameBudget : Duration} {middle : UnixStream}
    {earlier : List SocketCall} {first : Nat} (log : middle.log = earlier ++ stream.log)
    (opened : (readings earlier).getLast? = some first)
    (late : ∃ calls, after.log = calls ++ middle.log ∧
      ∃ reading ∈ readings calls, first + frameBudget.nanos ≤ reading) :
    ¬ OnTime frameBudget (stream.since after) := by
  obtain ⟨later, log', reading, member, late⟩ := late
  rw [log, ← List.append_assoc] at log'
  rw [since_eq log']
  exact not_onTime opened member late

/-- The first half of receiving opens a frame: its deadline counts from the first
reading of the clock, and it stops only behind that. -/
def Opens (frameBudget : Duration) (stream : UnixStream) :
    EStateM.Result Stop UnixStream (Nat × Option Duration × List UInt8) → Prop
  | .ok front after => ∃ calls first, after.log = calls ++ stream.log ∧
      (readings calls).getLast? = some first ∧ front.1 = first + frameBudget.nanos
  | .error _ after => ¬ OnTime frameBudget (stream.since after)

/-- Where a byte waits, receiving takes it and reads the clock. -/
theorem receiveFront_eq (frameBudget : Duration) (calm : stream.Calm)
    (waits : 1 ≤ stream.incoming.length) :
    ∃ first timed reading calls, first.length = 1 ∧ stream.Advances timed first calls ∧
      (readings calls).getLast? = some reading ∧
      receiveFront frameBudget stream =
        (do
          let rest ← readBefore (reading + frameBudget.nanos) 19
          return (reading + frameBudget.nanos, stream.readTimeout, first ++ rest) :
          EStateM Stop UnixStream _) timed := by
  obtain ⟨first, opened, filled⟩ := readExact_calm 1 stream calm waits
  have fills := readExact_fills 1 stream
  rw [filled] at fills
  obtain ⟨length, reads, advances, quiet⟩ := fills
  obtain ⟨idleTimeout, known⟩ := (calm.advances advances).granted.getReadTimeout
  have found : opened.getReadTimeout = (.ok idleTimeout, opened.getReadTimeout.2) :=
    Prod.ext known rfl
  obtain ⟨got, same⟩ := getReadTimeout_advances found
  have clocked := (advances.trans got).trans (instant_advances opened.getReadTimeout.2)
  rw [List.append_nil, List.append_nil] at clocked
  refine ⟨first, _, opened.getReadTimeout.2.instant.1, _, length, clocked, ?_, ?_⟩
  · change (_ :: readings reads).getLast? = _
    rw [readings_of_reads quiet]
    rfl
  · unfold receiveFront
    rw [bind_ok filled, bind_ok (attempt_ok found), bind_ok (rfl : readClock _ = .ok _ _),
      same _ rfl, readExact_readTimeout filled]

/-- On a calm stream with enough bytes the front of a frame opens it. -/
theorem receiveFront_calm (frameBudget : Duration) (calm : stream.Calm)
    (enough : 20 ≤ stream.incoming.length) :
    Opens frameBudget stream (receiveFront frameBudget stream) := by
  obtain ⟨first, timed, reading, earlier, length, advances, opened, same⟩ :=
    receiveFront_eq frameBudget calm (by omega)
  have waits := congrArg List.length advances.incoming
  rw [List.length_append, length] at waits
  have punctual := readBefore_calm (reading + frameBudget.nanos) 19 timed
    (calm.advances advances) (by omega)
  have fills := readBefore_fills (reading + frameBudget.nanos) 19 timed
  rw [same]
  cases rest : readBefore (reading + frameBudget.nanos) 19 timed with
  | ok bytes full =>
      rw [rest] at fills
      obtain ⟨_, calls, further, _⟩ := fills
      rw [bind_ok rest]
      exact ⟨calls ++ earlier, reading, (advances.trans further).log, readings_getLast? opened,
        rfl⟩
  | error stop full =>
      rw [rest] at punctual
      rw [bind_error rest]
      exact not_onTime_since advances.log opened punctual

end UnixStream

open UnixStream

variable {ID : Type} (codec : Codec ID) {stream : UnixStream}

/-- A payload that waits is received before the deadline. -/
theorem receivePayload_calm (deadline : Nat) {idleTimeout : Option Duration}
    (nonzero : idleTimeout ≠ some .zero) {front : List UInt8} {header : Header}
    (decodes : codec.headerFromBytes front = .ok header) (sound : header.Sound)
    (calm : stream.Calm) (enough : header.payloadLength.toNat ≤ stream.incoming.length) :
    Punctual deadline stream (receivePayload codec deadline idleTimeout front stream) := by
  have grown : stream.Advances (stream.record (.resized (20 + header.payloadLength.toNat))) []
      [.resized (20 + header.payloadLength.toNat)] :=
    ⟨rfl, List.suffix_rfl, List.suffix_rfl, rfl⟩
  have punctual := readBefore_calm deadline header.payloadLength.toNat
    (stream.record (.resized (20 + header.payloadLength.toNat))) (calm.advances grown) enough
  have fills := readBefore_fills deadline header.payloadLength.toNat
    (stream.record (.resized (20 + header.payloadLength.toNat)))
  unfold receivePayload
  rw [bind_ok (raise_ok decodes), if_neg (header.sound_iff.mp sound),
    bind_ok (rfl : resize _ _ = .ok _ _)]
  cases payload : readBefore deadline header.payloadLength.toNat
      (stream.record (.resized (20 + header.payloadLength.toNat))) with
  | ok bytes full =>
      rw [payload] at fills
      obtain ⟨_, calls, further, _⟩ := fills
      have accepted := (calm.advances (grown.trans further)).granted.setReadTimeout nonzero
      have set : full.setReadTimeout idleTimeout = (.ok (), (full.setReadTimeout idleTimeout).2) :=
        Prod.ext accepted rfl
      rw [bind_ok payload, bind_ok (attempt_ok set)]
      trivial
  | error stop full =>
      rw [payload] at punctual
      rw [bind_error payload]
      exact punctual.from grown

/-- A header that is refused costs nothing more. -/
theorem receivePayload_unsound (deadline : Nat) (idleTimeout : Option Duration)
    {front : List UInt8} (unsound : ∀ header, codec.headerFromBytes front = .ok header →
      ¬ header.Sound) :
    ∃ error, receivePayload codec deadline idleTimeout front stream =
      .error (.failed error) stream := by
  unfold receivePayload
  cases decoded : codec.headerFromBytes front with
  | error error => exact ⟨error, bind_error (raise_error rfl)⟩
  | ok header =>
      rw [bind_ok (raise_ok rfl),
        if_pos (not_not.mp (header.sound_iff.not.mp (unsound header decoded)))]
      exact ⟨_, rfl⟩

/-- Receiving stops only behind its deadline. -/
def StopsLate (frameBudget : Duration) (stream : UnixStream) :
    EStateM.Result Stop UnixStream (Header × List UInt8) → Prop
  | .ok _ _ => True
  | .error _ after => ¬ OnTime frameBudget (stream.since after)

/-- A frame that waits is received, unless the deadline is hit. -/
theorem receive_calm (frameBudget : Duration) (calm : stream.Calm) {header : Header}
    (decodes : codec.headerFromBytes (stream.incoming.take 20) = .ok header)
    (sound : header.Sound)
    (enough : 20 + header.payloadLength.toNat ≤ stream.incoming.length) :
    StopsLate frameBudget stream (receive codec frameBudget stream) := by
  have opens := receiveFront_calm frameBudget calm (by omega)
  have takes := receiveFront_takes frameBudget stream
  unfold receive
  cases headed : receiveFront frameBudget stream with
  | error stop middle =>
      rw [headed] at opens
      rw [bind_error headed]
      exact opens
  | ok front middle =>
      obtain ⟨deadline, idleTimeout, bytes⟩ := front
      rw [headed] at opens takes
      obtain ⟨earlier, first, log, opened, rfl⟩ := opens
      obtain ⟨_, _, advances, _, rfl, length, rfl⟩ := takes
      have waits := congrArg List.length advances.incoming
      rw [List.length_append, length] at waits
      rw [advances.incoming, ← length, List.take_left] at decodes
      have punctual := receivePayload_calm codec (first + frameBudget.nanos) stream.nonzero decodes
        sound (calm.advances advances) (by omega)
      rw [bind_ok headed]
      change StopsLate frameBudget stream
        (receivePayload codec (first + frameBudget.nanos) stream.readTimeout bytes middle)
      cases ended : receivePayload codec (first + frameBudget.nanos) stream.readTimeout bytes
          middle with
      | ok frame after => trivial
      | error stop after =>
          rw [ended] at punctual
          exact not_onTime_since log opened punctual

/-- The next frame of a stream is what is received. -/
theorem receive_next (frameBudget : Duration) (calm : stream.Calm)
    {frame : Header × List UInt8} {rest : List UInt8} (framed : WellFramed codec frame.1 frame.2)
    (incoming : stream.incoming = frame.2 ++ rest)
    (onTime : ∀ stop after, receive codec frameBudget stream = .error stop after →
      OnTime frameBudget (stream.since after)) :
    ∃ after, receive codec frameBudget stream = .ok frame after ∧ after.Calm ∧
      after.incoming = rest ∧ after.readTimeout = stream.readTimeout := by
  have length := framed.length
  have ended := receive_calm codec frameBudget calm (incoming ▸ framed.front) framed.sound
    (by rw [incoming, List.length_append]; omega)
  cases received : receive codec frameBudget stream with
  | error stop after =>
      rw [received] at ended
      exact absurd (onTime stop after received) ended
  | ok frame' after =>
      obtain ⟨framed', kept, calls, advances, _⟩ := receive_ok codec received
      obtain ⟨sameHeader, sameBytes, left⟩ :=
        framed'.unique framed (advances.incoming.symm.trans incoming)
      exact ⟨after, congrArg (EStateM.Result.ok · after) (Prod.ext sameHeader sameBytes),
        calm.advances advances, left, kept⟩

/-- Repeated calls receive the frames of a stream. -/
theorem receives_frames (frameBudget : Duration) (frames : List (Header × List UInt8))
    (rest : List UInt8) (stream : UnixStream) (calm : stream.Calm)
    (onTime : NeverLate codec frameBudget frames.length stream)
    (framed : ∀ frame ∈ frames, WellFramed codec frame.1 frame.2)
    (incoming : stream.incoming = frames.flatMap Prod.snd ++ rest) :
    ∃ last, Receives codec frameBudget stream frames last ∧ last.incoming = rest := by
  induction frames generalizing stream with
  | nil => exact ⟨stream, .done stream, incoming⟩
  | cons frame frames ih =>
      rw [List.flatMap_cons, List.append_assoc] at incoming
      rw [List.length_cons, NeverLate] at onTime
      obtain ⟨after, received, calm', left, kept⟩ := receive_next codec frameBudget calm
        (framed frame List.mem_cons_self) incoming fun stop after stopped => by
          rw [stopped] at onTime
          exact onTime
      rw [received] at onTime
      obtain ⟨last, receives, final⟩ := ih after calm' onTime.2
        (fun frame member => framed frame (List.mem_cons_of_mem _ member)) left
      exact ⟨last, .next received (left ▸ incoming) kept receives, final⟩

/-- A header that is refused costs its 20 bytes. -/
theorem receive_unsound (frameBudget : Duration) (stream : UnixStream)
    (unsound : ∀ header, codec.headerFromBytes (stream.incoming.take 20) = .ok header →
      ¬ header.Sound) :
    ∃ error after, receive codec frameBudget stream = .error (.failed error) after ∧
      (∀ length, .resized length ∉ stream.since after) ∧
      (stream.Calm → 20 ≤ stream.incoming.length → OnTime frameBudget (stream.since after) →
        after.incoming = stream.incoming.drop 20) := by
  have takes := receiveFront_takes frameBudget stream
  have opens := @receiveFront_calm stream frameBudget
  unfold receive
  cases headed : receiveFront frameBudget stream with
  | error stop after =>
      rw [headed] at opens takes
      obtain ⟨⟨error, rfl⟩, _, calls, advances, awaits⟩ := takes
      refine ⟨error, after, bind_error headed, ?_, ?_⟩
      · intro length member
        rw [since_eq advances.log] at member
        exact awaits _ member
      · intro calm enough onTime
        exact absurd onTime (opens calm enough)
  | ok front after =>
      obtain ⟨deadline, idleTimeout, bytes⟩ := front
      rw [headed] at takes
      obtain ⟨_, calls, advances, awaits, rfl, length, _⟩ := takes
      rw [advances.incoming, ← length, List.take_left] at unsound
      obtain ⟨error, refused⟩ := @receivePayload_unsound _ codec after deadline
        idleTimeout _ unsound
      refine ⟨error, after, (bind_ok headed).trans refused, ?_, ?_⟩
      · intro size member
        rw [since_eq advances.log] at member
        exact awaits _ member
      · intro _ _ _
        rw [advances.incoming, ← length, List.drop_left]

/-- A frame that is cut short is an error. -/
theorem receive_truncated (frameBudget : Duration) (stream : UnixStream)
    (truncated : Truncated codec stream.incoming) :
    ∃ error after, receive codec frameBudget stream = .error (.failed error) after := by
  cases received : receive codec frameBudget stream with
  | error stop after =>
      obtain ⟨⟨error, rfl⟩, _⟩ := receive_error codec received
      exact ⟨error, after, rfl⟩
  | ok frame after =>
      obtain ⟨framed, _, calls, advances, _⟩ := receive_ok codec received
      have length := framed.length
      rw [Truncated, advances.incoming, framed.front, List.length_append] at truncated
      rcases truncated with short | ⟨header, same, short⟩
      · omega
      · cases same
        omega

/-- Repeated calls of `receive` give the frames of a stream, however reads split it and
wherever they are interrupted. A header that is refused costs exactly its 20 bytes and
no payload, and a frame that is cut short is an error. -/
theorem receive_reassembles (frameBudget : Duration) (stream : UnixStream) :
    (∀ (frames : List (Header × List UInt8)) (rest : List UInt8), stream.Calm →
      NeverLate codec frameBudget frames.length stream →
      (∀ frame ∈ frames, WellFramed codec frame.1 frame.2) →
      stream.incoming = frames.flatMap Prod.snd ++ rest →
      ∃ last, Receives codec frameBudget stream frames last ∧ last.incoming = rest) ∧
    ((∀ header, codec.headerFromBytes (stream.incoming.take 20) = .ok header →
        ¬ header.Sound) →
      ∃ error after, receive codec frameBudget stream = .error (.failed error) after ∧
        (∀ length, .resized length ∉ stream.since after) ∧
        (stream.Calm → 20 ≤ stream.incoming.length →
          OnTime frameBudget (stream.since after) →
          after.incoming = stream.incoming.drop 20)) ∧
    (Truncated codec stream.incoming →
      ∃ error after, receive codec frameBudget stream = .error (.failed error) after) :=
  ⟨fun frames rest calm onTime framed incoming =>
      receives_frames codec frameBudget frames rest stream calm onTime framed incoming,
    receive_unsound codec frameBudget stream, receive_truncated codec frameBudget stream⟩

/-- A Ping with a context, and a CleanupSet. -/
def pingAndCleanup : List (Header × List UInt8) :=
  let ping : Header := ⟨1, .ping, networkOrder, 7, 0, 3, 4⟩
  let cleanup : Header := ⟨1, .cleanupSet, 0, 7, 5, 4, 0⟩
  [(ping, Wire.encodeHeader ping ++ [0, 0, 0, 0]), (cleanup, Wire.encodeHeader cleanup)]

/-- Two frames in small reads, some of them interrupted. -/
def splitStream : UnixStream where
  incoming := pingAndCleanup.flatMap Prod.snd
  arrivals := [⟨0, .failed ⟨.interrupted, []⟩⟩, ⟨9, .chunk 1⟩, ⟨2, .chunk 7⟩,
    ⟨0, .failed ⟨.interrupted, []⟩⟩, ⟨5, .chunk 30⟩, ⟨1, .chunk 3⟩]
  lags := [1, 2]
  refusals := []
  now := 0
  readTimeout := none
  log := []

/-- Two frames in pieces are received whole, and without its first byte none is. -/
theorem receive_reassembles_split :
    (∃ last, Receives Codec.plain (.fromSecs 5) splitStream pingAndCleanup last ∧
      last.incoming = []) ∧
    (∃ error after, receive Codec.plain (.fromSecs 5)
      { splitStream with incoming := splitStream.incoming.drop 1 } =
        .error (.failed error) after) ∧
    ∃ error after, receive Codec.plain (.fromSecs 5)
      { splitStream with incoming := splitStream.incoming.take 23 } =
        .error (.failed error) after := by
  refine ⟨(receive_reassembles Codec.plain (.fromSecs 5) splitStream).1 pingAndCleanup []
    ⟨?_, ?_⟩ (by decide +kernel) ?_ rfl, ?_, ?_⟩
  · intro arrival member error failed
    simp only [splitStream, List.mem_cons, List.not_mem_nil, or_false] at member
    rcases member with rfl | rfl | rfl | rfl | rfl | rfl <;> cases failed <;> rfl
  · intro refusal member
    exact absurd member List.not_mem_nil
  · intro frame member
    simp only [pingAndCleanup, List.mem_cons, List.not_mem_nil, or_false] at member
    rcases member with rfl | rfl
    · exact ⟨by decide, by decide, by decide, by decide, by decide⟩
    · exact ⟨by decide, by decide, by decide, by decide, by decide⟩
  · obtain ⟨error, after, failed, _⟩ := (receive_reassembles Codec.plain (.fromSecs 5)
      { splitStream with incoming := splitStream.incoming.drop 1 }).2.1 (by
        intro header decodes sound
        cases decodes
        exact absurd sound.version (by decide))
    exact ⟨error, after, failed⟩
  · exact (receive_reassembles Codec.plain (.fromSecs 5)
      { splitStream with incoming := splitStream.incoming.take 23 }).2.2
        (.inr ⟨_, rfl, by decide⟩)

end IfStack
