import IfStack.Session.Protocol

/-! # One-way frames

A CleanupSet and a Response need no answer. A session leaves its own CleanupSets
unanswered, but it answers those of another session, and every Response.
-/

namespace IfStack

open Foundation UnixStream

/-- The types of the frames that need no answer. -/
def OneWay (ty : PduType) : Prop := ty = .cleanupSet ∨ ty = .response

/-- No frame that needs no answer is followed by a write. -/
def OneWaySilent (events : List SessionEvent) : Prop :=
  ∀ before header bytes after, events = before ++ .received header bytes :: after →
    OneWay header.ty → ∀ written rest, after ≠ .wrote written :: rest

/-- Exchanges begin with a frame. -/
theorem flatMap_events_ne_wrote (exchanges : List Exchange) (written : List UInt8)
    (rest : List SessionEvent) : exchanges.flatMap Exchange.events ≠ .wrote written :: rest := by
  intro same
  cases exchanges with
  | nil => cases same
  | cons exchange exchanges => cases same

/-- Exchanges are silent when those on one-way frames are. -/
theorem oneWaySilent_iff (exchanges : List Exchange) :
    OneWaySilent (exchanges.flatMap Exchange.events) ↔
      ∀ exchange ∈ exchanges, OneWay exchange.header.ty → exchange.written = none := by
  constructor
  · intro silent exchange member oneWay
    obtain ⟨before, after, rfl⟩ := List.append_of_mem member
    cases written : exchange.written with
    | none => rfl
    | some bytes =>
        rw [List.flatMap_append, List.flatMap_cons, Exchange.events, written] at silent
        exact absurd rfl (silent _ _ _ _ rfl oneWay bytes _)
  · induction exchanges with
    | nil =>
        intro _ before header bytes after same
        exact absurd same.symm (List.append_ne_nil_of_right_ne_nil _ (List.cons_ne_nil _ _))
    | cons exchange exchanges ih =>
        intro quiet before header bytes after same oneWay written rest followed
        have later := ih fun other member => quiet other (List.mem_cons_of_mem _ member)
        rw [List.flatMap_cons, Exchange.events, List.cons_append] at same
        cases before with
        | nil =>
            obtain ⟨first, behind⟩ := List.cons.inj same
            cases first
            rw [quiet exchange List.mem_cons_self oneWay] at behind
            exact flatMap_events_ne_wrote exchanges written rest (behind.trans followed)
        | cons event before =>
            have behind := (List.cons.inj same).2
            cases answer : exchange.written with
            | none =>
                rw [answer] at behind
                exact later before header bytes after behind oneWay written rest followed
            | some bytes' =>
                rw [answer] at behind
                cases before with
                | nil => cases (List.cons.inj behind).1
                | cons event' before =>
                    exact later before header bytes after (List.cons.inj behind).2 oneWay written
                      rest followed

namespace Codec

variable {ID : Type} [AgentxId ID] {codec : Codec ID}

/-- A frame that is no Response, and no CleanupSet of another session. -/
def Ordinary (opened header : Header) : Prop :=
  header.ty ≠ .response ∧ (header.ty = .cleanupSet → header.sessionId = opened.sessionId)

/-- A frame that is answered is not one-way just when it is ordinary. -/
theorem Responds.ordinary_iff {opened header : Header} {bytes : List UInt8}
    {tables : TableReader ID} {response : Response ID} {snmpError : Option UInt16} {ends : Pass}
    (responds : codec.Responds opened header bytes tables response snmpError ends) :
    ¬ OneWay header.ty ↔ Ordinary opened header := by
  have notCleanup := responds.notCleanup
  constructor
  · intro notOneWay
    exact ⟨fun response => notOneWay (.inr response),
      fun cleanup => absurd (.inl cleanup) notOneWay⟩
  · intro ordinary oneWay
    obtain ⟨notResponse, own⟩ := ordinary
    rcases oneWay with cleanup | response
    · exact notCleanup ⟨own cleanup, cleanup⟩
    · exact notResponse response

/-- An exchange is silent on a one-way frame just when its frame is ordinary. -/
theorem Continues.silent_iff {opened : Header} {exchange : Exchange}
    (continues : codec.Continues opened exchange) :
    (OneWay exchange.header.ty → exchange.written = none) ↔
      Ordinary opened exchange.header := by
  obtain ⟨header, bytes, written⟩ := exchange
  cases written with
  | none =>
      obtain ⟨own, cleanup, _⟩ := continues
      refine ⟨fun _ => ⟨fun response => ?_, fun _ => own⟩, fun _ _ => rfl⟩
      rw [cleanup] at response
      cases response
  | some written =>
      obtain ⟨tables, response, snmpError, responds, _⟩ := continues
      rw [← responds.ordinary_iff]
      simp

/-- The last exchange answers a one-way frame unless the frame is an ordinary one. -/
theorem Ends.silent_iff (encodes : codec.EncodesResponses) {opened : Header}
    {exchange : Exchange} {result : EStateM.Result Stop (Session ID) Unit}
    (ends : codec.Ends opened (some exchange) result) :
    (OneWay exchange.header.ty → exchange.written = none) ↔
      Ordinary opened exchange.header := by
  cases ends with
  | closed responds | unwritten responds =>
      rw [← responds.ordinary_iff]
      simp
  | refusedClose own close =>
      simp [Ordinary, close]
  | refusedCleanup own cleanup =>
      simp [Ordinary, cleanup, own]
  | unencoded _ unencoded =>
      obtain ⟨written, encoded⟩ := encodes.encodes _ _
      exact absurd encoded (unencoded written)

/-- **One-way frames.** A run leaves the frames unanswered that need no answer just when
each CleanupSet it receives is one of the session and it receives no Response. -/
theorem run_silent_iff (encodes : codec.EncodesResponses) {config : Config}
    {session middle : Session ID} {opened : Header}
    (registered : codec.handshake config session = .ok opened middle) :
    OneWaySilent (middle.stream.eventsSince (reached (codec.run config session)).stream) ↔
      ∀ header bytes, .received header bytes ∈
          middle.stream.eventsSince (reached (codec.run config session)).stream →
        header.ty ≠ .response ∧
          (header.ty = .cleanupSet → header.sessionId = opened.sessionId) := by
  have run_eq : codec.run config session = codec.serve opened middle := bind_ok registered
  obtain ⟨exchanges, last, serves⟩ := @serve_serves _ _ codec opened middle
  rw [run_eq, eventsSince_eq serves.events, oneWaySilent_iff]
  have each : ∀ exchange ∈ exchanges ++ last.toList,
      (OneWay exchange.header.ty → exchange.written = none) ↔
        Ordinary opened exchange.header := by
    intro exchange member
    rcases List.mem_append.mp member with before | final
    · exact (serves.continues exchange before).silent_iff
    · have ends := serves.ends
      rw [Option.mem_toList.mp final] at ends
      exact ends.silent_iff encodes
  constructor
  · intro silent header bytes received
    obtain ⟨exchange, member, rfl, rfl⟩ := mem_received_iff.mp received
    exact (each exchange member).mp (silent exchange member)
  · intro ordinary exchange member
    exact (each exchange member).mpr
      (ordinary _ _ (mem_received_iff.mpr ⟨exchange, member, rfl, rfl⟩))

/-- A CleanupSet of another session, and a Response. -/
def oneWayFrames : List Header :=
  [⟨1, .cleanupSet, networkOrder, 8, 1, 3, 0⟩, ⟨1, .response, networkOrder, 7, 2, 4, 0⟩]

/-- What a session makes of them: both are answered. -/
theorem run_answers_oneWay : ∃ opened middle,
    plain.handshake ⟨127⟩ (connection oneWayFrames) = .ok opened middle ∧
    ¬ OneWaySilent (middle.stream.eventsSince
      (reached (plain.run ⟨127⟩ (connection oneWayFrames))).stream) := by
  have registered : plain.handshake ⟨127⟩ (connection oneWayFrames) = .ok acknowledged
      (reached (plain.handshake ⟨127⟩ (connection oneWayFrames))) :=
    eq_ok_of_ended (by decide +kernel)
  refine ⟨_, _, registered, fun silent => ?_⟩
  have events : (reached (plain.handshake ⟨127⟩ (connection oneWayFrames))).stream.eventsSince
      (reached (plain.run ⟨127⟩ (connection oneWayFrames))).stream =
        oneWayFrames.flatMap fun header =>
          [.received header (Wire.encodeHeader header), .wrote (Wire.encodeResponse
            { plain.reply header with
              resError := if header.ty = .response then .requestDenied else .notOpen })] := by
    decide +kernel
  exact silent [] _ _ _ events (.inl rfl) _ _ rfl

/-- Both frames are answered, so the run is not silent. -/
theorem run_silent_iff_oneWay :
    ¬ OneWaySilent ((reached (plain.handshake ⟨127⟩ (connection oneWayFrames))).stream.eventsSince
      (reached (plain.run ⟨127⟩ (connection oneWayFrames))).stream) := by
  have registered : plain.handshake ⟨127⟩ (connection oneWayFrames) = .ok acknowledged
      (reached (plain.handshake ⟨127⟩ (connection oneWayFrames))) :=
    eq_ok_of_ended (by decide +kernel)
  rw [run_silent_iff plain_encodesResponses registered]
  intro ordinary
  have received : SessionEvent.received ⟨1, .response, networkOrder, 7, 2, 4, 0⟩
      (Wire.encodeHeader ⟨1, .response, networkOrder, 7, 2, 4, 0⟩) ∈
        (reached (plain.handshake ⟨127⟩ (connection oneWayFrames))).stream.eventsSince
          (reached (plain.run ⟨127⟩ (connection oneWayFrames))).stream := by decide +kernel
  exact (ordinary _ _ received).1 rfl

end Codec
end IfStack
