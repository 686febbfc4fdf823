import IfStack.Link.Validity
import IfStack.Session.Acceptance
import IfStack.Session.Protocol
import IfStack.Subagent.Process

/-! # What is read from a running process

At every point of every run, whatever the two threads did before, a read request is
answered from the table of the inventory that was the latest accepted one at this
point, and refused when there was none since the latest loss.
-/

namespace IfStack

open Foundation UnixStream

namespace Codec

variable {ID : Type} [AgentxId ID] {codec : Codec ID}

/-- What shows of a pass: no frame, or one frame, with what is written for it. -/
inductive Shows (codec : Codec ID) (opened : Header) (tables : TableReader ID) :
    List SessionEvent → Prop
  | nothing : Shows codec opened tables []
  | silent {header : Header} {bytes : List UInt8} : header.sessionId = opened.sessionId →
      header.ty = .close ∨ header.ty = .cleanupSet →
      Shows codec opened tables [.received header bytes]
  | unencoded {header : Header} {bytes : List UInt8} {response : Response ID}
      {snmpError : Option UInt16} {ends : Pass} :
      codec.Responds opened header bytes tables response snmpError ends →
      (∀ written, ¬ codec.Encodes response snmpError written) →
      Shows codec opened tables [.received header bytes]
  | answered {header : Header} {bytes written : List UInt8} {response : Response ID}
      {snmpError : Option UInt16} {ends : Pass} :
      codec.Responds opened header bytes tables response snmpError ends →
      codec.Encodes response snmpError written →
      Shows codec opened tables [.received header bytes, .wrote written]

/-- A frame that is handled shows, with what is written for it. -/
theorem Handled.shows {opened header : Header} {bytes : List UInt8} {session middle : Session ID}
    {result : EStateM.Result Stop (Session ID) Pass}
    (handled : codec.Handled opened header bytes middle result)
    (received : middle.stream.events = session.stream.events ++ [.received header bytes]) :
    ∃ shown, (reached result).stream.events = session.stream.events ++ shown ∧
      codec.Shows opened middle.tables shown := by
  cases handled with
  | answered responds encodes advances | unwritten responds encodes advances =>
      have shown := advances.events
      rw [received, List.append_assoc] at shown
      exact ⟨_, shown, .answered responds encodes⟩
  | unencoded responds unencoded same =>
      have shown := received
      rw [← same] at shown
      exact ⟨_, shown, .unencoded responds unencoded⟩
  | ignored own cleanup => exact ⟨_, received, .silent own (.inr cleanup)⟩
  | refusedClose own close => exact ⟨_, received, .silent own (.inl close)⟩
  | refusedCleanup own cleanup => exact ⟨_, received, .silent own (.inr cleanup)⟩

/-- A pass adds to what has shown. -/
theorem pass_shows (opened : Header) (session : Session ID) :
    ∃ shown, (reached (codec.pass opened session)).stream.events =
        session.stream.events ++ shown ∧
      codec.Shows opened session.tables shown := by
  rcases @pass_cases _ _ codec opened session with
    ⟨stop, after, lost, stopped⟩ | ⟨header, bytes, middle, received, handled⟩
  · obtain ⟨_, bytes, calls, advances, listens⟩ := receive_error codec (receiveFrame_error lost)
    have shown := advances.events
    rw [eventsOf_listens listens] at shown
    rw [stopped]
    exact ⟨[], shown, .nothing⟩
  · obtain ⟨_, same, _⟩ := receiveFrame_ok received
    rw [← same]
    exact handled.shows (receiveFrame_shows received).2.2

variable [LawfulAgentxId ID]

/-- The response to an accepted read request is made from the table. -/
theorem Accepted.responds (displays : codec.Displays) {opened header : Header}
    {bytes : List UInt8} {ranges : List (SearchRange ID)} {bulk : Option (UInt16 × UInt16)}
    (accepted : codec.Accepted header bytes ranges bulk)
    (own : header.sessionId = opened.sessionId) {tables : TableReader ID}
    {response : Response ID} {snmpError : Option UInt16} {ends : Pass}
    (responds : codec.Responds opened header bytes tables response snmpError ends) :
    response = codec.readAnswer header ranges bulk tables.published.table ∧ snmpError = none := by
  have reads := accepted.reads
  have dispatched := congrArg Prod.fst (accepted.dispatch_eq displays tables)
  cases responds with
  | foreign foreign => exact absurd own foreign
  | closed _ close => simp [close] at reads
  | unparsed _ _ _ failed => cases dispatched.symm.trans failed
  | dispatched _ _ _ given =>
      cases dispatched.symm.trans given
      exact ⟨rfl, rfl⟩

/-- An accepted read request of the session shows with the answer from the table. -/
theorem Accepted.shows (displays : codec.Displays) (encodes : codec.EncodesResponses)
    {opened header : Header} {bytes : List UInt8} {ranges : List (SearchRange ID)}
    {bulk : Option (UInt16 × UInt16)} (accepted : codec.Accepted header bytes ranges bulk)
    (own : header.sessionId = opened.sessionId) {tables : TableReader ID}
    {shown : List SessionEvent} (shows : codec.Shows opened tables shown)
    (received : .received header bytes ∈ shown) :
    ∃ written, shown = [.received header bytes, .wrote written] ∧
      codec.Encodes (codec.readAnswer header ranges bulk tables.published.table) none written := by
  have reads := accepted.reads
  cases shows with
  | nothing => exact absurd received List.not_mem_nil
  | silent _ ty =>
      cases List.mem_singleton.mp received
      rcases ty with ty | ty <;> simp [ty] at reads
  | unencoded responds unencoded =>
      cases List.mem_singleton.mp received
      obtain ⟨written, encoded⟩ := encodes.encodes _ _
      exact absurd encoded (unencoded written)
  | answered responds encoded =>
      have same := List.mem_cons.mp received
      rcases same with same | other
      · cases same
        obtain ⟨rfl, rfl⟩ := accepted.responds displays own responds
        exact ⟨_, rfl, encoded⟩
      · cases List.mem_singleton.mp other

end Codec

namespace Subagent

variable {σ ID : Type} [AgentxId ID] [Acquisition σ] {codec : Codec ID} {config : FullConfig}
  {source : σ} {history : List Event} {subagent : Subagent σ ID}

omit [Acquisition σ] in
/-- A pass adds to what has shown. -/
theorem pass_events (codec : Codec ID) (monitor : Monitor σ ID) (opened : Header)
    (stream : UnixStream) : (reached (pass codec monitor opened stream)).stream.events =
      stream.events ++ stream.eventsSince (reached (pass codec monitor opened stream)).stream := by
  obtain ⟨shown, adds, _⟩ := @Codec.pass_shows _ _ codec opened (session monitor stream)
  have adds' : (reached (pass codec monitor opened stream)).stream.events =
    stream.events ++ shown := adds
  rw [eventsSince_eq adds', adds']

/-- What shows of a pass in a run, and the cell that its look at the table would find. -/
theorem Run.passed {newer older : List Event} {opened : Header} {shown : List SessionEvent}
    (run : Run codec config source (newer ++ .passed opened shown :: older) subagent) :
    ∃ tables : TableReader ID, codec.Shows opened tables shown ∧ tables.published.table =
      (Register.value History.publicationEffect (entries older)).map Mib.fromTopology := by
  obtain ⟨before, _, earlier, step⟩ := run.stepAt
  have cell := earlier.publication_eq
  cases step with
  | @passed monitor _ _ _ stream =>
      obtain ⟨shown, adds, shows⟩ := @Codec.pass_shows _ _ codec opened (session monitor stream)
      rw [← eventsSince_eq adds] at shows
      exact ⟨_, shows, cell⟩

variable [LawfulAgentxId ID]

/-- An accepted read request is answered from the table that the register holds. -/
theorem Run.read_eq (displays : codec.Displays) (encodes : codec.EncodesResponses)
    {newer older : List Event} {opened header : Header} {shown : List SessionEvent}
    {bytes : List UInt8} {ranges : List (SearchRange ID)} {bulk : Option (UInt16 × UInt16)}
    (run : Run codec config source (newer ++ .passed opened shown :: older) subagent)
    (received : .received header bytes ∈ shown) (own : header.sessionId = opened.sessionId)
    (accepted : codec.Accepted header bytes ranges bulk) :
    ∃ written, shown = [.received header bytes, .wrote written] ∧
      codec.Encodes (codec.readAnswer header ranges bulk
        ((Register.value History.publicationEffect (entries older)).map Mib.fromTopology))
          none written := by
  obtain ⟨tables, shows, cell⟩ := run.passed
  rw [← cell]
  exact accepted.shows displays encodes own shows received

/-- The losses before a point of a history are among those of the whole. -/
theorem losses_older {newer older : List Event} {event : Event}
    (few : History.losses (entries (newer ++ event :: older)) < 2 ^ 64) :
    History.losses (entries older) < 2 ^ 64 := by
  rw [← List.singleton_append, ← List.append_assoc, entries_append] at few
  exact (History.losses_le_append _ _).trans_lt few

/-- **Reads.** Whatever the threads did before, a read request that is accepted gets one
response, made as a whole from the table of the inventory that is the latest accepted one
at this point. It is `ProcessingError` when none has been accepted since the latest loss. -/
theorem Run.reads_latest (displays : codec.Displays) (encodes : codec.EncodesResponses)
    {newer older : List Event} {opened header : Header} {shown : List SessionEvent}
    {bytes : List UInt8} {ranges : List (SearchRange ID)} {bulk : Option (UInt16 × UInt16)}
    (run : Run codec config source (newer ++ .passed opened shown :: older) subagent)
    (few : History.losses (entries (newer ++ .passed opened shown :: older)) < 2 ^ 64)
    (received : .received header bytes ∈ shown) (own : header.sessionId = opened.sessionId)
    (accepted : codec.Accepted header bytes ranges bulk) :
    ∃ response written, shown = [.received header bytes, .wrote written] ∧
      codec.Encodes response none written ∧
      (¬ History.AcceptedSinceLoss (entries older) ∧
          response = { codec.reply header with resError := .processingError } ∨
        ∃ topology, History.LatestAccepted (entries older) topology ∧
          response = { codec.reply header with
            vb := some (Codec.readBindings header (.fromTopology topology) ranges bulk) }) := by
  have fewer := losses_older few
  obtain ⟨written, answered, encoded⟩ := run.read_eq displays encodes received own accepted
  refine ⟨_, written, answered, encoded, ?_⟩
  cases value : Register.value History.publicationEffect (entries older) with
  | none =>
      refine .inl ⟨?_, rfl⟩
      rw [← History.isSome_iff_acceptedSinceLoss fewer, value]
      exact Bool.false_ne_true
  | some topology => exact .inr ⟨topology, History.latestAccepted_of_value fewer value, rfl⟩

/-- A source whose first inventory finds a bond without members. -/
def bondSource : Script where
  readings := []
  subscriptions := []
  inventories := [.ok ⟨⟨0⟩, [ObservedLink.bond], ⟨none, none⟩⟩]
  waits := []

/-- The bytes of a GetNext request for everything. -/
def everythingBytes : List UInt8 := Wire.encodeHeader Codec.everything ++ List.replicate 8 0

/-- A connection on which the master registers the table and then makes some requests. -/
def requesting (requests : List UInt8) : Connection where
  incoming := (connection []).stream.incoming ++ requests
  arrivals := []
  lags := []
  refusals := []
  now := 0

/-- The table is published before the first session, which serves one request. -/
def oneRequest : List Choice :=
  [.pass, .connect 0 (requesting everythingBytes), .monitor, .monitor, .monitor, .monitor]

/-- What is written for it: the first row, with nothing over the bond. -/
def firstRow : List UInt8 :=
  Wire.encodeResponse { Codec.plain.reply Codec.everything with
    vb := some [⟨⟨rowName (0, 9), 0⟩, .integer 1⟩] }

/-- What the request and its response show. -/
def firstRead : Event :=
  .passed acknowledged [.received Codec.everything everythingBytes, .wrote firstRow]

/-- The request is accepted. -/
theorem accepted_everything :
    Codec.plain.Accepted Codec.everything everythingBytes [⟨⟨[], 0⟩, ⟨[], 0⟩⟩] none where
  context := by decide
  reads := .inr (.inl rfl)
  decodes := ⟨rfl, rfl⟩
  short := by
    intro range member
    cases List.mem_singleton.mp member
    exact ⟨Nat.zero_le _, Nat.zero_le _⟩
  flags := by
    intro range member
    cases List.mem_singleton.mp member
    exact .inl rfl

/-- A request in a run over a bond reads the table that was accepted last. -/
theorem Run.reads_latest_bond : ∃ (older : List Event) (subagent : Subagent Script PlainId),
    Run .plain .default bondSource (firstRead :: older) subagent ∧
      ∃ topology, History.LatestAccepted (entries older) topology := by
  obtain ⟨history, subagent, run, first, kept⟩ := Run.of_shown Codec.plain .default bondSource
    oneRequest (fun history (_ : Subagent Script PlainId) => history.head? = some firstRead ∧
      History.losses (entries history) = 0) (by decide +kernel)
  obtain ⟨older, rfl⟩ := List.head?_eq_some_iff.mp first
  refine ⟨older, subagent, run, ?_⟩
  obtain ⟨response, written, shown, encoded, answered⟩ :=
    @Run.reads_latest _ _ _ _ _ _ _ _ _ Codec.plain_displays Codec.plain_encodesResponses [] _ _ _
      _ _ _ _ run (kept ▸ by decide) List.mem_cons_self rfl accepted_everything
  rcases answered with ⟨_, rfl⟩ | ⟨topology, latest, _⟩
  · have differ : firstRow ≠ Wire.encodeResponse
        { Codec.plain.reply Codec.everything with resError := .processingError } := by
      decide +kernel
    obtain ⟨_, same, rfl⟩ := encoded
    cases same
    exact absurd (SessionEvent.wrote.inj (List.cons.inj (List.cons.inj shown).2).1) differ
  · exact ⟨topology, latest⟩

end Subagent
end IfStack
