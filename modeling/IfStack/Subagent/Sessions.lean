import IfStack.Subagent.Reads

/-! # The sessions of a running process

While a session is served the monitor goes on publishing. Each session of the process
is still one run of `session::run` from start to end, with a reader whose cell changes
between its looks at it by the steps that the monitor took in between. What is known of
runs of `session::run` holds of the sessions of the process.
-/

namespace IfStack

open Foundation

section

variable {ID : Type} [AgentxId ID] {α β : Type}

/-- A result with another reader in its state. -/
def withTables (tables : TableReader ID) :
    EStateM.Result Stop (Session ID) α → EStateM.Result Stop (Session ID) α
  | .ok value after => .ok value { after with tables }
  | .error stop after => .error stop { after with tables }

/-- An action that neither looks at the reader nor changes it. -/
def Untabled (action : EStateM Stop (Session ID) α) : Prop :=
  ∀ (stream : UnixStream) (tables tables' : TableReader ID),
    action ⟨stream, tables⟩ = withTables tables (action ⟨stream, tables'⟩)

namespace Untabled

/-- Actions in turn do not look at the table where neither does. -/
theorem bind {action : EStateM Stop (Session ID) α} {next : α → EStateM Stop (Session ID) β}
    (first : Untabled action) (second : ∀ value, Untabled (next value)) :
    Untabled (action >>= next) := by
  intro stream tables tables'
  have same := first stream tables tables'
  cases ran : action ⟨stream, tables'⟩ with
  | ok value after =>
      rw [ran] at same
      rw [bind_ok same, bind_ok ran]
      exact second value after.stream tables after.tables
  | error stop after =>
      rw [ran] at same
      rw [bind_error same, bind_error ran]
      rfl

theorem pure (value : α) : Untabled (Pure.pure value : EStateM Stop (Session ID) α) :=
  fun _ _ _ => rfl

theorem throw (stop : Stop) : Untabled (MonadExcept.throw stop : EStateM Stop (Session ID) α) :=
  fun _ _ _ => rfl

/-- An action on the stream does not look at the table. -/
theorem onStream (action : EStateM Stop UnixStream α) :
    Untabled (IfStack.onStream action : EStateM Stop (Session ID) α) := by
  intro stream tables tables'
  unfold IfStack.onStream
  dsimp only
  cases action stream <;> rfl

theorem raise (result : Except Error α) :
    Untabled (IfStack.raise result : EStateM Stop (Session ID) α) := by
  cases result <;> exact fun _ _ _ => rfl

theorem slice (bytes : List UInt8) (first last : Nat) :
    Untabled (IfStack.slice bytes first last : EStateM Stop (Session ID) (List UInt8)) := by
  unfold IfStack.slice
  split
  · exact pure _
  · exact throw _

theorem patch (order : ByteOrder) (bytes : List UInt8) (snmpError : Option UInt16) :
    Untabled (IfStack.patch order bytes snmpError : EStateM Stop (Session ID) (List UInt8)) := by
  unfold IfStack.patch
  split
  · exact pure _
  · split
    · exact pure _
    · exact throw _

theorem send (encoded : Except Error (List UInt8)) :
    Untabled (Codec.send encoded : EStateM Stop (Session ID) Unit) :=
  (raise _).bind fun _ => onStream _

variable (codec : Codec ID)

theorem receiveFrame : Untabled codec.receiveFrame :=
  (onStream _).bind fun _ => (onStream _).bind fun _ => pure _

theorem answer (response : Response ID) (snmpError : Option UInt16) :
    Untabled (codec.answer response snmpError) :=
  (raise _).bind fun _ => (patch _ _ _).bind fun _ => onStream _

/-- Waiting for an acknowledgement does not look at the table. -/
theorem acknowledge (request : Header) : Untabled (codec.acknowledge request) := by
  apply (receiveFrame codec).bind
  intro frame
  dsimp only
  split
  · exact throw _
  · apply (slice _ _ _).bind
    intro block
    apply (raise _).bind
    intro error
    split
    · exact throw _
    · apply (slice _ _ _).bind
      intro index
      split
      · exact throw _
      · exact pure _

/-- The first part of `session::run` does not look at the cell. -/
theorem handshake (config : Config) : Untabled (codec.handshake config) := by
  apply bind
  · exact (onStream _).bind fun _ => (onStream _).bind fun _ => (onStream _).bind fun _ =>
      (send _).bind fun _ => acknowledge codec _
  · intro opened
    apply bind
    · exact (send _).bind fun _ => (acknowledge codec _).bind fun _ =>
        (onStream _).bind fun _ => onStream _
    · exact fun _ => pure _

end Untabled

/-- Where an action leads, on any reader, is where it leads on the cell alone. Either it
does not look at the reader, or it takes one snapshot of the cell. -/
def FollowsCell (stream : UnixStream) (cell : Publication ID)
    (action : EStateM Stop (Session ID) α) : Prop :=
  (∀ tables : TableReader ID,
    action ⟨stream, tables⟩ = withTables tables (action ⟨stream, ⟨cell, []⟩⟩)) ∨
  ∀ tables : TableReader ID, tables.published = cell →
    action ⟨stream, tables⟩ = withTables tables.snapshot.2 (action ⟨stream, ⟨cell, []⟩⟩)

/-- An action that does not look at the table follows any cell. -/
theorem Untabled.followsCell {action : EStateM Stop (Session ID) α} (untabled : Untabled action)
    (stream : UnixStream) (cell : Publication ID) : FollowsCell stream cell action :=
  .inl fun tables => untabled stream tables ⟨cell, []⟩

namespace Codec

variable (codec : Codec ID)

/-- What a frame is answered once it is dispatched. -/
def settle (header : Header) :
    Except Error (Response ID × Option UInt16) → EStateM Stop (Session ID) Pass
  | .ok (response, snmpError) => do
      codec.answer response snmpError
      return .next
  | .error _ => do
      codec.answer { codec.reply header with resError := .parseError } none
      return .next

/-- Nothing looks at the table behind the dispatch. -/
theorem untabled_settle (header : Header)
    (result : Except Error (Response ID × Option UInt16)) :
    Untabled (codec.settle header result) := by
  cases result <;> exact (Untabled.answer codec _ _).bind fun _ => .pure _

/-- The dispatch of a frame does not look at the cell, or takes one snapshot of it. -/
theorem dispatch_cases (header : Header) (bytes : List UInt8) :
    (∃ result, ∀ tables, codec.dispatch header bytes tables = (result, tables)) ∨
    ∃ result : Option (Mib ID) → Except Error (Response ID × Option UInt16),
      ∀ tables, codec.dispatch header bytes tables =
        (result tables.published.table, tables.snapshot.2) := by
  by_cases read : header.flags &&& nonDefaultContext = 0 ∧
      (header.ty = .get ∨ header.ty = .getNext ∨ header.ty = .getBulk)
  · simp only [dispatch_eq_dispatchRead read.1 read.2]
    unfold dispatchRead
    cases codec.readRequest header bytes with
    | error error => exact .inl ⟨_, fun _ => rfl⟩
    | ok request =>
        dsimp only
        cases codec.validateRanges request.1 with
        | error error => exact .inl ⟨_, fun _ => rfl⟩
        | ok _ => exact .inr ⟨fun table => .ok (codec.readAnswer header request.1 request.2 table,
            none), fun _ => rfl⟩
  · exact .inl ⟨_, fun tables => dispatch_other bytes (not_and_or.mp read) tables ⟨.initial, []⟩⟩

variable {codec}

/-- Handling a frame follows the cell: it is as if the table had been read at once. -/
theorem handle_followsCell (opened header : Header) (bytes : List UInt8) (stream : UnixStream)
    (cell : Publication ID) : FollowsCell stream cell (codec.handle opened header bytes) := by
  unfold handle
  split
  · apply Untabled.followsCell
    exact (Untabled.answer codec _ _).bind fun _ => .pure _
  split
  · apply Untabled.followsCell
    exact (Untabled.raise _).bind fun _ => (Untabled.answer codec _ _).bind fun _ => .pure _
  split
  · apply Untabled.followsCell
    split
    · exact .throw _
    · exact .pure _
  · change FollowsCell stream cell (codec.dispatchFrame header bytes >>= codec.settle header)
    rcases codec.dispatch_cases header bytes with ⟨result, unread⟩ | ⟨result, read⟩
    · refine .inl fun tables => ?_
      rw [bind_ok (dispatchFrame_ok (unread _)), bind_ok (dispatchFrame_ok (unread _))]
      exact codec.untabled_settle header result stream tables ⟨cell, []⟩
    · refine .inr fun tables same => ?_
      rw [bind_ok (dispatchFrame_ok (read _)), bind_ok (dispatchFrame_ok (read _)), same]
      exact codec.untabled_settle header (result cell.table) stream tables.snapshot.2 _

/-- A pass follows the cell. -/
theorem pass_followsCell (opened : Header) (stream : UnixStream) (cell : Publication ID) :
    FollowsCell stream cell (codec.pass opened) := by
  have alike (tables : TableReader ID) :=
    Untabled.receiveFrame codec stream tables ⟨cell, []⟩
  cases received : codec.receiveFrame ⟨stream, ⟨cell, []⟩⟩ with
  | error stop after =>
      refine .inl fun tables => ?_
      have received' := alike tables
      rw [received] at received'
      unfold pass
      rw [bind_error received, bind_error received']
      rfl
  | ok frame after =>
      obtain ⟨header, bytes⟩ := frame
      have passes (tables : TableReader ID) : codec.pass opened ⟨stream, tables⟩ =
          codec.handle opened header bytes ⟨after.stream, tables⟩ := by
        have received' := alike tables
        rw [received] at received'
        exact bind_ok received'
      unfold FollowsCell
      simp only [passes]
      exact handle_followsCell opened header bytes after.stream cell

end Codec

namespace History

/-- What a step of the monitor does to the published cell, given what came before it. -/
def publisherStep (older : List Entry) (entry : Entry) : List (PublisherStep ID) :=
  match publicationEffect older entry with
  | .write topology => [.publish (.fromTopology topology)]
  | .clear => [.unavailable]
  | .keep => []

/-- What the monitor has done to the published cell, oldest first. -/
def publisherSteps : List Entry → List (PublisherStep ID)
  | [] => []
  | entry :: older => publisherSteps older ++ publisherStep older entry

/-- The cell after a history. -/
def cell (history : List Entry) : Publication ID :=
  (publisherSteps history).foldl PublisherStep.apply .initial

/-- The cell of a history holds the table of its latest accepted topology. -/
theorem cell_table (history : List Entry) : (cell history : Publication ID).table =
    (Register.value publicationEffect history).map Mib.fromTopology := by
  induction history with
  | nil => rfl
  | cons entry older ih =>
      unfold cell at ih ⊢
      rw [publisherSteps, List.foldl_append, publisherStep, Register.value]
      cases publicationEffect older entry with
      | write topology => rfl
      | clear => rfl
      | keep => exact ih

end History
end

/-- The main loop stands where a session that has ended leads it. -/
def Phase.Concludes {ID : Type} [AgentxId ID] (phase : Phase)
    (result : EStateM.Result Stop (Session ID) Unit) : Prop :=
  match phase with
  | .ended _ => stopped result ≠ some .panicked
  | .exited => stopped result = some .panicked
  | _ => False

/-- A session that stops concludes by its error. -/
theorem Phase.concludes_ofStop {ID : Type} [AgentxId ID] (started : Nat) {stop : Stop}
    {after : Session ID} :
    (Phase.ofStop started stop).Concludes (.error stop after) := by
  cases stop with
  | failed error => exact fun panicked => nomatch panicked
  | panicked => rfl

namespace Subagent

/-- What had happened when the latest session began. -/
def before : List Event → List Event
  | [] => []
  | .connected _ _ :: older => older
  | _ :: older => before older

/-- What the latest session has shown. -/
def sessionEvents : List Event → List SessionEvent
  | [] => []
  | .connected _ shown :: _ => shown
  | .passed _ shown :: older => sessionEvents older ++ shown
  | _ :: older => sessionEvents older

variable {σ ID : Type} [AgentxId ID] [Acquisition σ] {codec : Codec ID} {config : FullConfig}
  {source : σ} {history : List Event} {subagent : Subagent σ ID}

/-- The monitor's cell is the one its history gives. -/
theorem Run.cell_eq (run : Run codec config source history subagent) :
    subagent.monitor.actor.publication = History.cell (entries history) := by
  have same := run.publication_eq
  rw [← History.cell_table] at same
  exact congrArg Publication.mk same

variable (codec config history)

/-- A session that begins after a history, as a sequential run. The publisher takes the
given steps before each of its looks at the cell. -/
def sequential (begun : List Event) (connection : Connection)
    (upcoming : List (List (PublisherStep ID))) : EStateM.Result Stop (Session ID) Unit :=
  codec.run config.toConfig ⟨connection.stream, ⟨History.cell (entries begun), upcoming⟩⟩

/-- The steps of the publisher since the session began: those before each of its looks at
the cell, and those since the last. -/
def Cut (upcoming : List (List (PublisherStep ID))) (pending : List (PublisherStep ID)) : Prop :=
  History.publisherSteps (entries history) =
    History.publisherSteps (entries (before history)) ++ upcoming.flatten ++ pending

/-- The cell at the last look. -/
def seen (upcoming : List (List (PublisherStep ID))) : Publication ID :=
  (History.publisherSteps (entries (before history)) ++ upcoming.flatten).foldl
    PublisherStep.apply .initial

/-- The latest session is a sequential run so far: one that goes on as the session does
whatever the publisher will do, or one that has ended as the session has. -/
inductive Sequential : Phase → Prop
  | connecting : Sequential .connecting
  | serving {started : Nat} {opened : Header} {stream : UnixStream} {connection : Connection}
      {upcoming : List (List (PublisherStep ID))} {pending : List (PublisherStep ID)}
      (cut : Cut history upcoming pending) (shown : stream.events = sessionEvents history)
      (same : ∀ later, sequential codec config (before history) connection (upcoming ++ later) =
        codec.serve opened ⟨stream, ⟨seen history upcoming, later⟩⟩) :
      Sequential (.serving started opened stream)
  | finished {phase : Phase} {connection : Connection} {upcoming : List (List (PublisherStep ID))}
      {pending : List (PublisherStep ID)} (cut : Cut history upcoming pending)
      (shown : (reached (sequential codec config (before history) connection
        upcoming)).stream.events = sessionEvents history)
      (concludes : phase.Concludes
        (sequential codec config (before history) connection upcoming)) :
      Sequential phase

variable {codec config history}

/-- A step of the monitor is one that is still to be seen. -/
theorem Cut.monitored {upcoming : List (List (PublisherStep ID))}
    {pending : List (PublisherStep ID)} (cut : Cut history upcoming pending) (entry : Entry) :
    Cut (.monitored entry :: history) upcoming
      (pending ++ History.publisherStep (entries history) entry) := by
  unfold Cut at cut ⊢
  change History.publisherSteps (entry :: entries history) = _
  rw [History.publisherSteps, cut, List.append_assoc]
  rfl

/-- What is pending makes the cell of the last look the cell of now. -/
theorem Cut.published {upcoming : List (List (PublisherStep ID))}
    {pending : List (PublisherStep ID)} (cut : Cut history upcoming pending)
    (later : List (List (PublisherStep ID))) :
    (⟨seen history upcoming, pending :: later⟩ : TableReader ID).published =
      History.cell (entries history) := by
  unfold Cut at cut
  rw [History.cell, cut, List.foldl_append]
  rfl

/-- A pass is one of the sequential run, which has looked at the cell once more or not. -/
theorem Cut.pass {upcoming : List (List (PublisherStep ID))}
    {pending : List (PublisherStep ID)} (cut : Cut history upcoming pending) (opened : Header)
    (stream : UnixStream) :
    ∃ upcoming' pending', Cut history upcoming' pending' ∧
      ∀ later, ∃ later', upcoming' ++ later = upcoming ++ later' ∧
        codec.pass opened ⟨stream, ⟨seen history upcoming, later'⟩⟩ =
          withTables ⟨seen history upcoming', later⟩
            (codec.pass opened ⟨stream, ⟨History.cell (entries history), []⟩⟩) := by
  rcases @Codec.pass_followsCell _ _ codec opened stream (History.cell (entries history)) with
    unread | read
  · exact ⟨upcoming, pending, cut, fun later => ⟨later, rfl, unread _⟩⟩
  · refine ⟨upcoming ++ [pending], [], ?_, fun later => ⟨pending :: later, ?_, ?_⟩⟩
    · unfold Cut at cut ⊢
      rw [cut]
      simp
    · rw [List.append_assoc, List.singleton_append]
    · rw [read _ (cut.published later), TableReader.snapshot, cut.published]
      have now : seen history (upcoming ++ [pending]) = History.cell (entries history) := by
        unfold Cut at cut
        rw [seen, History.cell, cut]
        simp
      rw [now]
      rfl

/-- Steps of the monitor leave a sequential session sequential. -/
theorem Sequential.monitored {phase : Phase} (sequential : Sequential codec config history phase)
    (entry : Entry) : Sequential codec config (.monitored entry :: history) phase := by
  cases sequential with
  | connecting => exact .connecting
  | serving cut shown same => exact .serving (cut.monitored entry) shown same
  | finished cut shown concludes => exact .finished (cut.monitored entry) shown concludes

omit [Acquisition σ] in
/-- A session that has just begun. -/
theorem sequential_connected (monitor : Monitor σ ID) (started : Nat) (connection : Connection) :
    Sequential codec config (.connected started
        (reached (handshake codec config monitor connection.stream)).stream.events :: history)
      (.afterHandshake started (handshake codec config monitor connection.stream)) := by
  have alike (later : List (List (PublisherStep ID))) :
      codec.handshake config.toConfig
          ⟨connection.stream, ⟨History.cell (entries history), later⟩⟩ =
        withTables ⟨History.cell (entries history), later⟩
          (handshake codec config monitor connection.stream) :=
    Untabled.handshake codec config.toConfig _ _ _
  have cut (shown : List SessionEvent) :
      @Cut ID _ (.connected started shown :: history) [] [] := by
    change _ = History.publisherSteps (entries history) ++ [] ++ []
    rw [List.append_nil, List.append_nil]
    rfl
  cases shaken : handshake codec config monitor connection.stream with
  | ok opened after =>
      refine @Sequential.serving _ _ codec config _ started opened after.stream connection [] []
        (cut _) rfl fun later => ?_
      have shaken' := alike later
      rw [shaken] at shaken'
      refine (bind_ok shaken').trans ?_
      change codec.serve opened ⟨after.stream, ⟨History.cell (entries history), later⟩⟩ =
        codec.serve opened ⟨after.stream, ⟨List.foldl _ _ (_ ++ []), later⟩⟩
      rw [List.append_nil]
      rfl
  | error stop after =>
      have shaken' := alike []
      rw [shaken] at shaken'
      have stops : sequential codec config history connection [] =
          .error stop { after with tables := ⟨_, []⟩ } := bind_error shaken'
      refine @Sequential.finished _ _ codec config _ _ connection [] [] (cut _) ?_ ?_
      · change (reached (sequential codec config history connection [])).stream.events = _
        rw [stops]
        rfl
      · change (Phase.ofStop started stop).Concludes
          (sequential codec config history connection [])
        rw [stops]
        exact Phase.concludes_ofStop started

/-- A session that ends with a pass. -/
theorem sequential_finished {opened : Header} {shown : List SessionEvent} {connection : Connection}
    {upcoming : List (List (PublisherStep ID))} {pending : List (PublisherStep ID)}
    (cut : Cut history upcoming pending) {result : EStateM.Result Stop (Session ID) Unit}
    (runs : sequential codec config (before history) connection upcoming = result)
    (events : (reached result).stream.events = sessionEvents history ++ shown) {phase : Phase}
    (concludes : phase.Concludes result) :
    Sequential codec config (.passed opened shown :: history) phase := by
  subst runs
  exact .finished cut events concludes

omit [Acquisition σ] in
/-- A session that goes on with a pass, or ends with it. -/
theorem sequential_passed {monitor : Monitor σ ID} {started : Nat} {opened : Header}
    {stream : UnixStream} (cell : monitor.actor.publication = History.cell (entries history))
    (sequential : Sequential codec config history (.serving started opened stream)) :
    Sequential codec config (.passed opened
        (stream.eventsSince (reached (pass codec monitor opened stream)).stream) :: history)
      (.afterPass started opened (pass codec monitor opened stream)) := by
  cases sequential with
  | finished _ _ concludes => exact concludes.elim
  | @serving _ _ _ connection _ _ cut shown same =>
      obtain ⟨upcoming', pending', cut', passes⟩ := @Cut.pass _ _ codec _ _ _ cut opened stream
      rw [← cell] at passes
      have goes (later : List (List (PublisherStep ID))) : ∃ tables,
          Subagent.sequential codec config (before history) connection (upcoming' ++ later) =
            codec.serve opened ⟨stream, tables⟩ ∧
          codec.pass opened ⟨stream, tables⟩ = withTables ⟨seen history upcoming', later⟩
            (pass codec monitor opened stream) := by
        obtain ⟨later', joined, passed⟩ := passes later
        exact ⟨_, joined ▸ same later', passed⟩
      have events := pass_events codec monitor opened stream
      rw [shown] at events
      cases passed : pass codec monitor opened stream with
      | error stop after =>
          obtain ⟨tables, runs, passed'⟩ := goes []
          rw [passed] at passed' events
          rw [List.append_nil, Codec.serve_error passed'] at runs
          exact sequential_finished cut' runs events (Phase.concludes_ofStop started)
      | ok ends after =>
          rw [passed] at goes events
          cases ends with
          | returned =>
              obtain ⟨tables, runs, passed'⟩ := goes []
              rw [List.append_nil, Codec.serve_returned passed'] at runs
              exact sequential_finished cut' runs events fun panicked => nomatch panicked
          | next =>
              refine @Sequential.serving _ _ _ _ _ _ _ _ connection _ _ cut' events fun later => ?_
              obtain ⟨tables, runs, passed'⟩ := goes later
              exact runs.trans (Codec.serve_next passed')

/-- **Sessions.** However the steps of the monitor fall between those of a session, the
session is a run of `session::run` on its own connection, with a reader whose cell takes the
steps of the monitor in their order. While it is served it goes on as the run does. When it
is over it has shown what the run shows, and the process is gone only if the run panics. -/
theorem Run.session_sequential (run : Run codec config source history subagent) :
    Sequential codec config history subagent.supervisor.phase := by
  refine run.invariant
    (fun history subagent => Sequential codec config history subagent.supervisor.phase)
    .connecting ?_
  intro history start event next earlier ih step
  have cell := earlier.cell_eq
  cases step with
  | monitored => exact ih.monitored _
  | slept => exact .connecting
  | connected => exact sequential_connected _ _ _
  | passed => exact sequential_passed cell ih

/-- A Close for a shutdown, in session 7. -/
def closing : List UInt8 :=
  Wire.encodeHeader ⟨1, .close, networkOrder, 7, 1, 5, 4⟩ ++ [5, 0, 0, 0]

/-- The table is published while a session is served: after a first request, before a second
and a Close. -/
def publishedMeanwhile : List Choice :=
  [.pass, .pass, .monitor, .monitor, .monitor, .monitor, .pass,
    .connect 0 (requesting (everythingBytes ++ everythingBytes ++ closing))]

/-- A session in a run whose monitor steps between its passes. -/
theorem Run.session_sequential_meanwhile :
    ∃ (history : List Event) (subagent : Subagent Script PlainId),
      Run .plain .default bondSource history subagent ∧
      Sequential .plain .default history subagent.supervisor.phase ∧
      (sessionEvents history).length = 11 := by
  obtain ⟨history, subagent, run, length⟩ := Run.of_shown Codec.plain .default bondSource
    publishedMeanwhile (fun history (_ : Subagent Script PlainId) =>
      (sessionEvents history).length = 11) (by decide +kernel)
  exact ⟨history, subagent, run, run.session_sequential, length⟩

end Subagent
end IfStack
