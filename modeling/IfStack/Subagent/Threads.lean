import IfStack.Subagent.Sessions
import IfStack.Subagent.Survival

/-! # The threads in the middle of their steps

The process once more, with the threads interleaved inside of their steps. The monitor
computes a step and then takes it. A session is opened and registered; it receives a
frame, looks at the cell, and answers from the table it holds then. The other thread may
move in between. Each step still takes effect at one point, so this refines the process
with its steps in one piece.
-/

namespace IfStack

open Foundation UnixStream

/-- A frame that a session has received and not handled. -/
structure Taken where
  started : Nat
  opened : Header
  /-- The stream before the frame was received. -/
  before : UnixStream
  header : Header
  bytes : List UInt8
  stream : UnixStream

/-- Where the main thread stands. -/
inductive Stage (ID : Type) [AgentxId ID]
  /-- Between two steps. -/
  | resting (phase : Phase)
  /-- In the first part of `session::run`. -/
  | shaking (started : Nat) (connection : Connection)
  /-- In a pass, before the look at the cell. -/
  | taken (taken : Taken)
  /-- In a pass, with the table that was found there. -/
  | holding (taken : Taken) (table : Option (Mib ID))

/-- What a thread did. -/
inductive Moment
  /-- The monitor computed a step. -/
  | computed
  /-- The main thread began a session. -/
  | shaking
  | took (header : Header) (bytes : List UInt8)
  | looked
  | answered (opened : Header) (shown : List SessionEvent)
  /-- A step other than a pass was completed, or a pass that received no frame. -/
  | did (event : Event)
deriving DecidableEq

/-- The two threads, with the step that the monitor has computed. -/
structure Threads (σ ID : Type) [AgentxId ID] where
  monitor : Monitor σ ID
  computed : Option (Entry × Monitor σ ID)
  stage : Stage ID
  backoff : Duration

namespace Taken

variable {ID : Type} [AgentxId ID]

/-- The frame is handled with the table that the session holds. -/
def answer (codec : Codec ID) (taken : Taken) (table : Option (Mib ID)) :
    EStateM.Result Stop (Session ID) Pass :=
  codec.handle taken.opened taken.header taken.bytes ⟨taken.stream, ⟨⟨table⟩, []⟩⟩

/-- The frame was received from the stream before. -/
def Received (codec : Codec ID) (taken : Taken) : Prop :=
  ∀ tables : TableReader ID, codec.receiveFrame ⟨taken.before, tables⟩ =
    .ok (taken.header, taken.bytes) ⟨taken.stream, tables⟩

/-- What shows of the pass. -/
def shown (codec : Codec ID) (taken : Taken) (table : Option (Mib ID)) : List SessionEvent :=
  taken.before.eventsSince (reached (taken.answer codec table)).stream

end Taken

namespace Threads

variable {σ ID : Type} [AgentxId ID] [Acquisition σ] (codec : Codec ID) (config : FullConfig)

/-- A step of one of the threads. A choice of `pass` takes the main thread one piece
further. -/
def step : Choice → Threads σ ID → Option (Moment × Threads σ ID)
  | .monitor, ⟨_, _, .resting .exited, _⟩ => none
  | .monitor, ⟨monitor, none, stage, backoff⟩ =>
      monitor.step.map fun turn => (.computed, ⟨monitor, some turn, stage, backoff⟩)
  | .monitor, ⟨_, some (entry, next), stage, backoff⟩ =>
      some (.did (.monitored entry), ⟨next, none, stage, backoff⟩)
  | .connect started connection, ⟨monitor, turn, .resting .connecting, backoff⟩ =>
      some (.shaking, ⟨monitor, turn, .shaking started connection, backoff⟩)
  | .pass, ⟨monitor, turn, .shaking started connection, backoff⟩ =>
      let result := Subagent.handshake codec config monitor connection.stream
      some (.did (.connected started (reached result).stream.events),
        ⟨monitor, turn, .resting (.afterHandshake started result), backoff⟩)
  | .pass, ⟨monitor, turn, .resting (.serving started opened stream), backoff⟩ =>
      match codec.receiveFrame (Subagent.session monitor stream) with
      | .ok (header, bytes) after =>
          some (.took header bytes, ⟨monitor, turn,
            .taken ⟨started, opened, stream, header, bytes, after.stream⟩, backoff⟩)
      | .error stop after =>
          some (.did (.passed opened (stream.eventsSince after.stream)),
            ⟨monitor, turn, .resting (.ofStop started stop), backoff⟩)
  | .pass, ⟨monitor, turn, .taken taken, backoff⟩ =>
      some (.looked,
        ⟨monitor, turn, .holding taken monitor.actor.publication.snapshot, backoff⟩)
  | .pass, ⟨monitor, turn, .holding taken table, backoff⟩ =>
      some (.answered taken.opened (taken.shown codec table), ⟨monitor, turn,
        .resting (.afterPass taken.started taken.opened (taken.answer codec table)), backoff⟩)
  | .sleep finished, ⟨monitor, turn, .resting (.ended started), backoff⟩ =>
      let delay := reconnectDelay backoff (durationSince finished started)
      some (.did (.slept started finished delay),
        ⟨monitor, turn, .resting .connecting, nextReconnectDelay delay⟩)
  | _, _ => none

/-- The threads at their start. -/
def initial (source : σ) : Threads σ ID where
  monitor := ⟨source, .initial (.fromSecs config.reconcile)⟩
  computed := none
  stage := .resting .connecting
  backoff := .fromSecs 1

/-- The runs of the threads, with what they did, newest first. -/
def Run (source : σ) : List Moment → Threads σ ID → Prop :=
  Trace (· = initial config source) fun before moment next =>
    ∃ choice, step codec config choice before = some (moment, next)

/-- The steps by what was done. -/
inductive Step : Threads σ ID → Moment → Threads σ ID → Prop
  | computed {monitor : Monitor σ ID} {turn : Entry × Monitor σ ID} {stage : Stage ID}
      {backoff : Duration} (moved : monitor.step = some turn) :
      Step ⟨monitor, none, stage, backoff⟩ .computed ⟨monitor, some turn, stage, backoff⟩
  | monitored {monitor next : Monitor σ ID} {entry : Entry} {stage : Stage ID}
      {backoff : Duration} (alive : stage ≠ .resting .exited) :
      Step ⟨monitor, some (entry, next), stage, backoff⟩ (.did (.monitored entry))
        ⟨next, none, stage, backoff⟩
  | shaking {monitor : Monitor σ ID} {turn : Option (Entry × Monitor σ ID)}
      {backoff : Duration} {started : Nat} {connection : Connection} :
      Step ⟨monitor, turn, .resting .connecting, backoff⟩ .shaking
        ⟨monitor, turn, .shaking started connection, backoff⟩
  | connected {monitor : Monitor σ ID} {turn : Option (Entry × Monitor σ ID)}
      {backoff : Duration} {started : Nat} {connection : Connection} :
      Step ⟨monitor, turn, .shaking started connection, backoff⟩
        (.did (.connected started (reached (Subagent.handshake codec config monitor
          connection.stream)).stream.events))
        ⟨monitor, turn, .resting (.afterHandshake started
          (Subagent.handshake codec config monitor connection.stream)), backoff⟩
  | took {monitor : Monitor σ ID} {turn : Option (Entry × Monitor σ ID)} {backoff : Duration}
      {started : Nat} {opened header : Header} {stream : UnixStream} {bytes : List UInt8}
      {after : Session ID}
      (received : codec.receiveFrame (Subagent.session monitor stream) =
        .ok (header, bytes) after) :
      Step ⟨monitor, turn, .resting (.serving started opened stream), backoff⟩
        (.took header bytes) ⟨monitor, turn,
          .taken ⟨started, opened, stream, header, bytes, after.stream⟩, backoff⟩
  | missed {monitor : Monitor σ ID} {turn : Option (Entry × Monitor σ ID)}
      {backoff : Duration} {started : Nat} {opened : Header} {stream : UnixStream}
      {stop : Stop} {after : Session ID}
      (received : codec.receiveFrame (Subagent.session monitor stream) = .error stop after) :
      Step ⟨monitor, turn, .resting (.serving started opened stream), backoff⟩
        (.did (.passed opened (stream.eventsSince after.stream)))
        ⟨monitor, turn, .resting (.ofStop started stop), backoff⟩
  | looked {monitor : Monitor σ ID} {turn : Option (Entry × Monitor σ ID)}
      {backoff : Duration} {taken : Taken} :
      Step ⟨monitor, turn, .taken taken, backoff⟩ .looked
        ⟨monitor, turn, .holding taken monitor.actor.publication.snapshot, backoff⟩
  | answered {monitor : Monitor σ ID} {turn : Option (Entry × Monitor σ ID)}
      {backoff : Duration} {taken : Taken} {table : Option (Mib ID)} :
      Step ⟨monitor, turn, .holding taken table, backoff⟩
        (.answered taken.opened (taken.shown codec table)) ⟨monitor, turn,
          .resting (.afterPass taken.started taken.opened (taken.answer codec table)), backoff⟩
  | slept {monitor : Monitor σ ID} {turn : Option (Entry × Monitor σ ID)}
      {backoff : Duration} {started finished : Nat} :
      Step ⟨monitor, turn, .resting (.ended started), backoff⟩
        (.did (.slept started finished (reconnectDelay backoff (durationSince finished started))))
        ⟨monitor, turn, .resting .connecting, nextReconnectDelay
          (reconnectDelay backoff (durationSince finished started))⟩

variable {codec config}

/-- A step of the threads is one of the monitor, or moves the session from one point to the
next. -/
theorem step_cases {choice : Choice} {before next : Threads σ ID} {moment : Moment}
    (moved : step codec config choice before = some (moment, next)) :
    Step codec config before moment next := by
  unfold step at moved
  split at moved
  · cases moved
  · obtain ⟨turn, taken, same⟩ := Option.map_eq_some_iff.mp moved
    cases same
    exact .computed taken
  · rename_i alive
    cases moved
    exact .monitored alive
  · cases moved
    exact .shaking
  · cases moved
    exact .connected
  · split at moved <;> rename_i received <;> cases moved
    · exact .took received
    · exact .missed received
  · cases moved
    exact .looked
  · cases moved
    exact .answered
  · cases moved
    exact .slept
  · cases moved

end Threads

/-- A moment of the monitor alone. -/
def Moment.Monitors : Moment → Prop
  | .computed | .did (.monitored _) => True
  | _ => False

/-- The monitor's part of a moment. -/
def Moment.entry? : Moment → Option Entry
  | .did event => event.entry?
  | _ => none

namespace Threads

/-- What the monitor has done. -/
def entries (moments : List Moment) : List Entry := moments.filterMap Moment.entry?

/-- Nothing but the monitor has moved since the earlier moments. -/
def Undisturbed (moments earlier : List Moment) : Prop :=
  ∃ later, moments = later ++ earlier ∧ ∀ moment ∈ later, moment.Monitors

/-- Nothing has come between. -/
theorem Undisturbed.refl (moments : List Moment) : Undisturbed moments moments :=
  ⟨[], rfl, nofun⟩

/-- A step of the monitor does not disturb the session. -/
theorem Undisturbed.cons {moment : Moment} {moments earlier : List Moment}
    (undisturbed : Undisturbed moments earlier) (monitors : moment.Monitors) :
    Undisturbed (moment :: moments) earlier := by
  obtain ⟨later, rfl, each⟩ := undisturbed
  exact ⟨moment :: later, rfl, List.forall_mem_cons.mpr ⟨monitors, each⟩⟩

/-- The history of the process with each pass put where it looked at the cell. A pass that
has looked, and not yet answered, is given. -/
def placed : Option Event → List Moment → List Event
  | _, [] => []
  | pending, .did event :: older => event :: placed pending older
  | pending, .looked :: older => pending.toList ++ placed none older
  | _, .answered opened shown :: older => placed (some (.passed opened shown)) older
  | pending, .computed :: older => placed pending older
  | pending, .shaking :: older => placed pending older
  | pending, .took _ _ :: older => placed pending older

variable {σ ID : Type} [AgentxId ID] [Acquisition σ] (codec : Codec ID)

/-- Where the main thread stands with the pass that has looked at the cell completed, and
any other step that it has begun not yet taken. -/
def settledPhase : Stage ID → Phase
  | .resting phase => phase
  | .shaking _ _ => .connecting
  | .taken taken => .serving taken.started taken.opened taken.before
  | .holding taken table => .afterPass taken.started taken.opened (taken.answer codec table)

/-- The pass that has looked at the cell. -/
def pending : Stage ID → Option Event
  | .holding taken table => some (.passed taken.opened (taken.shown codec table))
  | _ => none

/-- The process as it is with these steps in one piece. -/
def settled (threads : Threads σ ID) : Subagent σ ID where
  monitor := threads.monitor
  supervisor := ⟨settledPhase codec threads.stage, threads.backoff⟩

/-- What a thread holds is what it got. -/
structure Sound (threads : Threads σ ID) : Prop where
  computed : ∀ turn, threads.computed = some turn → threads.monitor.step = some turn
  taken : ∀ taken, threads.stage = .taken taken → taken.Received codec
  holding : ∀ taken table, threads.stage = .holding taken table → taken.Received codec

variable {codec} {config : FullConfig} {source : σ} {moments : List Moment}
  {threads : Threads σ ID}

/-- A session that rests is sound. -/
theorem sound_resting {monitor : Monitor σ ID} {phase : Phase} {backoff : Duration} :
    Sound codec ⟨monitor, none, .resting phase, backoff⟩ where
  computed := by
    intro turn same
    cases same
  taken := by
    intro taken same
    cases same
  holding := by
    intro taken table same
    cases same

/-- Every step keeps the threads sound. -/
theorem Run.sound (run : Run codec config source moments threads) : threads.Sound codec := by
  refine Trace.invariant (fun _ threads => threads.Sound codec) ?_ ?_ run
  · rintro _ rfl
    exact sound_resting
  · rintro _ before moment next _ sound ⟨choice, moved⟩
    cases step_cases moved with
    | computed turned =>
        exact ⟨fun turn same => Option.some.inj same ▸ turned, sound.taken, sound.holding⟩
    | monitored =>
        refine ⟨fun turn same => ?_, sound.taken, sound.holding⟩
        cases same
    | shaking | connected | missed | answered | slept =>
        refine ⟨sound.computed, fun taken same => ?_, fun taken table same => ?_⟩ <;> cases same
    | @took monitor _ _ _ _ _ stream _ after received =>
        refine ⟨sound.computed, fun taken same tables => ?_, fun taken table same => ?_⟩
        · cases same
          have alike := Untabled.receiveFrame codec stream tables ⟨monitor.actor.publication, []⟩
          rw [show codec.receiveFrame ⟨stream, ⟨monitor.actor.publication, []⟩⟩ = _ from received]
            at alike
          exact alike
        · cases same
    | looked =>
        refine ⟨sound.computed, fun taken same => ?_, fun taken table same => ?_⟩
        · cases same
        · cases same
          exact sound.taken _ rfl

/-- A pass in one piece handles the frame that is received in it. -/
theorem pass_eq {taken : Taken} (received : taken.Received codec) (table : Option (Mib ID)) :
    codec.pass taken.opened ⟨taken.before, ⟨⟨table⟩, []⟩⟩ = taken.answer codec table :=
  bind_ok (received _)

/-- No frame makes the process exit. -/
theorem Sound.settledPhase_ne_exited (sound : threads.Sound codec)
    (encodes : codec.EncodesResponses) (alive : threads.stage ≠ .resting .exited) :
    settledPhase codec threads.stage ≠ .exited := by
  obtain ⟨monitor, turn, stage, backoff⟩ := threads
  cases stage with
  | resting phase => exact fun exited => alive (congrArg Stage.resting exited)
  | shaking | taken => exact nofun
  | holding taken table =>
      have received := sound.holding taken table rfl
      change Phase.afterPass _ _ (taken.answer codec table) ≠ .exited
      rw [← pass_eq received table]
      exact Phase.afterPass_ne_exited encodes _ _ _

/-- **Atomicity.** However the threads are interleaved inside of their steps, what they do is
a run of the process with its steps in one piece: each step of the monitor where it takes
effect, each pass where it looks at the cell, and every other step where it is completed. -/
theorem Run.atomic (encodes : codec.EncodesResponses)
    (run : Run codec config source moments threads) :
    Subagent.Run codec config source (placed (pending codec threads.stage) moments)
      (threads.settled codec) := by
  refine Trace.refines (settled codec)
    (fun threads moments => placed (pending codec threads.stage) moments) ?_ ?_ run
  · rintro _ rfl
    exact ⟨rfl, rfl⟩
  · rintro moments before moment next earlier ⟨choice, moved⟩
    have sound := Run.sound earlier
    cases step_cases moved with
    | computed | shaking | took | answered => exact .inl ⟨rfl, rfl⟩
    | monitored alive =>
        refine .inr ⟨_, ⟨.monitor, ?_⟩, rfl⟩
        exact Subagent.step_monitor (sound.settledPhase_ne_exited encodes alive)
          (sound.computed _ rfl)
    | @connected _ _ _ started connection => exact .inr ⟨_, ⟨.connect started connection, rfl⟩, rfl⟩
    | missed received => exact .inr ⟨_, ⟨.pass, Subagent.step_pass (bind_error received)⟩, rfl⟩
    | @looked _ _ _ taken =>
        exact .inr ⟨_, ⟨.pass, Subagent.step_pass (pass_eq (sound.taken taken rfl) _)⟩, rfl⟩
    | @slept _ _ _ _ finished => exact .inr ⟨_, ⟨.sleep finished, rfl⟩, rfl⟩

/-- The monitor's steps take effect in the order of the moments. -/
theorem entries_placed {awaited : Option Event} (silent : awaited.bind Event.entry? = none)
    (moments : List Moment) : Subagent.entries (placed awaited moments) = entries moments := by
  unfold Subagent.entries entries
  induction moments generalizing awaited with
  | nil => rfl
  | cons moment older ih =>
      cases moment with
      | computed | shaking | took => exact ih silent
      | answered opened shown => exact ih rfl
      | looked =>
          -- the awaited pass takes its place here, and is no step of the monitor
          cases awaited with
          | none => exact ih rfl
          | some event =>
              have unseen : event.entry? = none := silent
              rw [placed, Option.toList_some, List.singleton_append,
                List.filterMap_cons_none unseen]
              exact @ih none rfl
      | did event =>
          rw [placed, List.filterMap_cons, List.filterMap_cons, ih silent]
          rfl

/-- What is pending is no entry of the monitor. -/
theorem pending_silent (stage : Stage ID) : (pending codec stage).bind Event.entry? = none := by
  cases stage <;> rfl

/-- Whatever the main thread is in the middle of, the monitor runs as it does alone. -/
theorem Run.monitor (encodes : codec.EncodesResponses)
    (run : Run codec config source moments threads) :
    IfStack.Run source (.fromSecs config.reconcile) (entries moments) threads.monitor := by
  have alone := (run.atomic encodes).monitor
  rw [entries_placed (pending_silent threads.stage)] at alone
  exact alone

/-- What is placed while a pass holds the table comes after it. -/
theorem placed_undisturbed {awaited : Option Event} {earlier : List Moment}
    (undisturbed : Undisturbed moments earlier) :
    ∃ newer, placed awaited moments = newer ++ placed awaited earlier := by
  obtain ⟨later, rfl, monitors⟩ := undisturbed
  induction later with
  | nil => exact ⟨[], rfl⟩
  | cons moment later ih =>
      obtain ⟨newer, same⟩ := ih fun other member => monitors other (List.mem_cons_of_mem _ member)
      have here := monitors moment List.mem_cons_self
      cases moment with
      | computed => exact ⟨newer, same⟩
      | did event => exact ⟨event :: newer, congrArg (event :: ·) same⟩
      | shaking | took | looked | answered => exact here.elim

/-- What the moments tell of the pass that the main thread is in the middle of: its frame was
taken, then the cell was looked at, and nothing but the monitor has moved in between and
since. -/
def Traced (moments : List Moment) : Stage ID → Prop
  | .taken taken => ∃ older, Undisturbed moments (.took taken.header taken.bytes :: older)
  | .holding taken _ => ∃ looking older, Undisturbed moments (.looked :: looking) ∧
      Undisturbed looking (.took taken.header taken.bytes :: older)
  | _ => True

/-- A step of the monitor leaves a session traced. -/
theorem Traced.cons {stage : Stage ID} {moment : Moment} (traced : Traced moments stage)
    (monitors : moment.Monitors) : Traced (moment :: moments) stage := by
  cases stage with
  | resting | shaking => trivial
  | taken =>
      obtain ⟨older, took⟩ := traced
      exact ⟨older, took.cons monitors⟩
  | holding =>
      obtain ⟨looking, older, looked, took⟩ := traced
      exact ⟨looking, older, looked.cons monitors, took⟩

/-- In every run the session is traced to the points it has passed. -/
theorem Run.traced (run : Run codec config source moments threads) :
    Traced moments threads.stage := by
  refine Trace.invariant (fun moments threads => Traced moments threads.stage) ?_ ?_ run
  · rintro _ rfl
    trivial
  · rintro moments before moment next _ traced ⟨choice, moved⟩
    cases step_cases moved with
    | computed | monitored => exact traced.cons trivial
    | shaking | connected | missed | answered | slept => trivial
    | took => exact ⟨moments, .refl _⟩
    | looked =>
        obtain ⟨older, took⟩ := traced
        exact ⟨moments, older, .refl _, took⟩

/-- What is answered shows with its frame. -/
theorem received_mem_shown {taken : Taken} (received : taken.Received codec)
    (table : Option (Mib ID)) :
    .received taken.header taken.bytes ∈ taken.shown codec table := by
  have adds := (Codec.receiveFrame_shows (received ⟨⟨table⟩, []⟩)).2.2
  obtain ⟨shown, answers⟩ : ∃ shown, (reached (taken.answer codec table)).stream.events =
      taken.stream.events ++ shown := (Codec.handle_handled _ _ _ _).adds
  have shows : (reached (taken.answer codec table)).stream.events = taken.before.events ++
      (.received taken.header taken.bytes :: shown) := by
    rw [answers, adds, List.append_assoc]
    rfl
  rw [Taken.shown, UnixStream.eventsSince_eq shows]
  exact List.mem_cons_self

/-- A pass that has looked at the cell is one that the process in one piece took at the look. -/
theorem Run.looked (encodes : codec.EncodesResponses) {taken : Taken} {table : Option (Mib ID)}
    (run : Run codec config source moments threads)
    (holding : threads.stage = .holding taken table) :
    ∃ looking older later, Undisturbed moments (.looked :: looking) ∧
      Undisturbed looking (.took taken.header taken.bytes :: older) ∧
      Subagent.Run codec config source
        (later ++ .passed taken.opened (taken.shown codec table) :: placed none looking)
        (threads.settled codec) ∧
      Subagent.entries (later ++ .passed taken.opened (taken.shown codec table) ::
        placed none looking) = entries moments := by
  have atomic := Run.atomic encodes run
  have traced := Run.traced run
  rw [holding] at atomic traced
  obtain ⟨looking, older, looked, took⟩ := traced
  obtain ⟨later, split⟩ : ∃ later, placed (pending codec (.holding taken table)) moments =
      later ++ .passed taken.opened (taken.shown codec table) :: placed none looking :=
    placed_undisturbed looked
  have same := entries_placed (@pending_silent _ _ codec (.holding taken table)) moments
  rw [split] at atomic same
  exact ⟨looking, older, later, looked, took, atomic, same⟩

/-- **Reads.** However the threads overlap inside of their steps, a frame is answered after the
session has looked at the cell, and that after the frame was taken, with nothing but the
monitor moving meanwhile. An accepted read request gets one response, made as a whole from
the table of the inventory that was the latest accepted one at the look. -/
theorem Run.reads_looked [LawfulAgentxId ID] (displays : codec.Displays)
    (encodes : codec.EncodesResponses) {newer older : List Moment} {opened : Header}
    {shown : List SessionEvent}
    (run : Run codec config source (newer ++ .answered opened shown :: older) threads)
    (few : History.losses (entries older) < 2 ^ 64) :
    ∃ header bytes looking taking, Undisturbed older (.looked :: looking) ∧
      Undisturbed looking (.took header bytes :: taking) ∧
      ∀ ranges bulk, header.sessionId = opened.sessionId →
        codec.Accepted header bytes ranges bulk →
        ∃ response written, shown = [.received header bytes, .wrote written] ∧
          codec.Encodes response none written ∧
          (¬ History.AcceptedSinceLoss (entries looking) ∧
              response = { codec.reply header with resError := .processingError } ∨
            ∃ topology, History.LatestAccepted (entries looking) topology ∧
              response = { codec.reply header with
                vb := some (Codec.readBindings header (.fromTopology topology) ranges bulk) }) := by
  obtain ⟨next, whole⟩ := Trace.older run
  obtain ⟨before, earlier, _, moved⟩ := Trace.last whole
  cases step_cases moved with
  | @answered monitor turn backoff taken table =>
      obtain ⟨looking, taking, later, looked, took, atomic, same⟩ := Run.looked encodes earlier rfl
      refine ⟨taken.header, taken.bytes, looking, taking, looked, took, ?_⟩
      intro ranges bulk own accepted
      have received := (Run.sound earlier).holding taken table rfl
      rw [← same] at few
      have reads := atomic.reads_latest displays encodes few (received_mem_shown received table)
        own accepted
      rw [entries_placed rfl] at reads
      exact reads

end Threads
end IfStack
