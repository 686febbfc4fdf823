import IfStack.Config.Load
import IfStack.Monitor.Publication
import IfStack.Session.Exchange

/-! # The process

`main` of `main.rs`: the monitor runs on a thread of its own, and the main thread
connects to the master again and again, for a session each time. The two share the
published cell and nothing else. What a session does between two looks at the cell
touches nothing shared, so it is one step here, and the steps of the two threads come
in any order.
-/

namespace IfStack

open Foundation

/-- The delay before the next session, by how long the last one ran. -/
def reconnectDelay (backoff elapsed : Duration) : Duration :=
  if .fromSecs 30 ≤ elapsed then .fromSecs 1 else backoff

/-- The delay after a delay. The doubling cannot overflow on delays of at most 30 s. -/
def nextReconnectDelay (backoff : Duration) : Duration :=
  min (backoff.saturatingAdd backoff) (.fromSecs 30)

/-- Where the main loop stands. Instants are in nanoseconds. -/
inductive Phase
  /-- At the top of the loop. -/
  | connecting
  /-- In the loop of `session::run`. -/
  | serving (started : Nat) (opened : Header) (stream : UnixStream)
  /-- After `session::run`. -/
  | ended (started : Nat)
  /-- After a panic of the main thread, which takes the process down. -/
  | exited

/-- The main loop's own variables. -/
structure Supervisor where
  phase : Phase
  backoff : Duration

/-- The main loop at its start. -/
def Supervisor.initial : Supervisor where
  phase := .connecting
  backoff := .fromSecs 1

namespace Phase

/-- A session that stops before it is closed. -/
def ofStop (started : Nat) : Stop → Phase
  | .failed _ => .ended started
  | .panicked => .exited

variable {ID : Type} [AgentxId ID]

/-- The first part of `session::run` leads into its loop, or stops. -/
def afterHandshake (started : Nat) : EStateM.Result Stop (Session ID) Header → Phase
  | .ok opened after => .serving started opened after.stream
  | .error stop _ => .ofStop started stop

/-- A pass of the loop leads to the next, returns or stops. -/
def afterPass (started : Nat) (opened : Header) : EStateM.Result Stop (Session ID) Pass → Phase
  | .ok .next after => .serving started opened after.stream
  | .ok .returned _ => .ended started
  | .error stop _ => .ofStop started stop

/-- A handshake is not followed by a connection in the same step. -/
theorem afterHandshake_ne_connecting (started : Nat)
    (result : EStateM.Result Stop (Session ID) Header) :
    afterHandshake started result ≠ .connecting := by
  cases result with
  | ok => exact nofun
  | error stop => cases stop <;> exact nofun

/-- A pass is not followed by a connection in the same step. -/
theorem afterPass_ne_connecting (started : Nat) (opened : Header)
    (result : EStateM.Result Stop (Session ID) Pass) :
    afterPass started opened result ≠ .connecting := by
  cases result with
  | ok ends => cases ends <;> exact nofun
  | error stop => cases stop <;> exact nofun

end Phase

/-- What a step of the process did, as it shows from outside. -/
inductive Event
  /-- The monitor took a step. -/
  | monitored (entry : Entry)
  /-- The main loop read the clock and began a session. -/
  | connected (started : Nat) (shown : List SessionEvent)
  /-- The session took a frame, or found none. -/
  | passed (opened : Header) (shown : List SessionEvent)
  /-- After a session the main loop read the clock again and slept. -/
  | slept (started finished : Nat) (delay : Duration)
deriving DecidableEq

/-- The two threads. -/
structure Subagent (σ ID : Type) [AgentxId ID] where
  monitor : Monitor σ ID
  supervisor : Supervisor

/-- What the master does on a connection, and how the calls on it go. -/
structure Connection where
  incoming : List UInt8
  arrivals : List Arrival
  lags : List Nat
  refusals : List (Option Error)
  now : Nat

/-- The connection before the first call. -/
def Connection.stream (connection : Connection) : UnixStream where
  incoming := connection.incoming
  arrivals := connection.arrivals
  lags := connection.lags
  refusals := connection.refusals
  now := connection.now
  readTimeout := none
  log := []

/-- What the threads do not decide: which of them comes next, the readings of the clock,
and the connection that a session gets. -/
inductive Choice
  | monitor
  | connect (started : Nat) (connection : Connection)
  | pass
  | sleep (finished : Nat)

namespace Subagent

variable {σ ID : Type} [AgentxId ID]

/-- A session that looks at the cell as the monitor has left it. -/
def session (monitor : Monitor σ ID) (stream : UnixStream) : Session ID :=
  ⟨stream, ⟨monitor.actor.publication, []⟩⟩

/-- The first steps of a session, up to its loop. -/
def handshake (codec : Codec ID) (config : FullConfig) (monitor : Monitor σ ID)
    (stream : UnixStream) : EStateM.Result Stop (Session ID) Header :=
  codec.handshake config.toConfig (session monitor stream)

/-- A pass of its loop. -/
def pass (codec : Codec ID) (monitor : Monitor σ ID) (opened : Header) (stream : UnixStream) :
    EStateM.Result Stop (Session ID) Pass :=
  codec.pass opened (session monitor stream)

variable [Acquisition σ] (codec : Codec ID) (config : FullConfig)

/-- A step of the process; none when it is not that thread's turn. -/
def step : Choice → Subagent σ ID → Option (Event × Subagent σ ID)
  | .monitor, ⟨_, ⟨.exited, _⟩⟩ => none
  | .monitor, ⟨monitor, supervisor⟩ =>
      monitor.step.map fun (entry, next) => (.monitored entry, ⟨next, supervisor⟩)
  | .connect started connection, ⟨monitor, ⟨.connecting, backoff⟩⟩ =>
      let result := handshake codec config monitor connection.stream
      some (.connected started (reached result).stream.events,
        ⟨monitor, ⟨.afterHandshake started result, backoff⟩⟩)
  | .pass, ⟨monitor, ⟨.serving started opened stream, backoff⟩⟩ =>
      let result := pass codec monitor opened stream
      some (.passed opened (stream.eventsSince (reached result).stream),
        ⟨monitor, ⟨.afterPass started opened result, backoff⟩⟩)
  | .sleep finished, ⟨monitor, ⟨.ended started, backoff⟩⟩ =>
      let delay := reconnectDelay backoff (durationSince finished started)
      some (.slept started finished delay, ⟨monitor, ⟨.connecting, nextReconnectDelay delay⟩⟩)
  | _, _ => none

/-- The process at its start. -/
def initial (source : σ) : Subagent σ ID where
  monitor := ⟨source, .initial (.fromSecs config.reconcile)⟩
  supervisor := .initial

/-- The runs of the process, with what shows of them, newest first. -/
def Run (source : σ) : List Event → Subagent σ ID → Prop :=
  Trace (· = initial config source) fun before event next =>
    ∃ choice, step codec config choice before = some (event, next)

/-- The steps by what they show. -/
inductive Step : Subagent σ ID → Event → Subagent σ ID → Prop
  | monitored {monitor next : Monitor σ ID} {supervisor : Supervisor} {entry : Entry}
      (moved : monitor.step = some (entry, next)) :
      Step ⟨monitor, supervisor⟩ (.monitored entry) ⟨next, supervisor⟩
  | connected {monitor : Monitor σ ID} {backoff : Duration} {started : Nat}
      {connection : Connection} :
      Step ⟨monitor, ⟨.connecting, backoff⟩⟩
        (.connected started
          (reached (handshake codec config monitor connection.stream)).stream.events)
        ⟨monitor, ⟨.afterHandshake started (handshake codec config monitor connection.stream),
          backoff⟩⟩
  | passed {monitor : Monitor σ ID} {backoff : Duration} {started : Nat} {opened : Header}
      {stream : UnixStream} :
      Step ⟨monitor, ⟨.serving started opened stream, backoff⟩⟩
        (.passed opened (stream.eventsSince (reached (pass codec monitor opened stream)).stream))
        ⟨monitor, ⟨.afterPass started opened (pass codec monitor opened stream), backoff⟩⟩
  | slept {monitor : Monitor σ ID} {backoff : Duration} {started finished : Nat} :
      Step ⟨monitor, ⟨.ended started, backoff⟩⟩
        (.slept started finished (reconnectDelay backoff (durationSince finished started)))
        ⟨monitor, ⟨.connecting, nextReconnectDelay
          (reconnectDelay backoff (durationSince finished started))⟩⟩

variable {codec config}

/-- A step of the subagent is one of its monitor or of its supervisor. -/
theorem step_cases {choice : Choice} {before next : Subagent σ ID} {event : Event}
    (moved : step codec config choice before = some (event, next)) :
    Step codec config before event next := by
  unfold step at moved
  split at moved
  · cases moved
  · obtain ⟨⟨entry, after⟩, taken, same⟩ := Option.map_eq_some_iff.mp moved
    cases same
    exact .monitored taken
  · cases moved
    exact .connected
  · cases moved
    exact .passed
  · cases moved
    exact .slept
  · cases moved

variable {source : σ} {history : List Event} {subagent : Subagent σ ID}

/-- What holds at the start and is kept by every kind of step holds of every run. -/
theorem Run.invariant (property : List Event → Subagent σ ID → Prop)
    (begins : property [] (initial config source))
    (preserved : ∀ history before event next, Run codec config source history before →
      property history before → Step codec config before event next →
        property (event :: history) next)
    (run : Run codec config source history subagent) : property history subagent := by
  refine Trace.invariant property ?_ ?_ run
  · intro before start
    subst start
    exact begins
  · intro history before event next earlier holds moved
    obtain ⟨_, moved⟩ := moved
    exact preserved history before event next earlier holds (step_cases moved)

/-- The step that an event of a run shows, and the run before it. -/
theorem Run.stepAt {newer older : List Event} {event : Event}
    (run : Run codec config source (newer ++ event :: older) subagent) :
    ∃ before next, Run codec config source older before ∧ Step codec config before event next := by
  obtain ⟨next, whole⟩ := Trace.older run
  obtain ⟨before, earlier, _, moved⟩ := Trace.last whole
  exact ⟨before, next, earlier, step_cases moved⟩

end Subagent

/-- The monitor's part of an event. -/
def Event.entry? : Event → Option Entry
  | .monitored entry => some entry
  | _ => none

/-- What the monitor has done in a history of the process. -/
def Subagent.entries (history : List Event) : List Entry := history.filterMap Event.entry?

namespace Subagent

/-- The entries of the monitor, in two parts of a history. -/
theorem entries_append (newer older : List Event) :
    entries (newer ++ older) = entries newer ++ entries older :=
  List.filterMap_append

variable {σ ID : Type} [AgentxId ID] [Acquisition σ] {codec : Codec ID} {config : FullConfig}
  {source : σ} {history : List Event} {subagent : Subagent σ ID}

/-- Whatever the sessions do, the monitor runs as it does alone. -/
theorem Run.monitor (run : Run codec config source history subagent) :
    IfStack.Run source (.fromSecs config.reconcile) (entries history) subagent.monitor := by
  refine run.invariant (fun history subagent =>
    IfStack.Run source (.fromSecs config.reconcile) (entries history) subagent.monitor)
    (.start rfl) ?_
  intro history before event next _ earlier step
  cases step with
  | monitored moved => exact .turn earlier moved
  | connected | passed | slept => exact earlier

/-- The published cell is the register that the monitor's part of the history drives. -/
theorem Run.publication_eq (run : Run codec config source history subagent) :
    subagent.monitor.actor.publication.table =
      (Register.value History.publicationEffect (entries history)).map Mib.fromTopology :=
  run.monitor.schedule.snapshot_eq

variable (codec config source)

/-- The run that some choices make, the newest first. -/
def play : List Choice → Option (List Event × Subagent σ ID)
  | [] => some ([], initial config source)
  | choice :: older => do
      let (history, subagent) ← play older
      let (event, next) ← step codec config choice subagent
      return (event :: history, next)

variable {codec config source}

/-- What the choices make is a run. -/
theorem Run.of_play {choices : List Choice}
    (played : play codec config source choices = some (history, subagent)) :
    Run codec config source history subagent := by
  induction choices generalizing history subagent with
  | nil =>
      cases played
      exact .start rfl
  | cons choice choices ih =>
      obtain ⟨⟨older, before⟩, earlier, rest⟩ := Option.bind_eq_some_iff.mp played
      obtain ⟨⟨event, next⟩, moved, final⟩ := Option.bind_eq_some_iff.mp rest
      cases final
      exact .turn (ih earlier) ⟨choice, moved⟩

variable (codec config source)

/-- What the computed history and state show, a run shows. -/
theorem Run.of_shown (choices : List Choice) (shown : List Event → Subagent σ ID → Prop)
    [∀ history subagent, Decidable (shown history subagent)]
    (computed : (play codec config source choices).any
      (fun made => decide (shown made.1 made.2)) = true) :
    ∃ history subagent, Run codec config source history subagent ∧ shown history subagent := by
  obtain ⟨⟨history, subagent⟩, played, holds⟩ := (Option.any_eq_true _ _).mp computed
  exact ⟨history, subagent, .of_play played, of_decide_eq_true holds⟩

end Subagent
end IfStack
