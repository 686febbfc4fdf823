import IfStack.Netlink.Timeout
import IfStack.Session.Handshake
import IfStack.Session.Protocol
import IfStack.Subagent.Process

/-! # A process that goes on

Nothing that the master sends makes the main thread panic, and the kernel cannot make the
monitor hang. From wherever the process stands both threads can take a step.
-/

namespace IfStack

open Foundation UnixStream

/-- A run that stops returns an error. -/
def Stop.Returns (stop : Stop) : Prop := stop ≠ .panicked

section

variable {σ α : Type}

/-- A call of the system returns or fails; it does not panic. -/
theorem returns_attempt (call : σ → Except Error α × σ) :
    StopsBy Stop.Returns (attempt call) := by
  intro state stop after stopped
  unfold attempt at stopped
  split at stopped <;> cases stopped
  exact nofun

/-- Raising an error does not panic. -/
theorem returns_raise (result : Except Error α) :
    StopsBy Stop.Returns (raise result : EStateM Stop σ α) := by
  intro state stop after stopped
  cases result <;> cases stopped
  exact nofun

variable {ID : Type} [AgentxId ID]

/-- An action on the stream panics only by itself. -/
theorem returns_onStream {action : EStateM Stop UnixStream α}
    (returns : StopsBy Stop.Returns action) :
    StopsBy Stop.Returns (onStream action : EStateM Stop (Session ID) α) := by
  intro session stop after stopped
  unfold onStream at stopped
  split at stopped <;> rename_i here <;> cases stopped
  exact returns _ _ _ here

namespace Codec

variable (codec : Codec ID)

omit [AgentxId ID] in
/-- Receiving a frame does not panic. -/
theorem returns_receive : StopsBy Stop.Returns (receive codec ioTimeout) := by
  rintro stream stop after stopped rfl
  exact receive_not_panicked codec stream after stopped

/-- Waiting for an acknowledgement does not panic. -/
theorem returns_acknowledge (request : Header) :
    StopsBy Stop.Returns (codec.acknowledge request) := by
  rintro session stop after stopped rfl
  exact acknowledge_not_panicked codec request session after stopped

/-- Sending does not panic. -/
theorem returns_send (encoded : Except Error (List UInt8)) :
    StopsBy Stop.Returns (send encoded : EStateM Stop (Session ID) Unit) :=
  (returns_raise encoded).bind fun _ => returns_onStream (returns_attempt _)

/-- No bytes make the handshake panic. -/
theorem returns_handshake (config : Config) : StopsBy Stop.Returns (codec.handshake config) := by
  have opens : StopsBy Stop.Returns codec.openSession := by
    refine (returns_onStream (returns_attempt _)).bind fun _ => ?_
    refine (returns_onStream (returns_attempt _)).bind fun _ => ?_
    refine (returns_onStream (returns_attempt _)).bind fun _ => ?_
    exact (returns_send _).bind fun _ => codec.returns_acknowledge _
  have registers (opened : Header) : StopsBy Stop.Returns (codec.registerTable config opened) := by
    refine (returns_send _).bind fun _ => (codec.returns_acknowledge _).bind fun _ => ?_
    refine (returns_onStream (returns_attempt _)).bind fun _ => returns_onStream ?_
    intro stream stop after stopped
    cases stopped
  exact opens.bind fun opened => (registers opened).bind fun _ => .pure opened

/-- No frame makes a pass panic. -/
theorem returns_pass (encodes : codec.EncodesResponses) (opened : Header) :
    StopsBy Stop.Returns (codec.pass opened) := by
  intro session stop after stopped
  rcases @pass_cases _ _ codec opened session with
    ⟨_, _, lost, same⟩ | ⟨header, bytes, middle, _, handled⟩
  · cases same.symm.trans stopped
    exact codec.returns_receive _ _ _ (receiveFrame_error lost)
  · rw [stopped] at handled
    cases handled with
    | unwritten | refusedClose | refusedCleanup => exact nofun
    | unencoded _ unencoded =>
        obtain ⟨written, encoded⟩ := encodes.encodes _ _
        exact absurd encoded (unencoded written)

end Codec
end

namespace Phase

/-- Where a session stops with an error, the main loop goes on. -/
theorem ofStop_ne_exited (started : Nat) {stop : Stop} (returns : stop.Returns) :
    ofStop started stop ≠ .exited := by
  cases stop with
  | failed => exact nofun
  | panicked => exact absurd rfl returns

/-- No pass of a session panics, so the main loop goes on after it. -/
theorem afterPass_ne_exited {ID : Type} [AgentxId ID] {codec : Codec ID}
    (encodes : codec.EncodesResponses) (started : Nat) (opened : Header) (session : Session ID) :
    afterPass started opened (codec.pass opened session) ≠ .exited := by
  cases passed : codec.pass opened session with
  | ok ends => cases ends <;> exact nofun
  | error stop => exact ofStop_ne_exited started (codec.returns_pass encodes _ _ _ _ passed)

end Phase

namespace Subagent

variable {σ ID : Type} [AgentxId ID] [Acquisition σ] {codec : Codec ID} {config : FullConfig}
  {source : σ} {history : List Event} {subagent : Subagent σ ID}

/-- The main thread never panics. -/
theorem Run.not_exited (encodes : codec.EncodesResponses)
    (run : Run codec config source history subagent) : subagent.supervisor.phase ≠ .exited := by
  refine run.invariant (fun _ subagent => subagent.supervisor.phase ≠ .exited) nofun ?_
  intro history before event next _ alive step
  cases step with
  | monitored => exact alive
  | @connected monitor _ started connection =>
      change Phase.afterHandshake started _ ≠ .exited
      cases shaken : handshake codec config monitor connection.stream with
      | ok => exact nofun
      | error stop =>
          exact Phase.ofStop_ne_exited started (codec.returns_handshake _ _ _ _ shaken)
  | passed => exact Phase.afterPass_ne_exited encodes _ _ _
  | slept => exact nofun

/-- Where the main thread has not panicked the monitor takes its steps. -/
theorem step_monitor {monitor next : Monitor σ ID} {entry : Entry} {phase : Phase}
    {backoff : Duration} (alive : phase ≠ .exited) (moved : monitor.step = some (entry, next)) :
    step codec config .monitor ⟨monitor, ⟨phase, backoff⟩⟩ =
      some (.monitored entry, ⟨next, ⟨phase, backoff⟩⟩) := by
  cases phase with
  | exited => exact absurd rfl alive
  | connecting | serving | ended =>
      change Option.map _ monitor.step = _
      rw [moved]
      rfl

/-- A pass of the session is a step, whatever comes of it. -/
theorem step_pass {monitor : Monitor σ ID} {started : Nat} {opened : Header}
    {stream : UnixStream} {backoff : Duration} {result : EStateM.Result Stop (Session ID) Pass}
    (passed : pass codec monitor opened stream = result) :
    step codec config .pass ⟨monitor, ⟨.serving started opened stream, backoff⟩⟩ =
      some (.passed opened (stream.eventsSince (reached result).stream),
        ⟨monitor, ⟨.afterPass started opened result, backoff⟩⟩) := by
  subst passed
  rfl

/-- Where the main thread has not panicked it can go on, whatever the next connection and
however late it is. -/
theorem exists_main (alive : subagent.supervisor.phase ≠ .exited) (started finished : Nat)
    (connection : Connection) : ∃ choice ∈ [.connect started connection, .pass, .sleep finished],
      (step codec config choice subagent).isSome := by
  obtain ⟨monitor, phase, backoff⟩ := subagent
  cases phase with
  | connecting => exact ⟨_, List.mem_cons_self, rfl⟩
  | serving => exact ⟨_, List.mem_cons_of_mem _ List.mem_cons_self, rfl⟩
  | ended => exact ⟨_, List.mem_cons_of_mem _ (List.mem_cons_of_mem _ List.mem_cons_self), rfl⟩
  | exited => exact absurd rfl alive

/-- **The process goes on.** Whatever the master sends and the kernel answers, the main
thread never panics, and it can take a step from wherever the process stands, on any
connection and at any time. On a clock that advances so can the monitor. -/
theorem Run.lives {S : Type} {world : World S}
    {subagent : Subagent (NetlinkSource S) ID} (encodes : codec.EncodesResponses)
    (run : Run codec config (NetlinkSource.withIo world) history subagent) :
    subagent.supervisor.phase ≠ .exited ∧
      (∀ (started finished : Nat) (connection : Connection),
        ∃ choice ∈ [.connect started connection, .pass, .sleep finished],
          (step codec config choice subagent).isSome) ∧
      (world.behaviour.Advances →
        ∃ entry next, step codec config .monitor subagent = some (.monitored entry, next)) := by
  have alive := run.not_exited encodes
  refine ⟨alive, fun _ _ _ => exists_main alive _ _ _, fun advances => ?_⟩
  obtain ⟨entry, next, moved⟩ := Monitor.exists_step fun _ attempt _ =>
    NetlinkSource.inventory_isSome (run.monitor.behaviour_eq ▸ advances) attempt
  exact ⟨entry, _, step_monitor alive moved⟩

/-- The master sends bytes that are no frame while the monitor is about to take inventory. -/
theorem Run.lives_garbage :
    ∃ history, ∃ subagent : Subagent (NetlinkSource Nat) PlainId,
      Run .plain .default (NetlinkSource.withIo .bonded) history subagent ∧
      (∃ now, subagent.monitor.actor.point = .inventorying now ⟨0⟩) ∧
      (∃ choice ∈ [.connect 0 ⟨[], [], [], [], 0⟩, .pass, .sleep 5],
        (step .plain .default choice subagent).isSome) ∧
      ∃ entry next,
        step .plain .default .monitor subagent = some (.monitored entry, next) := by
  have run : Run Codec.plain .default (NetlinkSource.withIo .bonded) _ _ :=
    .turn (.turn (.turn (.turn (.start rfl) ⟨.monitor, rfl⟩) ⟨.monitor, rfl⟩) ⟨.monitor, rfl⟩)
      ⟨.connect 0 ⟨List.replicate 40 9, [], [], [], 0⟩, rfl⟩
  obtain ⟨_, main, monitor⟩ := run.lives Codec.plain_encodesResponses
  exact ⟨_, _, run, ⟨_, rfl⟩, main 0 5 _, monitor World.bonded_advances⟩

end Subagent
end IfStack
