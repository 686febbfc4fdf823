import IfStack.Foundation.Spacing
import IfStack.Monitor.Backoff
import IfStack.Subagent.Reads

/-! # Reconnecting

The main loop's backoff over a whole run. Short sessions in a row double the delay from
one second up to 30; a session of 30 seconds or more starts over. However sessions end,
the master sees at most one connection a second.
-/

namespace IfStack

open Foundation

/-- The instants that an event tells of, newest first. A sleep ends after its delay at the
earliest. -/
def Event.instants : Event → List Nat
  | .connected started _ => [started]
  | .slept _ finished delay => [finished + delay.nanos, finished]
  | _ => []

namespace Subagent

/-- A session that ran long enough to start over. -/
def Steady (started finished : Nat) : Prop := .fromSecs 30 ≤ durationSince finished started

instance (started finished : Nat) : Decidable (Steady started finished) :=
  inferInstanceAs (Decidable (Duration.fromSecs 30 ≤ _))

/-- The sessions that have ended since the latest steady one, which counts as well. -/
def climbed : List Event → Nat
  | [] => 0
  | .slept started finished _ :: older =>
      if Steady started finished then 1 else climbed older + 1
  | _ :: older => climbed older

/-- The instants at which sessions began, newest first. -/
def connections (history : List Event) : List Nat :=
  history.filterMap fun
    | .connected started _ => some started
    | _ => none

/-- The clock never runs backwards, and no sleep is cut short. -/
def Punctual (history : List Event) : Prop :=
  (history.flatMap Event.instants).Pairwise fun newer older => older ≤ newer

/-- The clock of an older history does not go back. -/
theorem Punctual.older {event : Event} {history : List Event}
    (punctual : Punctual (event :: history)) : Punctual history := by
  unfold Punctual at punctual ⊢
  rw [List.flatMap_cons] at punctual
  exact (List.pairwise_append.mp punctual).2.1

/-- The instants of an event are not before those of older ones. -/
theorem Punctual.le {event : Event} {history : List Event}
    (punctual : Punctual (event :: history)) {newer older : Nat} (here : newer ∈ event.instants)
    (before : older ∈ history.flatMap Event.instants) : older ≤ newer := by
  unfold Punctual at punctual
  rw [List.flatMap_cons] at punctual
  exact (List.pairwise_append.mp punctual).2.2 newer here older before

/-- A connection starts at an instant of the history. -/
theorem connections_subset {history : List Event} {started : Nat}
    (member : started ∈ connections history) : started ∈ history.flatMap Event.instants := by
  obtain ⟨event, inside, shown⟩ := List.mem_filterMap.mp member
  refine List.mem_flatMap.mpr ⟨event, inside, ?_⟩
  cases event <;> cases shown
  exact List.mem_singleton.mpr rfl

/-- `next_reconnect_delay` goes up by one rung. -/
theorem nextReconnectDelay_backoff (count : Nat) :
    nextReconnectDelay (backoff count) = backoff (count + 1) :=
  nextDelay_backoff count

/-- A steady session goes back to the first rung. -/
theorem reconnectDelay_backoff (count started finished : Nat) :
    reconnectDelay (backoff count) (durationSince finished started) =
      backoff (if Steady started finished then 0 else count) := by
  unfold reconnectDelay
  by_cases steady : Steady started finished
  · rw [if_pos steady]
    exact (if_pos steady).trans initialDelay_eq
  · rw [if_neg steady]
    exact if_neg steady

/-- No delay is shorter than a second. -/
theorem second_le_backoff (count : Nat) : 10 ^ 9 ≤ (backoff count).nanos :=
  Duration.le_def.mp (initialDelay_le_backoff count)

variable {σ ID : Type} [AgentxId ID] [Acquisition σ] {codec : Codec ID} {config : FullConfig}
  {source : σ} {history : List Event} {subagent : Subagent σ ID}

/-- The delay that is up next is the rung of the sessions that have ended. -/
theorem Run.backoff_eq (run : Run codec config source history subagent) :
    subagent.supervisor.backoff = backoff (climbed history) := by
  refine run.invariant
    (fun history subagent => subagent.supervisor.backoff = backoff (climbed history)) rfl ?_
  intro history before event next _ ih step
  cases step with
  | monitored | connected | passed => exact ih
  | @slept monitor delay started finished =>
      change delay = _ at ih
      change nextReconnectDelay (reconnectDelay delay (durationSince finished started)) = _
      rw [ih, reconnectDelay_backoff, nextReconnectDelay_backoff, climbed]
      split <;> rfl

/-- After a session the main loop sleeps for the rung of the short sessions before it. -/
theorem Run.delay_eq {newer older : List Event} {started finished : Nat} {delay : Duration}
    (run : Run codec config source (newer ++ .slept started finished delay :: older) subagent) :
    delay = backoff (if Steady started finished then 0 else climbed older) := by
  obtain ⟨before, _, earlier, step⟩ := run.stepAt
  have same := earlier.backoff_eq
  cases step with
  | slept =>
      rw [← reconnectDelay_backoff, ← same]

/-- Sessions begin a second or more apart, since the main loop sleeps before it goes on to
the next. -/
theorem Run.spaced (run : Run codec config source history subagent)
    (punctual : Punctual history) : Spaced (10 ^ 9) (connections history) := by
  refine (run.invariant (fun history subagent => Punctual history →
    Spaced (10 ^ 9) (connections history) ∧ (subagent.supervisor.phase = .connecting →
      ∀ started ∈ connections history, ∃ instant ∈ history.flatMap Event.instants,
        started + 10 ^ 9 ≤ instant)) ?_ ?_ punctual).1
  · exact fun _ => ⟨.nil, fun _ _ member => absurd member List.not_mem_nil⟩
  · intro history before event next earlier ih step punctual
    obtain ⟨spaced, rested⟩ := ih punctual.older
    cases step with
    | monitored => exact ⟨spaced, rested⟩
    | passed =>
        exact ⟨spaced, fun connecting => absurd connecting (Phase.afterPass_ne_connecting _ _ _)⟩
    | connected =>
        refine ⟨List.pairwise_cons.mpr ⟨fun started member => ?_, spaced⟩, fun connecting =>
          absurd connecting (Phase.afterHandshake_ne_connecting _ _)⟩
        obtain ⟨instant, passed, after⟩ := rested rfl started member
        exact after.trans (punctual.le List.mem_cons_self passed)
    | @slept _ delay _ finished =>
        refine ⟨spaced, fun _ started member => ?_⟩
        refine ⟨_, List.mem_flatMap.mpr ⟨_, List.mem_cons_self, List.mem_cons_self⟩, ?_⟩
        have past := punctual.le (List.mem_cons_of_mem _ List.mem_cons_self)
          (connections_subset member)
        have same := earlier.backoff_eq
        change delay = _ at same
        rw [same, reconnectDelay_backoff]
        exact Nat.add_le_add past (second_le_backoff _)

/-- **Reconnecting.** The delay after a session is a second if it ran for 30 seconds, and
else `min(2^k, 30)` seconds, where k sessions ended before it since the latest that did, that
one included, or since the start. When the clock does not run backwards and no sleep is cut
short, a window of a number of nanoseconds holds the beginning of one session for each full
second, and one more. -/
theorem Run.reconnects (run : Run codec config source history subagent) :
    (∀ newer started finished delay older,
      history = newer ++ .slept started finished delay :: older → delay.nanos =
        min (2 ^ (if Steady started finished then 0 else climbed older)) 30 * 10 ^ 9) ∧
    (Punctual history → ∀ low span : Nat,
      ((connections history).filter fun started =>
        decide (low ≤ started ∧ started ≤ low + span)).length ≤ span / 10 ^ 9 + 1) := by
  constructor
  · intro newer started finished delay older here
    subst here
    rw [run.delay_eq]
    rfl
  · intro punctual low span
    have spaced := run.spaced punctual
    have inside : ∀ started ∈ (connections history).filter fun started =>
        decide (low ≤ started ∧ started ≤ low + span), low ≤ started ∧ started ≤ low + span :=
      fun started member => of_decide_eq_true (List.mem_filter.mp member).2
    exact Spaced.length_le (spaced.filter _) (by decide) inside

/-- A connection that is refused. -/
def refusing : Connection where
  incoming := []
  arrivals := []
  lags := []
  refusals := [some (.other "Connection refused (os error 111)")]
  now := 0

/-- Two sessions that fail at once, with a delay after each. -/
def refusedTwice : List Choice :=
  [.sleep (10 ^ 9), .connect (10 ^ 9) refusing, .sleep 0, .connect 0 refusing]

/-- Two refused connections are a second apart. -/
theorem Run.reconnects_refused : ∃ (history : List Event) (subagent : Subagent Script PlainId),
    Run .plain .default bondSource history subagent ∧ connections history = [10 ^ 9, 0] ∧
      ((connections history).filter fun started =>
        decide (0 ≤ started ∧ started ≤ 0 + 999999999)).length ≤ 999999999 / 10 ^ 9 + 1 := by
  obtain ⟨history, subagent, run, happened⟩ := Run.of_shown Codec.plain .default bondSource
    refusedTwice (fun history (_ : Subagent Script PlainId) => history =
      [.slept (10 ^ 9) (10 ^ 9) (.fromSecs 2), .connected (10 ^ 9) [], .slept 0 0 (.fromSecs 1),
        .connected 0 []]) (by decide +kernel)
  subst happened
  exact ⟨_, subagent, run, rfl, run.reconnects.2 (by unfold Punctual; decide) 0 999999999⟩

end Subagent
end IfStack
