import IfStack.Foundation.Spacing
import IfStack.Monitor.FailureFloor
import IfStack.Monitor.Script
import IfStack.Monitor.Timeline

/-! # The rate limit on inventories

Retry, event deadline and reconciliation set readiness independently. Wherever an
inventory could start, each of them that is set lies a second or more after the
latest start; so two starts are a second apart, whatever caused them.
-/

namespace IfStack

open Foundation

/-- The reading that started an inventory, if the entry is a start. -/
def Entry.startedAt : Entry → Option Duration
  | .started now _ => some now
  | _ => none

namespace History

/-- The readings that started inventories, newest first. -/
def starts (history : List Entry) : List Duration := history.filterMap Entry.startedAt

/-- Every start comes a second or more after those before it. -/
def Spread (history : List Entry) : Prop :=
  (starts history).Pairwise fun newer older => older.saturatingAdd initialDelay ≤ newer

/-- No change is delivered with a time before the latest start. -/
def Timely : List Entry → Prop
  | [] => True
  | entry :: older =>
      (∀ time ∈ changes older entry, ∀ start ∈ (starts older).head?, start ≤ time) ∧ Timely older

/-- The clock does not run backwards, and the changes are timely. -/
structure Ordered (history : List Entry) : Prop where
  monotone : Nondecreasing history
  timely : Timely history

/-- The readings of an older history are ordered. -/
theorem Ordered.older {entry : Entry} {history : List Entry}
    (ordered : Ordered (entry :: history)) : Ordered history :=
  ⟨ordered.monotone.older, ordered.timely.2⟩

/-- The time of a start is a reading. -/
theorem starts_subset_readings {history : List Entry} {start : Duration}
    (began : start ∈ starts history) : start ∈ readings history := by
  obtain ⟨entry, member, named⟩ := List.mem_filterMap.mp began
  refine List.mem_flatMap.mpr ⟨entry, member, ?_⟩
  cases entry with
  | started now attempt =>
      cases named
      exact List.mem_singleton.mpr rfl
  | _ => cases named

end History

/-- Whatever makes an inventory due lies a second or more after a start. -/
structure State.Paced (state : State) (start : Duration) : Prop where
  of_retry : ∀ deadline, state.retryNotBefore = some deadline →
    start.saturatingAdd initialDelay ≤ deadline
  of_none : state.retryNotBefore = none → state.subscribed = true ∧ state.needsInventory = false ∧
    (∀ deadline, state.eventDeadline = some deadline →
      start.saturatingAdd initialDelay ≤ deadline) ∧
    ∃ success, state.lastSuccess = some success ∧ start ≤ success

namespace State

variable {state : State} {start now : Duration}

/-- Changes after a start set no deadline within a second of it. -/
theorem le_recordAll_eventDeadline {times : List Duration}
    (delay : initialDelay ≤ state.eventDelay) (later : ∀ time ∈ times, start ≤ time)
    (paced : ∀ deadline, state.eventDeadline = some deadline →
      start.saturatingAdd initialDelay ≤ deadline) :
    ∀ deadline, (state.recordAll times).eventDeadline = some deadline →
      start.saturatingAdd initialDelay ≤ deadline := by
  induction times generalizing state with
  | nil => exact paced
  | cons time times ih =>
      have met : initialDelay ≤ (state.recordEvent time).eventDelay := by
        simp only [recordEvent]
        split
        · exact le_rfl
        · exact delay
      apply ih met (fun other member => later other (List.mem_cons_of_mem _ member))
      intro deadline pending
      cases before : state.eventDeadline with
      | some old =>
          simp only [recordEvent, before, Option.getD_some, Option.some.injEq] at pending
          exact pending ▸ paced old before
      | none =>
          have set : time.saturatingAdd (state.recordEvent time).eventDelay = deadline := by
            simpa only [recordEvent, before, Option.getD_none, Option.some.injEq] using pending
          exact set ▸ Duration.saturatingAdd_le_saturatingAdd (later time List.mem_cons_self) met

/-- A failure after a start paces the state. -/
theorem paced_of_fail (delay : initialDelay ≤ state.failureDelay) (later : start ≤ now) :
    (state.fail now).Paced start where
  of_retry deadline pending := by
    cases pending
    exact Duration.saturatingAdd_le_saturatingAdd later delay
  of_none calm := nomatch calm

/-- A paced state is not ready within a second of the start. -/
theorem Paced.le_of_ready (paced : state.Paced start) (slow : initialDelay ≤ state.reconcile)
    (ready : state.acquisitionReady now = true) : start.saturatingAdd initialDelay ≤ now := by
  obtain ⟨retried, due⟩ := acquisitionReady_iff.mp ready
  cases retry : state.retryNotBefore with
  | some deadline =>
      exact (paced.of_retry deadline retry).trans (retryReady_iff.mp retried deadline retry)
  | none =>
      obtain ⟨_, calm, events, success, succeeded, after⟩ := paced.of_none retry
      rcases due with needs | ⟨deadline, pending, passed⟩ | ⟨time, found, passed⟩
      · exact nomatch calm.symm.trans needs
      · exact (events deadline pending).trans passed
      · cases succeeded.symm.trans found
        exact (Duration.saturatingAdd_le_saturatingAdd after slow).trans passed

end State

/-- What holds of the loop at each point, against the latest start. -/
def Actor.Paced {ID : Type} [AgentxId ID] (actor : Actor ID) (history : List Entry) : Prop :=
  match actor.point with
  | .inventorying now _ => (History.starts history).head? = some now ∧
      actor.state.subscribed = true ∧ actor.state.needsInventory = false ∧
      actor.state.eventDeadline = none
  | .subscribing _ => actor.state.subscribed = false ∧
      ∀ start ∈ (History.starts history).head?, actor.state.Paced start
  | _ => ∀ start ∈ (History.starts history).head?, actor.state.Paced start

section

variable {ID : Type} [AgentxId ID] {reconcile : Duration} {history : List Entry}
  {actor : Actor ID}

/-- A failure after the latest start paces the state. -/
theorem Schedule.paced_of_failed {state : State} (schedule : Schedule reconcile history actor)
    {entry : Entry} {failed start : Duration}
    (monotone : History.Nondecreasing (entry :: history)) (taken : failed ∈ entry.readings)
    (began : start ∈ (History.starts history).head?)
    (delay : state.failureDelay = actor.state.failureDelay) : (state.fail failed).Paced start := by
  refine State.paced_of_fail ?_ (monotone.le taken ?_)
  · rw [delay, schedule.failureDelay_eq]
    exact initialDelay_le_backoff _
  · exact History.starts_subset_readings (List.mem_of_mem_head? began)

/-- Every step keeps the loop paced. -/
theorem Turn.paced {before next : Actor ID} {entry : Entry}
    (earlier : Schedule reconcile history before) (turn : Turn before entry next)
    (monotone : History.Nondecreasing (entry :: history))
    (timely : History.Timely (entry :: history)) (paced : before.Paced history) :
    next.Paced (entry :: history) := by
  have delay : initialDelay ≤ before.state.eventDelay := by
    rw [earlier.follows.eventDelay]
    exact initialDelay_le_backoff _
  cases turn with
  | skip | waiting | deadline => exact paced
  | subscribing missing => exact ⟨missing, paced⟩
  | subscribed =>
      obtain ⟨missing, paced⟩ := paced
      intro start began
      refine ⟨(paced start began).of_retry, fun calm => ?_⟩
      exact nomatch missing.symm.trans ((paced start began).of_none calm).1
  | subscribeFailed =>
      intro start began
      exact earlier.paced_of_failed monotone (List.mem_singleton.mpr rfl) began rfl
  | started present => exact ⟨rfl, present, rfl, rfl⟩
  | @accepted state _ _ _ _ inventory _ taken =>
      obtain ⟨head, present, calm, quiet⟩ := paced
      have current := Schedule.continuity_eq earlier
      change state.continuity = _ at current
      intro start began
      change start ∈ (History.starts history).head? at began
      refine ⟨fun _ pending => (nomatch pending), fun _ => ⟨?_, ?_, ?_, _, rfl, ?_⟩⟩
      · exact (State.recordAll_subscribed _ _).trans present
      · exact (State.recordAll_needsInventory _ _).trans calm
      · refine State.le_recordAll_eventDeadline delay (fun time member => ?_)
          fun _ pending => (nomatch quiet.symm.trans pending)
        rw [current] at member
        exact timely.1 time member start began
      · exact monotone.le (List.mem_singleton.mpr rfl)
          (History.starts_subset_readings (List.mem_of_mem_head? began))
  | rejected | ordinary | lost =>
      intro start began
      exact earlier.paced_of_failed monotone List.mem_cons_self began
        (State.recordAll_failureDelay _ _)
  | @linkChanged state _ _ _ time =>
      intro start began
      have before := paced start began
      refine ⟨before.of_retry, fun calm => ?_⟩
      obtain ⟨present, calm, events, success⟩ := before.of_none calm
      refine ⟨present, calm, ?_, success⟩
      refine @State.le_recordAll_eventDeadline state start [time] delay
        (fun other member => ?_) events
      exact timely.1 other member start began
  | waitFailed =>
      intro start began
      exact earlier.paced_of_failed monotone (List.mem_singleton.mpr rfl) began rfl

/-- On a clock that does not run backwards, with timely changes, the loop is paced
at every point. -/
theorem Schedule.paced (schedule : Schedule reconcile history actor)
    (ordered : History.Ordered history) : actor.Paced history := by
  refine Trace.invariant_under History.Ordered (fun history actor => actor.Paced history)
    (fun _ _ => History.Ordered.older) (fun _ begins => ?_) ?_ schedule ordered
  · subst begins
    intro _ began
    cases began
  · intro history before entry next earlier ordered paced turn
    exact turn.paced earlier ordered.monotone ordered.timely paced

/-- A start that finds the loop paced keeps the starts spread. -/
theorem Schedule.spread (schedule : Schedule reconcile history actor)
    (slow : initialDelay ≤ reconcile) (ordered : History.Ordered history) :
    History.Spread history := by
  refine Trace.invariant_under History.Ordered (fun history _ => History.Spread history)
    (fun _ _ => History.Ordered.older) (fun _ _ => List.Pairwise.nil) ?_ schedule ordered
  intro history before entry next earlier ordered spaced turn
  cases turn with
  | @started state _ now _ due =>
      have paced := Schedule.paced earlier ordered.older
      have fixed := Schedule.reconcile_eq earlier
      have latest (start : Duration) (began : (History.starts history).head? = some start) :
          start.saturatingAdd initialDelay ≤ now :=
        (paced start began).le_of_ready (fixed.symm ▸ slow) due
      refine List.pairwise_cons.mpr ⟨?_, spaced⟩
      change ∀ start ∈ History.starts history, start.saturatingAdd initialDelay ≤ now
      cases begun : History.starts history with
      | nil => exact fun _ member => absurd member List.not_mem_nil
      | cons last older =>
          rw [History.Spread, begun] at spaced
          rw [begun] at latest
          have reached := latest last rfl
          intro start member
          rcases List.mem_cons.mp member with here | there
          · exact here ▸ reached
          · exact ((List.pairwise_cons.mp spaced).1 start there).trans
              ((Duration.le_saturatingAdd last _).trans reached)
  | _ => exact spaced

end

/-- The starts below the end of the range are spaced exactly. -/
theorem History.Spread.spaced {history : List Entry} (spread : Spread history)
    (window : Duration → Bool) (below : ∀ start, window start = true → start.nanos < maxNanos) :
    Spaced (10 ^ 9) (((starts history).filter window).map Duration.nanos) := by
  rw [Spaced, List.pairwise_map]
  refine (List.Pairwise.filter window spread).imp_of_mem fun {newer older} newer_in _ after => ?_
  have early := below newer (List.mem_filter.mp newer_in).2
  have delay : initialDelay.nanos = 10 ^ 9 := rfl
  rw [Duration.le_def, Duration.saturatingAdd_nanos] at after
  omega

/-- **The rate limit.** With a reconciliation interval of a second or more, a clock
that does not run backwards and changes that are not dated before the latest
start, consecutive inventories start a second or more apart, up to the end of the
range of times. So a window of a number of nanoseconds that ends before it holds
at most one start for each full second, and one more. -/
theorem Run.starts_spaced {σ ID : Type} [AgentxId ID] [Acquisition σ] {source : σ}
    {reconcile : Duration} {history : List Entry} {monitor : Monitor σ ID}
    (run : Run source reconcile history monitor) (slow : Duration.fromSecs 1 ≤ reconcile)
    (monotone : History.Nondecreasing history) (timely : History.Timely history) :
    (∀ newer later earlier older, History.starts history = newer ++ later :: earlier :: older →
      min (earlier.nanos + 10 ^ 9) maxNanos ≤ later.nanos) ∧
    (∀ low span : Nat, low + span < maxNanos →
      ((History.starts history).filter fun start =>
        decide (low ≤ start.nanos ∧ start.nanos ≤ low + span)).length ≤ span / 10 ^ 9 + 1) := by
  have spread := run.schedule.spread slow ⟨monotone, timely⟩
  constructor
  · intro newer later earlier older split
    rw [History.Spread, split] at spread
    exact (List.pairwise_cons.mp (List.pairwise_append.mp spread).2.1).1 earlier List.mem_cons_self
  · intro low span ends
    have spaced := spread.spaced
      (fun start => decide (low ≤ start.nanos ∧ start.nanos ≤ low + span)) fun start inside => by
        have bounds := of_decide_eq_true inside
        omega
    rw [← List.length_map Duration.nanos]
    have inside (point : Nat) (member : point ∈ ((History.starts history).filter fun start =>
        decide (low ≤ start.nanos ∧ start.nanos ≤ low + span)).map Duration.nanos) :
        low ≤ point ∧ point ≤ low + span := by
      obtain ⟨start, kept, rfl⟩ := List.mem_map.mp member
      exact of_decide_eq_true (List.mem_filter.mp kept).2
    exact spaced.length_le (by decide) inside

/-- A source with two empty inventories at the end of the range of times. -/
def Script.twiceAtMaximum : Script where
  readings := [.maximum]
  subscriptions := []
  inventories := [.ok ⟨⟨0⟩, [], ⟨none, none⟩⟩, .ok ⟨⟨0⟩, [], ⟨none, none⟩⟩]
  waits := []

/-- At the end of the range of times a reconciliation is due at once: two
inventories start at the same reading. -/
theorem Run.starts_spaced_saturates :
    ¬ ∀ (history : List Entry) (monitor : Monitor Script PlainId),
      Run Script.twiceAtMaximum (.fromSecs 3600) history monitor →
      History.Nondecreasing history → History.Timely history →
      ∀ newer later earlier older,
        History.starts history = newer ++ later :: earlier :: older →
          earlier.nanos + 10 ^ 9 ≤ later.nanos := by
  intro apart
  obtain ⟨history, monitor, run, happened⟩ :=
    Run.of_shown Script.twiceAtMaximum (.fromSecs 3600) 6
      (fun history (_ : Monitor Script PlainId) =>
        history = [.started .maximum ⟨0⟩, .skipped .maximum,
          .completed ⟨⟨0⟩, [], ⟨none, none⟩⟩ .maximum none, .started .maximum ⟨0⟩, .subscribed,
          .subscribing .maximum]) (by decide +kernel)
  subst happened
  have gap := apart _ monitor run (by unfold History.Nondecreasing; decide)
    (by simp [History.Timely, History.changes, Inventory.changesIn, EventBatch.changes])
    [] .maximum .maximum [] rfl
  exact absurd gap (by decide)

/-- A source with two empty inventories, ten seconds apart, and a reconciliation
interval of ten seconds. -/
def Script.reconciled : Script where
  readings := [.zero, .zero, .zero, .zero, .zero, .fromSecs 10]
  subscriptions := []
  inventories := [.ok ⟨⟨0⟩, [], ⟨none, none⟩⟩, .ok ⟨⟨0⟩, [], ⟨none, none⟩⟩]
  waits := []

/-- Two inventories ten seconds apart: one at most in any second. -/
theorem Run.starts_spaced_reconciled :
    ∃ history, ∃ monitor : Monitor Script PlainId,
      Run Script.reconciled (.fromSecs 10) history monitor ∧
        History.starts history = [.fromSecs 10, .zero] ∧
        ((History.starts history).filter fun start =>
          decide (0 ≤ start.nanos ∧ start.nanos ≤ 0 + 999999999)).length ≤
            999999999 / 10 ^ 9 + 1 := by
  obtain ⟨history, monitor, run, happened⟩ :=
    Run.of_shown Script.reconciled (.fromSecs 10) 9
      (fun history (_ : Monitor Script PlainId) =>
        history = [.started (.fromSecs 10) ⟨0⟩, .skipped (.fromSecs 10), .deadline,
          .waiting .zero (.fromSecs 10), .skipped .zero,
          .completed ⟨⟨0⟩, [], ⟨none, none⟩⟩ .zero none, .started .zero ⟨0⟩, .subscribed,
          .subscribing .zero]) (by decide +kernel)
  subst happened
  refine ⟨_, monitor, run, rfl, ?_⟩
  exact (run.starts_spaced (by decide) (by unfold History.Nondecreasing; decide)
    (by simp [History.Timely, History.changes, Inventory.changesIn, EventBatch.changes])).2 0
    999999999 (by decide)

end IfStack
