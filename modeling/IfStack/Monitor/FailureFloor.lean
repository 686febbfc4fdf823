import IfStack.Monitor.Backoff
import IfStack.Monitor.History
import IfStack.Monitor.Script

/-! # The failure floor

A failure sets a time before which neither a subscription nor an inventory
starts. Consecutive failures double its distance, no later failure brings it
closer, and only an accepted inventory takes it away.
-/

namespace IfStack

open Foundation

namespace Entry

/-- The time of the failure an entry records, if it records one. -/
def failedAt : Entry → Option Duration
  | .subscribeFailed _ failed | .ordinary _ _ failed | .lost _ _ failed | .waitFailed _ failed =>
      some failed
  | .completed _ _ failed => failed
  | _ => none

/-- The time of a failure is a reading of its entry. -/
theorem failedAt_mem_readings {entry : Entry} {failed : Duration}
    (fails : entry.failedAt = some failed) : failed ∈ entry.readings := by
  cases entry with
  | completed _ finished found =>
      change found = some failed at fails
      subst fails
      exact List.mem_cons_self
  | subscribeFailed | ordinary | lost | waitFailed =>
      cases fails
      exact List.mem_singleton.mpr rfl
  | _ => cases fails

end Entry

namespace History

/-- The consecutive failures since the latest accepted inventory. -/
def failures : List Entry → Nat
  | [] => 0
  | entry :: older =>
      if (accepted older entry).isSome then 0
      else failures older + if entry.failedAt.isSome then 1 else 0

/-- A failure counts one more since the last acceptance. -/
theorem failures_cons_of_failed {older : List Entry} {entry : Entry} {failed : Duration}
    (refused : accepted older entry = none) (fails : entry.failedAt = some failed) :
    failures (entry :: older) = failures older + 1 := by
  simp only [failures, refused, fails, Option.isSome_none, Bool.false_eq_true, ↓reduceIte,
    Option.isSome_some]

/-- An entry that neither fails nor is accepted does not count. -/
theorem failures_cons_of_calm {older : List Entry} {entry : Entry}
    (refused : accepted older entry = none) (calm : entry.failedAt = none) :
    failures (entry :: older) = failures older := by
  simp only [failures, refused, calm, Option.isSome_none, Bool.false_eq_true, ↓reduceIte,
    Nat.add_zero]

end History

/-- What a step does to the retry fields, by the kind of its entry: an accepted
inventory clears them, a failure climbs, and nothing else touches them. -/
inductive State.Retries (state : State) (history : List Entry) (entry : Entry) (next : State) : Prop
  | cleared {topology : Topology} (taken : History.accepted history entry = some topology)
      (calm : entry.failedAt = none) (retry : next.retryNotBefore = none)
      (delay : next.failureDelay = initialDelay)
  | failed {failed : Duration} (refused : History.accepted history entry = none)
      (fails : entry.failedAt = some failed)
      (retry : next.retryNotBefore = some (failed.saturatingAdd state.failureDelay))
      (delay : next.failureDelay = nextDelay state.failureDelay)
  | kept (refused : History.accepted history entry = none) (calm : entry.failedAt = none)
      (retry : next.retryNotBefore = state.retryNotBefore)
      (delay : next.failureDelay = state.failureDelay)

section

variable {ID : Type} [AgentxId ID] {reconcile : Duration} {history : List Entry}
  {actor : Actor ID}

/-- Every step treats the retry fields in one of the three ways. -/
theorem Turn.retries {before next : Actor ID} {entry : Entry} (turn : Turn before entry next)
    (current : before.state.continuity = History.generation history) :
    before.state.Retries history entry next.state := by
  cases turn with
  | accepted taken =>
      exact .cleared (by rw [History.accepted, ← current]; exact taken) rfl rfl rfl
  | @rejected state _ _ _ _ _ inventory refused =>
      refine .failed (by rw [History.accepted, ← current]; exact refused) rfl ?_ ?_
      · exact congrArg (some <| Duration.saturatingAdd _ ·) (State.recordAll_failureDelay _ _)
      · exact congrArg nextDelay (State.recordAll_failureDelay _ _)
  | ordinary | lost =>
      refine .failed rfl rfl ?_ ?_
      · exact congrArg (some <| Duration.saturatingAdd _ ·) (State.recordAll_failureDelay _ _)
      · exact congrArg nextDelay (State.recordAll_failureDelay _ _)
  | subscribeFailed | waitFailed => exact .failed rfl rfl rfl rfl
  | _ => exact .kept rfl rfl rfl rfl

/-- The failure delay is the rung of the consecutive failures. -/
theorem Schedule.failureDelay_eq (schedule : Schedule reconcile history actor) :
    actor.state.failureDelay = backoff (History.failures history) := by
  refine Trace.invariant
    (fun history actor => actor.state.failureDelay = backoff (History.failures history))
    (fun _ begins => begins ▸ initialDelay_eq) ?_ schedule
  intro history before entry next earlier same turn
  cases turn.retries (Schedule.continuity_eq earlier) with
  | cleared taken _ _ delay =>
      simp only [delay, History.failures, taken, Option.isSome_some, ↓reduceIte, initialDelay_eq]
  | failed refused fails _ delay =>
      rw [delay, same, nextDelay_backoff, History.failures_cons_of_failed refused fails]
  | kept refused calm _ delay =>
      rw [delay, same, History.failures_cons_of_calm refused calm]

/-- A pending retry lies at most the current delay after some reading. -/
theorem Schedule.retry_le (schedule : Schedule reconcile history actor) {deadline : Duration}
    (pending : actor.state.retryNotBefore = some deadline) :
    ∃ reading ∈ History.readings history,
      deadline ≤ reading.saturatingAdd actor.state.failureDelay := by
  revert deadline
  refine Trace.invariant (fun history (actor : Actor ID) => ∀ {deadline : Duration},
    actor.state.retryNotBefore = some deadline → ∃ reading ∈ History.readings history,
      deadline ≤ reading.saturatingAdd actor.state.failureDelay)
    (fun _ begins _ pending => by subst begins; cases pending) ?_ schedule
  intro history before entry next earlier ih turn deadline pending
  cases turn.retries (Schedule.continuity_eq earlier) with
  | cleared _ _ retry => exact nomatch retry.symm.trans pending
  | @failed failed _ fails retry delay =>
      refine ⟨failed, List.mem_append_left _ (Entry.failedAt_mem_readings fails), ?_⟩
      cases retry.symm.trans pending
      apply Duration.saturatingAdd_le_saturatingAdd le_rfl
      rw [delay, Schedule.failureDelay_eq earlier, nextDelay_backoff]
      exact backoff_le_backoff (Nat.le_succ _)
  | kept _ _ retry delay =>
      obtain ⟨reading, taken, near⟩ := ih (retry.symm.trans pending)
      exact ⟨reading, List.mem_append_right _ taken, delay ▸ near⟩

/-- A new failure sets its retry no earlier than the pending one. -/
theorem Schedule.retry_le_of_failed (schedule : Schedule reconcile history actor) {entry : Entry}
    {failed deadline : Duration} (monotone : History.Nondecreasing (entry :: history))
    (fails : entry.failedAt = some failed)
    (pending : actor.state.retryNotBefore = some deadline) :
    deadline ≤ failed.saturatingAdd actor.state.failureDelay := by
  obtain ⟨reading, taken, near⟩ := schedule.retry_le pending
  have later := monotone.le (Entry.failedAt_mem_readings fails) taken
  exact near.trans (Duration.saturatingAdd_le_saturatingAdd later le_rfl)

/-- A call that waits for the retry stands right after the reading that let it
through. -/
theorem Schedule.guarded (schedule : Schedule reconcile history actor) {now : Duration}
    (guard : actor.point = .subscribing now ∨ ∃ attempt, actor.point = .inventorying now attempt) :
    (∃ entry older, history = entry :: older ∧ entry.readings = [now]) ∧
      ∀ deadline ∈ actor.state.retryNotBefore, deadline ≤ now := by
  cases schedule with
  | start begins =>
      subst begins
      rcases guard with subscribing | ⟨_, inventorying⟩
      · cases subscribing
      · cases inventorying
  | turn _ turn =>
      cases turn with
      | subscribing _ due =>
          rcases guard with subscribing | ⟨_, inventorying⟩
          · cases subscribing
            exact ⟨⟨_, _, rfl, rfl⟩, State.retryReady_iff.mp due⟩
          · cases inventorying
      | started _ due =>
          rcases guard with subscribing | ⟨_, inventorying⟩
          · cases subscribing
          · cases inventorying
            exact ⟨⟨_, _, rfl, rfl⟩,
              State.retryReady_iff.mp (State.acquisitionReady_iff.mp due).1⟩
      | _ => rcases guard with subscribing | ⟨_, inventorying⟩ <;> contradiction

/-- A time is kept as a floor: the pending retry is no earlier, or without one the
clock has reached it. -/
structure State.Keeps (state : State) (history : List Entry) (floor : Duration) : Prop where
  of_retry : ∀ deadline, state.retryNotBefore = some deadline → floor ≤ deadline
  of_none : state.retryNotBefore = none → ∃ reading ∈ History.readings history, floor ≤ reading

/-- At a guarded call the clock has reached every floor. -/
theorem State.Keeps.le_reading (schedule : Schedule reconcile history actor) {floor now : Duration}
    (keeps : actor.state.Keeps history floor) (monotone : History.Nondecreasing history)
    (guard : actor.point = .subscribing now ∨ ∃ attempt, actor.point = .inventorying now attempt) :
    floor ≤ now := by
  obtain ⟨⟨entry, older, rfl, reads⟩, due⟩ := schedule.guarded guard
  cases retry : actor.state.retryNotBefore with
  | some deadline => exact (keeps.of_retry deadline retry).trans (due deadline retry)
  | none =>
      obtain ⟨reading, taken, passed⟩ := keeps.of_none retry
      apply passed.trans
      rcases List.mem_append.mp taken with here | before
      · rw [reads, List.mem_singleton] at here
        exact here.le
      · exact monotone.le (reads ▸ List.mem_singleton.mpr rfl) before

/-- Every step keeps a floor that was kept before it. -/
theorem Turn.keeps {before next : Actor ID} {entry : Entry} {floor : Duration}
    (earlier : Schedule reconcile history before) (turn : Turn before entry next)
    (monotone : History.Nondecreasing (entry :: history))
    (keeps : before.state.Keeps history floor) :
    next.state.Keeps (entry :: history) floor := by
  have readings {reading : Duration} (taken : reading ∈ History.readings history) :
      reading ∈ History.readings (entry :: history) := List.mem_append_right _ taken
  cases turn.retries (Schedule.continuity_eq earlier) with
  | kept _ _ retry =>
      refine ⟨fun deadline pending => keeps.of_retry deadline (retry ▸ pending), fun none => ?_⟩
      obtain ⟨reading, taken, passed⟩ := keeps.of_none (retry ▸ none)
      exact ⟨reading, readings taken, passed⟩
  | failed _ fails retry =>
      refine ⟨fun deadline pending => ?_, fun none => nomatch retry.symm.trans none⟩
      cases retry.symm.trans pending
      cases before' : before.state.retryNotBefore with
      | some old =>
          exact (keeps.of_retry old before').trans
            (Schedule.retry_le_of_failed earlier monotone fails before')
      | none =>
          obtain ⟨reading, taken, passed⟩ := keeps.of_none before'
          have later := monotone.le (Entry.failedAt_mem_readings fails) taken
          exact (passed.trans later).trans (Duration.le_saturatingAdd _ _)
  | cleared taken _ retry =>
      refine ⟨fun deadline pending => (nomatch retry.symm.trans pending), fun _ => ?_⟩
      have running : ∃ now attempt, before.point = .inventorying now attempt := by
        cases turn with
        | accepted => exact ⟨_, _, rfl⟩
        | rejected refused =>
            change Inventory.topologyIn _ _ = _ at taken
            rw [← Schedule.continuity_eq earlier] at taken
            exact nomatch refused.symm.trans taken
        | _ => cases taken
      obtain ⟨now, attempt, running⟩ := running
      have passed := keeps.le_reading earlier monotone.older (Or.inr ⟨attempt, running⟩)
      obtain ⟨⟨last, older, rfl, reads⟩, _⟩ := Schedule.guarded earlier (Or.inr ⟨attempt, running⟩)
      refine ⟨now, readings ?_, passed⟩
      exact List.mem_append_left _ (reads ▸ List.mem_singleton.mpr rfl)

/-- Every failure of the past is kept as a floor. -/
theorem Schedule.keeps (schedule : Schedule reconcile history actor)
    (monotone : History.Nondecreasing history) {newer older : List Entry} {entry : Entry}
    {failed : Duration} (split : history = newer ++ entry :: older)
    (fails : entry.failedAt = some failed) :
    ∃ count, History.failures (entry :: older) = count + 1 ∧
      actor.state.Keeps history (failed.saturatingAdd (backoff count)) := by
  induction newer generalizing history actor with
  | nil =>
      subst split
      obtain ⟨before, earlier, turn⟩ := Trace.last schedule
      cases turn.retries (Schedule.continuity_eq earlier) with
      | cleared _ calm => exact nomatch calm.symm.trans fails
      | kept _ calm => exact nomatch calm.symm.trans fails
      | failed refused happened retry =>
          cases happened.symm.trans fails
          refine ⟨_, History.failures_cons_of_failed refused fails, ?_, fun none => ?_⟩
          · intro deadline pending
            cases retry.symm.trans pending
            rw [Schedule.failureDelay_eq earlier]
          · exact nomatch retry.symm.trans none
  | cons head newer ih =>
      subst split
      obtain ⟨before, earlier, turn⟩ := Trace.last schedule
      obtain ⟨count, counted, keeps⟩ := ih earlier monotone.older rfl
      exact ⟨count, counted, turn.keeps earlier monotone keeps⟩

/-- A completed inventory is a failure exactly when it is not accepted. -/
theorem Turn.completed_iff {before next : Actor ID} {inventory : Inventory} {finished : Duration}
    {failed : Option Duration} (turn : Turn before (.completed inventory finished failed) next)
    (current : before.state.continuity = History.generation history) :
    failed = none ↔
      (History.accepted history (.completed inventory finished failed)).isSome := by
  cases turn.retries current with
  | cleared taken calm => simp only [taken, Option.isSome_some, iff_true]; exact calm
  | failed refused fails =>
      change failed = some _ at fails
      subst fails
      simp only [refused, reduceCtorEq, Option.isSome_none, Bool.false_eq_true]
  | kept refused calm =>
      change failed = none at calm
      subst calm
      cases turn with
      | accepted taken =>
          change Inventory.topologyIn _ _ = _ at refused
          rw [← current] at refused
          exact nomatch taken.symm.trans refused

end

/-- **The failure floor.** The n-th consecutive failure, at a time t, keeps every
later call away until `t + min(2^(n-1), 30)` seconds, up to the end of the range
of times. A pending retry never moves earlier, a subscription leaves the ladder
alone, and an accepted inventory, and nothing else, clears it. -/
theorem Run.failure_floor {σ ID : Type} [AgentxId ID] [Acquisition σ] {source : σ}
    {reconcile : Duration} {history : List Entry} {monitor : Monitor σ ID}
    (run : Run source reconcile history monitor) (monotone : History.Nondecreasing history) :
    (∀ now, (monitor.actor.point = .subscribing now ∨
        ∃ attempt, monitor.actor.point = .inventorying now attempt) →
      ∀ newer entry older failed, history = newer ++ entry :: older →
        entry.failedAt = some failed →
          ∃ count, History.failures (entry :: older) = count + 1 ∧
            min (failed.nanos + min (2 ^ count) 30 * 10 ^ 9) maxNanos ≤ now.nanos) ∧
    (∀ entry next, monitor.step = some (entry, next) → History.Nondecreasing (entry :: history) →
      ∀ deadline later, monitor.actor.state.retryNotBefore = some deadline →
        next.actor.state.retryNotBefore = some later → deadline ≤ later) ∧
    (∀ next, monitor.step = some (.subscribed, next) →
      next.actor.state.retryNotBefore = monitor.actor.state.retryNotBefore ∧
      next.actor.state.failureDelay = monitor.actor.state.failureDelay) ∧
    (∀ entry next, monitor.step = some (entry, next) →
      ((History.accepted history entry).isSome →
        next.actor.state.retryNotBefore = none ∧
        next.actor.state.failureDelay = .fromSecs 1) ∧
      (History.accepted history entry = none →
        (monitor.actor.state.retryNotBefore.isSome → next.actor.state.retryNotBefore.isSome) ∧
        monitor.actor.state.failureDelay ≤ next.actor.state.failureDelay)) ∧
    (∀ inventory finished failed next,
      monitor.step = some (.completed inventory finished failed, next) →
        (failed = none ↔
          (History.accepted history (.completed inventory finished failed)).isSome)) := by
  have schedule := run.schedule
  have current := schedule.continuity_eq
  refine ⟨?_, ?_, ?_, ?_, ?_⟩
  · intro now guard newer entry older failed split fails
    obtain ⟨count, counted, keeps⟩ := schedule.keeps monotone split fails
    exact ⟨count, counted, keeps.le_reading schedule monotone guard⟩
  · intro entry next moved monotone deadline later pending set
    cases (Monitor.turn_of_step moved).retries current with
    | cleared _ _ retry => exact nomatch retry.symm.trans set
    | failed _ fails retry =>
        cases retry.symm.trans set
        exact schedule.retry_le_of_failed monotone fails pending
    | kept _ _ retry =>
        cases (retry.trans pending).symm.trans set
        exact le_rfl
  · intro next moved
    cases (Monitor.turn_of_step moved).retries current with
    | cleared taken => cases taken
    | failed _ fails => cases fails
    | kept _ _ retry delay => exact ⟨retry, delay⟩
  · intro entry next moved
    cases (Monitor.turn_of_step moved).retries current with
    | cleared taken _ retry delay =>
        exact ⟨fun _ => ⟨retry, delay⟩, fun refused => nomatch taken.symm.trans refused⟩
    | failed refused _ retry delay =>
        refine ⟨fun taken => ?_, fun _ => ⟨fun _ => ?_, ?_⟩⟩
        · rw [refused] at taken
          cases taken
        · rw [retry]
          rfl
        · rw [delay, schedule.failureDelay_eq, nextDelay_backoff]
          exact backoff_le_backoff (Nat.le_succ _)
    | kept refused _ retry delay =>
        refine ⟨fun taken => ?_, fun _ => ⟨fun pending => retry ▸ pending, delay.ge⟩⟩
        rw [refused] at taken
        cases taken
  · intro inventory finished failed next moved
    exact (Monitor.turn_of_step moved).completed_iff current

/-- A source that refuses the first subscription at the end of the range of times. -/
def Script.refusedAtMaximum : Script where
  readings := [.maximum]
  subscriptions := [.error (.other "refused")]
  inventories := []
  waits := []

/-- After a failure at the end of the range of times the next subscription starts
at once, not a second later: the sum saturates. -/
theorem Run.failure_floor_saturates :
    ¬ ∀ (history : List Entry) (monitor : Monitor Script PlainId) (now : Duration),
      Run Script.refusedAtMaximum (.fromSecs 3600) history monitor →
      History.Nondecreasing history → monitor.actor.point = .subscribing now →
      ∀ newer entry older failed count, history = newer ++ entry :: older →
        entry.failedAt = some failed → History.failures (entry :: older) = count + 1 →
          failed.nanos + min (2 ^ count) 30 * 10 ^ 9 ≤ now.nanos := by
  intro exact_floor
  obtain ⟨history, monitor, run, point, happened⟩ :=
    Run.of_shown Script.refusedAtMaximum (.fromSecs 3600) 5
      (fun history (monitor : Monitor Script PlainId) =>
        monitor.actor.point = .subscribing .maximum ∧
          history = [.subscribing .maximum, .deadline, .waiting .maximum .zero,
            .subscribeFailed (.other "refused") .maximum, .subscribing .maximum])
      (by decide +kernel)
  subst happened
  have floor := exact_floor _ monitor .maximum run
    (by unfold History.Nondecreasing; decide) point
    [.subscribing .maximum, .deadline, .waiting .maximum .zero] _ [.subscribing .maximum] .maximum
    0 rfl rfl rfl
  exact absurd floor (by decide)

/-- A source that refuses the first subscription at time zero and is read again a
second later. -/
def Script.refusedOnce : Script where
  readings := [.zero, .zero, .zero, .fromSecs 1]
  subscriptions := [.error (.other "refused")]
  inventories := []
  waits := []

/-- The subscription after a failure at time zero starts a second later. -/
theorem Run.failure_floor_refusedOnce :
    ∃ history, ∃ monitor : Monitor Script PlainId,
      Run Script.refusedOnce (.fromSecs 3600) history monitor ∧
        monitor.actor.point = .subscribing (.fromSecs 1) ∧
        ∃ count, 1 = count + 1 ∧
          min (Duration.zero.nanos + min (2 ^ count) 30 * 10 ^ 9) maxNanos ≤
            (Duration.fromSecs 1).nanos := by
  obtain ⟨history, monitor, run, point, happened⟩ :=
    Run.of_shown Script.refusedOnce (.fromSecs 3600) 5
      (fun history (monitor : Monitor Script PlainId) =>
        monitor.actor.point = .subscribing (.fromSecs 1) ∧
          history = [.subscribing (.fromSecs 1), .deadline, .waiting .zero (.fromSecs 1),
            .subscribeFailed (.other "refused") .zero, .subscribing .zero])
      (by decide +kernel)
  subst happened
  refine ⟨_, monitor, run, point, ?_⟩
  exact (run.failure_floor (by unfold History.Nondecreasing; decide)).1 (.fromSecs 1) (Or.inl point)
    [.subscribing (.fromSecs 1), .deadline, .waiting .zero (.fromSecs 1)] _ [.subscribing .zero]
    .zero rfl rfl

end IfStack
