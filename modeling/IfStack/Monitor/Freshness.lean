import IfStack.Monitor.Changes
import IfStack.Monitor.Deadline
import IfStack.Monitor.FailureFloor
import IfStack.Monitor.Publication

/-! # How old the published table can be

What the loop attempts ends in a failure or in an accepted inventory. The latest of
these outcomes decides what the state holds, and with it how long the loop sleeps:
until the retry after a failure, or no longer than the table that it serves is fresh.
-/

namespace IfStack

open Foundation

/-- How an attempt of the loop ended: a failure at a time, or an inventory accepted at a
time, with the topology it yields. -/
inductive Outcome
  | failed (time : Duration)
  | accepted (finished : Duration) (topology : Topology)

namespace History

/-- The outcome an entry records, given what came before it. -/
def outcome (older : List Entry) : Entry → Option Outcome
  | .completed inventory finished failed =>
      match accepted older (.completed inventory finished failed) with
      | some topology => some (.accepted finished topology)
      | none => failed.map .failed
  | entry => entry.failedAt.map .failed

/-- What an entry does to the register of the latest outcome. -/
def outcomeEffect (older : List Entry) (entry : Entry) : Effect Outcome :=
  (outcome older entry).elim .keep .write

/-- The latest outcome of a history. -/
def LatestOutcome (history : List Entry) (result : Outcome) : Prop :=
  ∃ newer entry older, history = newer ++ entry :: older ∧ outcome older entry = some result ∧
    Register.Since (fun before other => outcome before other = none) newer (entry :: older)

/-- A failed entry that is not accepted ends an inventory by a failure. -/
theorem outcome_of_failed {older : List Entry} {entry : Entry} {time : Duration}
    (refused : accepted older entry = none) (fails : entry.failedAt = some time) :
    outcome older entry = some (.failed time) := by
  cases entry with
  | completed inventory finished failed =>
      simp only [outcome, refused]
      exact congrArg (Option.map Outcome.failed) fails
  | _ => exact congrArg (Option.map Outcome.failed) fails

/-- An inventory that ends by a failure fails at that time. -/
theorem failedAt_of_outcome {older : List Entry} {entry : Entry} {time : Duration}
    (fails : outcome older entry = some (.failed time)) : entry.failedAt = some time := by
  have failed_of {failed : Option Duration}
      (found : failed.map Outcome.failed = some (.failed time)) : failed = some time := by
    obtain ⟨_, rfl, same⟩ := Option.map_eq_some_iff.mp found
    cases same
    rfl
  cases entry with
  | completed inventory finished failed =>
      simp only [outcome] at fails
      cases taken : accepted older (.completed inventory finished failed) with
      | some topology =>
          simp only [taken, Option.some.injEq, reduceCtorEq] at fails
      | none =>
          simp only [taken] at fails
          exact failed_of fails
  | _ => exact failed_of fails

/-- An entry that is not accepted and does not fail ends no inventory. -/
theorem outcome_of_calm {older : List Entry} {entry : Entry}
    (refused : accepted older entry = none) (calm : entry.failedAt = none) :
    outcome older entry = none := by
  cases entry with
  | completed inventory finished failed =>
      simp only [outcome, refused]
      exact congrArg (Option.map Outcome.failed) calm
  | _ => exact congrArg (Option.map Outcome.failed) calm

/-- The latest outcome is that of the newest entry, where it has one. -/
theorem value_cons_of_some {older : List Entry} {entry : Entry} {result : Outcome}
    (ends : outcome older entry = some result) :
    Register.value outcomeEffect (entry :: older) = some result := by
  simp only [Register.value, outcomeEffect, ends, Option.elim_some]

/-- An entry without an outcome leaves the latest one. -/
theorem value_cons_of_none {older : List Entry} {entry : Entry}
    (goes : outcome older entry = none) :
    Register.value outcomeEffect (entry :: older) = Register.value outcomeEffect older := by
  simp only [Register.value, outcomeEffect, goes, Option.elim_none]

/-- The register holds the latest outcome. -/
theorem latestOutcome_of_value {history : List Entry} {result : Outcome}
    (holds : Register.value outcomeEffect history = some result) :
    LatestOutcome history result := by
  have write {older : List Entry} {entry : Entry} {written : Outcome}
      (effect : outcomeEffect older entry = .write written) :
      outcome older entry = some written := by
    unfold outcomeEffect at effect
    cases ends : outcome older entry with
    | none => rw [ends] at effect; cases effect
    | some found => rw [ends] at effect; cases effect; rfl
  have keep {older : List Entry} {entry : Entry} (effect : outcomeEffect older entry = .keep) :
      outcome older entry = none := by
    unfold outcomeEffect at effect
    cases ends : outcome older entry with
    | none => rfl
    | some found => rw [ends] at effect; cases effect
  obtain ⟨newer, entry, older, split, wrote, since⟩ := Register.value_eq_some_iff.mp holds
  exact ⟨newer, entry, older, split, write wrote, since.imp fun _ _ => keep⟩

end History

/-- The fields of the state, and the published cell, as the latest outcome leaves them. -/
def Actor.Reflects {ID : Type} [AgentxId ID] (actor : Actor ID) (failures : Nat) :
    Option Outcome → Prop
  | none => actor.state.retryNotBefore = none ∧ actor.state.lastSuccess = none
  | some (.failed time) =>
      actor.state.retryNotBefore = some (time.saturatingAdd (backoff (failures - 1)))
  | some (.accepted finished topology) => actor.state.retryNotBefore = none ∧
      actor.state.lastSuccess = some finished ∧
        actor.publication.snapshot = some (.fromTopology topology)

/-- With nothing due and no retry, the deadline is ahead: the pending one of a change, if it
comes before the reconciliation. -/
theorem State.nextDeadline_of_calm {state : State} {now success : Duration}
    (retry : state.retryNotBefore = none) (present : state.subscribed = true)
    (calm : state.needsInventory = false) (succeeded : state.lastSuccess = some success)
    (unready : ¬ state.acquisitionReady now = true) :
    now < state.nextDeadline now ∧
      state.nextDeadline now =
        min (state.eventDeadline.getD .maximum) (success.saturatingAdd state.reconcile) := by
  have ready : state.retryReady now = true := by
    rw [retryReady_iff, retry]
    exact fun _ absent => nomatch absent
  have reconciles : now < success.saturatingAdd state.reconcile := by
    by_contra passed
    exact unready (acquisitionReady_iff.mpr
      ⟨ready, .inr (.inr ⟨success, succeeded, not_lt.mp passed⟩)⟩)
  have ahead : now < state.eventDeadline.getD .maximum := by
    cases pending : state.eventDeadline with
    | none => exact reconciles.trans_le (Duration.le_maximum _)
    | some deadline =>
        by_contra passed
        exact unready (acquisitionReady_iff.mpr
          ⟨ready, .inr (.inl ⟨deadline, pending, not_lt.mp passed⟩)⟩)
  have computed : state.nextDeadline now = max
      (min (state.eventDeadline.getD .maximum) (success.saturatingAdd state.reconcile)) now := by
    simp only [nextDeadline, retry, present, calm, Bool.not_true, Bool.or_self, Bool.false_eq_true,
      ↓reduceIte, succeeded, Option.elim_some]
  have least := lt_min ahead reconciles
  rw [max_eq_left least.le] at computed
  exact ⟨computed ▸ least, computed⟩

section

variable {ID : Type} [AgentxId ID] {reconcile : Duration} {history : List Entry}
  {actor : Actor ID}

/-- A step without an outcome leaves the time of the latest success and the cell alone. -/
theorem Turn.kept {before next : Actor ID} {entry : Entry} (turn : Turn before entry next)
    (current : before.state.continuity = History.generation history)
    (refused : History.accepted history entry = none) (calm : entry.failedAt = none) :
    next.state.lastSuccess = before.state.lastSuccess ∧
      next.publication = before.publication := by
  cases turn with
  | accepted taken =>
      rw [History.accepted, ← current] at refused
      cases taken.symm.trans refused
  | rejected | ordinary | lost | waitFailed | subscribeFailed => cases calm
  | _ => exact ⟨rfl, rfl⟩

/-- Every step keeps the state in line with the latest outcome. -/
theorem Turn.reflects {before next : Actor ID} {entry : Entry}
    (earlier : Schedule reconcile history before) (turn : Turn before entry next)
    (reflects : before.Reflects (History.failures history)
      (Register.value History.outcomeEffect history)) :
    next.Reflects (History.failures (entry :: history))
      (Register.value History.outcomeEffect (entry :: history)) := by
  have current := Schedule.continuity_eq earlier
  cases turn.retries current with
  | @cleared topology taken calm retry =>
      cases turn with
      | @accepted _ _ _ finished _ inventory _ found =>
          have ends : History.outcome history (.completed inventory finished none) =
              some (.accepted finished topology) := by
            simp only [History.outcome, taken]
          rw [History.accepted, ← current] at taken
          cases found.symm.trans taken
          rw [History.value_cons_of_some ends]
          exact ⟨rfl, rfl, rfl⟩
      | rejected => cases calm
      | _ => cases taken
  | failed refused fails retry =>
      rw [History.value_cons_of_some (History.outcome_of_failed refused fails),
        History.failures_cons_of_failed refused fails]
      change next.state.retryNotBefore = some (Duration.saturatingAdd _ (backoff _))
      rw [retry, Schedule.failureDelay_eq earlier, Nat.add_sub_cancel]
  | kept refused calm retry =>
      obtain ⟨success, cell⟩ := turn.kept current refused calm
      rw [History.value_cons_of_none (History.outcome_of_calm refused calm),
        History.failures_cons_of_calm refused calm]
      unfold Actor.Reflects at reflects ⊢
      rw [retry, success, cell]
      exact reflects

/-- In every reachable state the latest outcome decides the retry, the time of the latest
success and, after a success, the cell. -/
theorem Schedule.reflects (schedule : Schedule reconcile history actor) :
    actor.Reflects (History.failures history) (Register.value History.outcomeEffect history) :=
  Trace.invariant (fun history actor => actor.Reflects (History.failures history)
      (Register.value History.outcomeEffect history))
    (fun _ begins => begins ▸ ⟨rfl, rfl⟩)
    (fun _ _ _ _ earlier reflects turn => turn.reflects earlier reflects) schedule

/-- Where no inventory is wanted, none began after the latest accepted one. -/
theorem Schedule.changesSinceStart_eq (schedule : Schedule reconcile history actor)
    (idle : ∀ now attempt, actor.point ≠ .inventorying now attempt)
    (calm : actor.state.needsInventory = false) :
    History.changesSinceStart history = History.changesSinceAccepted history := by
  revert idle calm
  refine Trace.invariant (fun history (actor : Actor ID) =>
    (∀ now attempt, actor.point ≠ .inventorying now attempt) →
    actor.state.needsInventory = false →
      History.changesSinceStart history = History.changesSinceAccepted history)
    (fun _ _ _ _ => rfl) ?_ schedule
  intro history before entry next earlier ih turn idle calm
  cases turn with
  | started => exact (idle _ _ rfl).elim
  | subscribed | subscribeFailed | rejected | ordinary | lost | waitFailed => cases calm
  | skip | subscribing | waiting | deadline | linkChanged =>
      have same := ih (fun _ _ running => by cases running) calm
      rw [History.changesSinceStart_cons (by rintro _ _ ⟨⟩), same]
      rfl
  | @accepted state publication now finished attempt inventory topology taken =>
      have current := Schedule.continuity_eq earlier
      have found : History.accepted history (.completed inventory finished none) =
          some topology := by
        rw [History.accepted, ← current]
        exact taken
      obtain ⟨_, _, older, rfl⟩ := Schedule.inventorying earlier rfl
      simp only [History.changesSinceStart, History.changesSinceAccepted, found,
        Option.isSome_some, ↓reduceIte]

/-- Without a failure since, the loop waits subscribed, with nothing due. -/
theorem Schedule.waits_calm (schedule : Schedule reconcile history actor) {now timeout : Duration}
    (waiting : actor.point = .waiting now timeout) (retry : actor.state.retryNotBefore = none) :
    actor.state.subscribed = true ∧ actor.state.needsInventory = false ∧
      ¬ actor.state.acquisitionReady now = true := by
  obtain ⟨_, idle⟩ := schedule.waiting waiting
  have settled := schedule.settled
  unfold Actor.Settled at settled
  rw [waiting] at settled
  have present : actor.state.subscribed = true := by
    by_contra missing
    have pending := settled.2 (Bool.not_eq_true _ ▸ missing)
    rw [retry] at pending
    cases pending
  have unready (ready : actor.state.acquisitionReady now = true) := idle ⟨present, ready⟩
  refine ⟨present, ?_, unready⟩
  by_contra needs
  refine unready (State.acquisitionReady_iff.mpr ⟨?_, .inl (Bool.not_eq_false _ ▸ needs)⟩)
  rw [State.retryReady_iff, retry]
  exact fun _ absent => nomatch absent

/-- The pending event deadline, against the changes since the latest accepted inventory. -/
theorem Schedule.eventDeadline_of_calm (schedule : Schedule reconcile history actor)
    {now timeout : Duration} (waiting : actor.point = .waiting now timeout)
    (calm : actor.state.needsInventory = false) :
    (History.changesSinceAccepted history = [] → actor.state.eventDeadline = none) ∧
    (∀ first, (History.changesSinceAccepted history).head? = some first →
      ∃ deadline, actor.state.eventDeadline = some deadline ∧
        deadline.nanos ≤ first.nanos + maxDelay.nanos) := by
  have same := schedule.changesSinceStart_eq
    (fun _ _ running => nomatch waiting.symm.trans running) calm
  rw [← same]
  refine ⟨fun none => ?_, fun first => schedule.eventDeadline_le⟩
  have opening := History.opening_marks history
  rw [none, List.head?_nil, Option.map_eq_none_iff] at opening
  rw [schedule.follows.eventDeadline, Timeline.deadline, opening, Option.map_none]

end

/-- **Freshness.** A sleep of the loop has an end that it is computed from. If the latest
outcome is a failure, the end is its retry: the time of the failure and the backoff of the
failures in a row. If it is an accepted inventory, the cell holds its table, and the table
is younger than the reconciliation interval all through the sleep, and than thirty seconds
against the first change delivered since the inventory began. Without a change the sleep
lasts until the reconciliation. There is no third case. -/
theorem Run.wait_fresh {σ ID : Type} [AgentxId ID] [Acquisition σ] {source : σ}
    {reconcile : Duration} {history : List Entry} {monitor : Monitor σ ID}
    (run : Run source reconcile history monitor) {now timeout : Duration}
    (waiting : monitor.actor.point = .waiting now timeout) :
    ∃ due, timeout = due.saturatingSub now ∧
      ((∃ time, History.LatestOutcome history (.failed time) ∧
          due = max (time.saturatingAdd (backoff (History.failures history - 1))) now) ∨
        ∃ finished topology, History.LatestOutcome history (.accepted finished topology) ∧
          monitor.actor.publication.snapshot = some (.fromTopology topology) ∧
          now < due ∧ due ≤ finished.saturatingAdd reconcile ∧
          (∀ first, (History.changesSinceAccepted history).head? = some first →
            due.nanos ≤ first.nanos + 30 * 10 ^ 9) ∧
          (History.changesSinceAccepted history = [] →
            due = finished.saturatingAdd reconcile)) := by
  have schedule := run.schedule
  have reflects := schedule.reflects
  obtain ⟨computed, _⟩ := schedule.waiting waiting
  refine ⟨_, computed, ?_⟩
  cases value : Register.value History.outcomeEffect history with
  | none =>
      rw [value] at reflects
      obtain ⟨_, calm, _⟩ := schedule.waits_calm waiting reflects.1
      have settled := schedule.settled
      unfold Actor.Settled at settled
      rw [waiting] at settled
      have succeeded := settled.1.success_of_calm calm
      rw [reflects.2] at succeeded
      cases succeeded
  | some result =>
      have latest := History.latestOutcome_of_value value
      rw [value] at reflects
      cases result with
      | failed time =>
          refine .inl ⟨time, latest, ?_⟩
          simp only [State.nextDeadline, show monitor.actor.state.retryNotBefore = _ from reflects]
      | accepted finished topology =>
          obtain ⟨retry, success, snapshot⟩ := reflects
          obtain ⟨present, calm, unready⟩ := schedule.waits_calm waiting retry
          obtain ⟨quiet, changed⟩ := schedule.eventDeadline_of_calm waiting calm
          obtain ⟨ahead, due⟩ := State.nextDeadline_of_calm retry present calm success unready
          rw [schedule.reconcile_eq] at due
          refine .inr ⟨finished, topology, latest, snapshot, ahead, due ▸ min_le_right _ _, ?_, ?_⟩
          · intro first opens
            obtain ⟨deadline, pending, near⟩ := changed first opens
            rw [due, pending]
            exact (Duration.le_def.mp (min_le_left deadline _)).trans near
          · intro none
            rw [due, quiet none]
            exact min_eq_right (Duration.le_maximum _)

/-- After one inventory and one change, the loop sleeps on a fresh table. -/
theorem Run.wait_fresh_changed :
    ∃ history, ∃ monitor : Monitor Script PlainId,
      Run Script.changed (.fromSecs 3600) history monitor ∧
        monitor.actor.point = .waiting .zero (.fromSecs 6) ∧
        ∃ due : Duration, Duration.fromSecs 6 = due.saturatingSub .zero ∧
          due.nanos ≤ (Duration.fromSecs 5).nanos + 30 * 10 ^ 9 ∧
          ∃ topology, monitor.actor.publication.snapshot = some (.fromTopology topology) := by
  obtain ⟨history, monitor, run, waiting, calm, changes⟩ :=
    Run.of_shown Script.changed (.fromSecs 3600) 9
      (fun history (monitor : Monitor Script PlainId) =>
        monitor.actor.point = .waiting .zero (.fromSecs 6) ∧
          (∀ entry ∈ history, entry.failedAt = none) ∧
          History.changesSinceAccepted history = [.fromSecs 5]) (by decide +kernel)
  refine ⟨history, monitor, run, waiting, ?_⟩
  obtain ⟨due, computed, ⟨time, latest, _⟩ | ⟨finished, topology, _, snapshot, _, _, near, _⟩⟩ :=
    run.wait_fresh waiting
  · obtain ⟨newer, entry, older, split, fails, _⟩ := latest
    have quiet := calm entry (split ▸ List.mem_append_right _ List.mem_cons_self)
    exact nomatch quiet.symm.trans (History.failedAt_of_outcome fails)
  · exact ⟨due, computed, near (.fromSecs 5) (changes ▸ rfl), topology, snapshot⟩

end IfStack
