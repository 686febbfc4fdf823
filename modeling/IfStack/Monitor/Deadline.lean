import IfStack.Monitor.History
import IfStack.Monitor.Script

/-! # The sleep deadline and readiness agree

`next_deadline` and the two readiness predicates are written apart. In every
state in which the loop waits they agree: work is due at a time exactly when the
deadline has passed. So the loop neither oversleeps nor spins.
-/

namespace IfStack

open Foundation

/-- There is work to do: a subscription is missing and due, or an inventory is due. -/
def State.workDue (state : State) (time : Duration) : Bool :=
  !state.subscribed && state.retryReady time || state.subscribed && state.acquisitionReady time

/-- What holds of the state wherever no inventory runs. -/
structure State.Settled (state : State) : Prop where
  needs_of_retry : state.retryNotBefore.isSome → state.needsInventory = true
  success_of_calm : state.needsInventory = false → state.lastSuccess.isSome

/-- What holds of the loop at each point. Past the subscription half, a missing
subscription has a retry time. -/
def Actor.Settled {ID : Type} [AgentxId ID] (actor : Actor ID) : Prop :=
  match actor.point with
  | .inventorying .. => True
  | .head | .subscribing _ => actor.state.Settled
  | .ready | .waiting .. =>
      actor.state.Settled ∧ (actor.state.subscribed = false → actor.state.retryNotBefore.isSome)

/-- A failure keeps the state settled. -/
theorem State.settled_fail (state : State) (now : Duration) : (state.fail now).Settled :=
  ⟨fun _ => rfl, fun calm => (nomatch calm)⟩

/-- An event keeps the state settled. -/
theorem State.settled_recordEvent {state : State} (settled : state.Settled) (time : Duration) :
    (state.recordEvent time).Settled :=
  ⟨settled.needs_of_retry, settled.success_of_calm⟩

section

variable {ID : Type} [AgentxId ID] {reconcile : Duration} {history : List Entry}
  {actor : Actor ID}

/-- Every turn keeps the loop settled. -/
theorem Turn.settled {before next : Actor ID} {entry : Entry} (turn : Turn before entry next)
    (settled : before.Settled) : next.Settled := by
  cases turn with
  | @skip state _ now idle =>
      refine ⟨settled, fun missing => ?_⟩
      cases retry : state.retryNotBefore with
      | some deadline => rfl
      | none =>
          have ready : state.retryReady now = true := by simp [retry]
          exact (idle ⟨missing, ready⟩).elim
  | subscribing => exact settled
  | subscribed =>
      exact ⟨⟨fun _ => rfl, fun calm => (nomatch calm)⟩, fun missing => (nomatch missing)⟩
  | subscribeFailed => exact ⟨State.settled_fail _ _, fun _ => rfl⟩
  | started => trivial
  | accepted => exact ⟨fun retry => (nomatch retry), fun _ => rfl⟩
  | rejected | ordinary | lost | waitFailed => exact State.settled_fail _ _
  | waiting => exact settled
  | deadline => exact settled.1
  | linkChanged => exact State.settled_recordEvent settled.1 _

/-- An actor on schedule is settled. -/
theorem Schedule.settled (schedule : Schedule reconcile history actor) : actor.Settled :=
  Trace.invariant (fun _ actor => actor.Settled)
    (fun _ begins => begins ▸ ⟨fun retry => (nomatch retry), fun calm => (nomatch calm)⟩)
    (fun _ _ _ _ _ settled turn => turn.settled settled) schedule

/-- The loop waits on a state that had nothing to do at the second reading, with
the timeout computed from it. -/
theorem Schedule.waiting (schedule : Schedule reconcile history actor) {now timeout : Duration}
    (waiting : actor.point = .waiting now timeout) :
    timeout = (actor.state.nextDeadline now).saturatingSub now ∧
      ¬ (actor.state.subscribed = true ∧ actor.state.acquisitionReady now = true) := by
  cases schedule with
  | start begins =>
      subst begins
      cases waiting
  | turn _ turn =>
      cases turn with
      | waiting idle => cases waiting; exact ⟨rfl, idle⟩
      | _ => cases waiting

end

namespace State

variable {state : State} {now time : Duration}

/-- A pending retry decides both readiness and the deadline. -/
theorem workDue_iff_of_retry {deadline : Duration} (settled : state.Settled)
    (retry : state.retryNotBefore = some deadline) (later : now ≤ time) :
    state.workDue time = true ↔ state.nextDeadline now ≤ time := by
  have needs : state.needsInventory = true := settled.needs_of_retry (by rw [retry]; rfl)
  have ready : state.acquisitionReady time = state.retryReady time := by
    rw [Bool.eq_iff_iff, acquisitionReady_iff]
    exact ⟨And.left, fun due => ⟨due, Or.inl needs⟩⟩
  have work : state.workDue time = state.retryReady time := by
    unfold workDue
    rw [ready]
    cases state.subscribed <;> simp
  rw [work, retryReady_iff, retry]
  simp [nextDeadline, retry, later]

/-- Without a retry the loop waits subscribed, for an event or for reconciliation. -/
theorem workDue_iff_of_no_retry (settled : state.Settled) (retry : state.retryNotBefore = none)
    (present : state.subscribed = true)
    (idle : ¬ (state.subscribed = true ∧ state.acquisitionReady now = true)) (later : now ≤ time) :
    state.workDue time = true ↔ state.nextDeadline now ≤ time := by
  have ready (moment : Duration) : state.retryReady moment = true := by simp [retry]
  have calm : state.needsInventory = false := by
    by_contra needs
    rw [Bool.not_eq_false] at needs
    exact idle ⟨present, acquisitionReady_iff.mpr ⟨ready now, Or.inl needs⟩⟩
  obtain ⟨success, succeeded⟩ := Option.isSome_iff_exists.mp (settled.success_of_calm calm)
  have work : state.workDue time = true ↔ state.acquisitionReady time = true := by
    simp [workDue, present]
  have atMost := Duration.le_maximum (success.saturatingAdd state.reconcile)
  rw [work, acquisitionReady_iff]
  simp only [ready, calm, succeeded, true_and, Bool.false_eq_true, false_or, nextDeadline, retry,
    present, Bool.not_true, Bool.or_false, ↓reduceIte, Option.elim_some, max_le_iff, later,
    and_true, min_le_iff, Option.mem_some_iff, exists_eq_left']
  cases state.eventDeadline with
  | none =>
      simp only [Option.not_mem_none, false_and, exists_false, false_or, Option.getD_none]
      exact ⟨Or.inr, fun due => due.elim atMost.trans id⟩
  | some deadline => simp

/-- Readiness and the deadline agree wherever the loop waits. -/
theorem workDue_iff (settled : state.Settled)
    (retried : state.subscribed = false → state.retryNotBefore.isSome)
    (idle : ¬ (state.subscribed = true ∧ state.acquisitionReady now = true)) (later : now ≤ time) :
    state.workDue time = true ↔ state.nextDeadline now ≤ time := by
  cases retry : state.retryNotBefore with
  | some deadline => exact workDue_iff_of_retry settled retry later
  | none =>
      have present : state.subscribed = true := by
        by_contra missing
        rw [Bool.not_eq_true] at missing
        have pending := retried missing
        rw [retry] at pending
        cases pending
      exact workDue_iff_of_no_retry settled retry present idle later

/-- No deadline is before the reading it is computed from. -/
theorem le_nextDeadline (state : State) (now : Duration) : now ≤ state.nextDeadline now := by
  unfold nextDeadline
  split
  · exact le_max_right _ _
  · split
    · exact le_rfl
    · exact le_max_right _ _

/-- Readiness for an inventory lasts until the state changes. -/
theorem acquisitionReady_mono (later : now ≤ time) (ready : state.acquisitionReady now = true) :
    state.acquisitionReady time = true := by
  rw [acquisitionReady_iff] at ready ⊢
  obtain ⟨retried, due⟩ := ready
  refine ⟨retryReady_iff.mpr fun deadline pending =>
    (retryReady_iff.mp retried deadline pending).trans later, ?_⟩
  rcases due with needs | ⟨deadline, pending, passed⟩ | ⟨success, succeeded, passed⟩
  · exact Or.inl needs
  · exact Or.inr (Or.inl ⟨deadline, pending, passed.trans later⟩)
  · exact Or.inr (Or.inr ⟨success, succeeded, passed.trans later⟩)

end State

section

variable {σ ID : Type} [AgentxId ID] [Acquisition σ] {monitor next : Monitor σ ID}
  {entry : Entry}

/-- At the head of the loop the monitor can step. -/
theorem Monitor.exists_step_of_head (top : monitor.actor.point = .head) :
    ∃ entry next, monitor.step = some (entry, next) :=
  ⟨monitor.head.1, monitor.head.2, by rw [Monitor.step, top]⟩

/-- At the point `ready` the monitor can step. -/
theorem Monitor.exists_step_of_ready (second : monitor.actor.point = .ready) :
    ∃ entry next, monitor.step = some (entry, next) :=
  ⟨monitor.ready.1, monitor.ready.2, by rw [Monitor.step, second]⟩

/-- At the top of the loop a due subscription starts; anything else that is due
is left to the second reading. -/
theorem Monitor.head_of_workDue (top : monitor.actor.point = .head)
    (moved : monitor.step = some (entry, next))
    (due : ∀ reading ∈ entry.readings, monitor.actor.state.workDue reading = true) :
    ∃ reading, entry = .subscribing reading ∨
      entry = .skipped reading ∧ next.actor.point = .ready ∧
        next.actor.state = monitor.actor.state ∧ monitor.actor.state.subscribed = true ∧
          monitor.actor.state.acquisitionReady reading = true := by
  obtain ⟨source, ⟨point, state, publication⟩⟩ := monitor
  cases top
  have turn := Monitor.turn_of_step moved
  obtain ⟨after, actor⟩ := next
  cases turn with
  | subscribing => exact ⟨_, Or.inl rfl⟩
  | @skip _ _ now idle =>
      have work := due now (List.mem_singleton.mpr rfl)
      simp only [State.workDue, Bool.or_eq_true, Bool.and_eq_true, Bool.not_eq_true'] at work
      rcases work with subscription | inventory
      · exact (idle subscription).elim
      · exact ⟨now, Or.inr ⟨rfl, rfl, rfl, inventory⟩⟩

/-- At the second reading a due inventory starts. -/
theorem Monitor.started_of_acquisitionReady (second : monitor.actor.point = .ready)
    (present : monitor.actor.state.subscribed = true)
    (moved : monitor.step = some (entry, next))
    (due : ∀ reading ∈ entry.readings, monitor.actor.state.acquisitionReady reading = true) :
    ∃ reading attempt, entry = .started reading attempt := by
  obtain ⟨source, ⟨point, state, publication⟩⟩ := monitor
  cases second
  have turn := Monitor.turn_of_step moved
  obtain ⟨after, actor⟩ := next
  cases turn with
  | started => exact ⟨_, _, rfl⟩
  | waiting idle => exact (idle ⟨present, due _ (List.mem_singleton.mpr rfl)⟩).elim

/-- A wait that runs out is followed by a subscription or an inventory, on a clock
that has reached the end of the wait and does not run backwards. -/
def Monitor.ActsOnExpiry (monitor : Monitor σ ID) (now timeout : Duration) : Prop :=
  ∀ expired, monitor.step = some (.deadline, expired) →
    ∃ entry next, expired.step = some (entry, next) ∧
      ((∀ reading ∈ entry.readings, now.nanos + timeout.nanos ≤ reading.nanos) →
        (∃ reading, entry = .subscribing reading) ∨
        ∃ reading second after, entry = .skipped reading ∧ next.step = some (second, after) ∧
          ((∀ later ∈ second.readings, reading ≤ later) →
            ∃ started attempt, second = .started started attempt))

/-- Work that falls due at the end of a wait is done right after it. -/
theorem Monitor.actsOnExpiry {now timeout : Duration}
    (waiting : monitor.actor.point = .waiting now timeout)
    (due : ∀ time, now.nanos + timeout.nanos ≤ time.nanos →
      monitor.actor.state.workDue time = true) :
    monitor.ActsOnExpiry now timeout := by
  intro expired ran
  have kept : expired.actor.point = .head ∧ expired.actor.state = monitor.actor.state := by
    have turn := Monitor.turn_of_step ran
    obtain ⟨source, actor⟩ := monitor
    obtain ⟨after, actor'⟩ := expired
    cases turn with
    | deadline => exact ⟨rfl, rfl⟩
  obtain ⟨top, same⟩ := kept
  obtain ⟨entry, next, moved⟩ := Monitor.exists_step_of_head top
  refine ⟨entry, next, moved, fun reached => ?_⟩
  obtain ⟨reading, subscribing | ⟨skipped, second, same', present, ready⟩⟩ :=
    Monitor.head_of_workDue top moved fun reading taken =>
      same ▸ due reading (reached reading taken)
  · exact Or.inl ⟨reading, subscribing⟩
  · obtain ⟨other, after, moved'⟩ := Monitor.exists_step_of_ready second
    refine Or.inr ⟨reading, other, after, skipped, moved', fun later => ?_⟩
    exact Monitor.started_of_acquisitionReady second (same' ▸ present) moved'
      fun time taken => same' ▸ State.acquisitionReady_mono (later time taken) ready

end

/-- **The deadline is exact.** Where the loop waits, there is work at a later time
exactly when the deadline has passed. So a wait of no length is one with work to
do, and a wait that runs out is followed by work. -/
theorem Run.workDue_iff_deadline {σ ID : Type} [AgentxId ID] [Acquisition σ] {source : σ}
    {reconcile : Duration} {history : List Entry} {monitor : Monitor σ ID}
    (run : Run source reconcile history monitor) {now timeout : Duration}
    (waiting : monitor.actor.point = .waiting now timeout) :
    timeout = (monitor.actor.state.nextDeadline now).saturatingSub now ∧
    (∀ time, now ≤ time →
      (monitor.actor.state.workDue time = true ↔ monitor.actor.state.nextDeadline now ≤ time)) ∧
    (timeout = .zero → monitor.actor.state.workDue now = true) ∧
    monitor.ActsOnExpiry now timeout ∧
    (monitor.actor.state.retryNotBefore.isSome → monitor.actor.state.needsInventory = true) ∧
    (monitor.actor.state.subscribed = false → monitor.actor.state.retryNotBefore.isSome) ∧
    (monitor.actor.state.needsInventory = false → monitor.actor.state.lastSuccess.isSome) := by
  have schedule := run.schedule
  obtain ⟨computed, idle⟩ := schedule.waiting waiting
  have settled := schedule.settled
  unfold Actor.Settled at settled
  rw [waiting] at settled
  obtain ⟨settled, retried⟩ := settled
  have exactly (time : Duration) (later : now ≤ time) :=
    State.workDue_iff settled retried idle later
  have ahead := State.le_nextDeadline monitor.actor.state now
  refine ⟨computed, exactly, ?_, ?_, settled.needs_of_retry, retried, settled.success_of_calm⟩
  · intro none
    apply (exactly now le_rfl).mpr
    rw [none, Duration.ext_iff] at computed
    simp only [Duration.zero_nanos, Duration.saturatingSub_nanos] at computed
    rw [Duration.le_def]
    omega
  · refine Monitor.actsOnExpiry waiting fun time passed => ?_
    rw [computed, Duration.saturatingSub_nanos] at passed
    rw [Duration.le_def] at ahead
    refine (exactly time ?_).mpr ?_
    · rw [Duration.le_def]
      omega
    · rw [Duration.le_def]
      omega

/-- A source that refuses the first subscription. -/
def Script.refused : Script where
  readings := []
  subscriptions := [.error (.other "refused")]
  inventories := []
  waits := []

/-- After a refused subscription the loop sleeps until the retry, a second later,
and there is nothing to do before. -/
theorem Run.workDue_iff_deadline_refused :
    ∃ history, ∃ monitor : Monitor Script PlainId,
      Run Script.refused (.fromSecs 3600) history monitor ∧
        monitor.actor.point = .waiting .zero (.fromSecs 1) ∧
          ∀ time, monitor.actor.state.workDue time = true ↔ Duration.fromSecs 1 ≤ time := by
  obtain ⟨history, monitor, run, waiting, deadline⟩ :=
    Run.of_shown Script.refused (.fromSecs 3600) 3
      (fun _ (monitor : Monitor Script PlainId) =>
        monitor.actor.point = .waiting .zero (.fromSecs 1) ∧
          monitor.actor.state.nextDeadline .zero = .fromSecs 1) (by decide +kernel)
  refine ⟨history, monitor, run, waiting, fun time => ?_⟩
  have exactly := (run.workDue_iff_deadline waiting).2.1 time (Nat.zero_le _)
  rwa [deadline] at exactly

end IfStack
