import IfStack.Monitor.Script
import IfStack.Monitor.Timeline

/-! # No change is lost

A change delivered since the latest accepted inventory began is still to be
served, and the loop does not sleep long past it: the deadline stays within the
longest delay of the first change, unless failures hold it back.
-/

namespace IfStack

open Foundation

namespace History

/-- The changes delivered since the start of the latest accepted inventory, in
order. Those of the inventory's own batch came after its start. -/
def changesSinceAccepted : List Entry → List Duration
  | [] => []
  | entry :: older =>
      (if (accepted older entry).isSome then [] else changesSinceAccepted older) ++
        changes older entry

/-- The changes delivered since the start of the latest inventory, in order. -/
def changesSinceStart : List Entry → List Duration
  | [] => []
  | .started .. :: _ => []
  | entry :: older => changesSinceStart older ++ changes older entry

/-- An entry other than a start adds its changes to those since the start. -/
theorem changesSinceStart_cons {entry : Entry}
    (other : ∀ now attempt, entry ≠ .started now attempt) (older : List Entry) :
    changesSinceStart (entry :: older) = changesSinceStart older ++ changes older entry := by
  cases entry with
  | started now attempt => exact (other now attempt rfl).elim
  | _ => rfl

end History

/-- Of several changes the first becomes the opening, if none was pending. -/
theorem Timeline.opening_append (times : List Duration) (marks : List Mark) :
    (opening ((times.map Mark.change).reverse ++ marks)).map Prod.fst =
      ((opening marks).map Prod.fst).or times.head? := by
  induction times generalizing marks with
  | nil => simp
  | cons time times ih =>
      rw [List.map_cons, List.reverse_cons, List.append_assoc, List.singleton_append, ih]
      simp only [opening]
      cases opening marks <;> simp

/-- The opening of the timeline is the first change since the latest start. -/
theorem History.opening_marks (history : List Entry) :
    (Timeline.opening (marks history)).map Prod.fst = (changesSinceStart history).head? := by
  induction history with
  | nil => rfl
  | cons entry older ih =>
      by_cases starts : ∃ now attempt, entry = .started now attempt
      · obtain ⟨now, attempt, rfl⟩ := starts
        rfl
      · have other : ∀ now attempt, entry ≠ .started now attempt :=
          fun now attempt named => starts ⟨now, attempt, named⟩
        rw [marks_cons other, changesSinceStart_cons other, List.head?_append, ← ih]
        exact Timeline.opening_append _ _

/-- After a change is recorded, event work is due at some time. -/
theorem State.recordAll_eventDeadline_isSome {state : State} {times : List Duration}
    (some : times ≠ []) : (state.recordAll times).eventDeadline.isSome := by
  induction times generalizing state with
  | nil => exact (some rfl).elim
  | cons time times ih =>
      cases times with
      | nil => rfl
      | cons next rest => exact ih (List.cons_ne_nil _ _)

section

variable {ID : Type} [AgentxId ID] {reconcile : Duration} {history : List Entry}
  {actor : Actor ID}

/-- Unless an inventory runs, what has changed since the latest accepted one is
pending. -/
theorem Schedule.pending_of_changes (schedule : Schedule reconcile history actor)
    (idle : ∀ now attempt, actor.point ≠ .inventorying now attempt)
    (changed : History.changesSinceAccepted history ≠ []) :
    actor.state.needsInventory = true ∨ actor.state.eventDeadline.isSome := by
  revert idle changed
  refine Trace.invariant (fun history (actor : Actor ID) =>
    (∀ now attempt, actor.point ≠ .inventorying now attempt) →
    History.changesSinceAccepted history ≠ [] →
      actor.state.needsInventory = true ∨ actor.state.eventDeadline.isSome)
    (fun _ _ _ changed => (changed rfl).elim) ?_ schedule
  intro history before entry next earlier ih turn idle changed
  have current := Schedule.continuity_eq earlier
  cases turn with
  | started => exact (idle _ _ rfl).elim
  | subscribed | subscribeFailed | rejected | ordinary | lost | waitFailed => exact Or.inl rfl
  | linkChanged => exact Or.inr rfl
  | skip | subscribing | waiting | deadline =>
      refine ih (fun _ _ running => by cases running) fun none => changed ?_
      simp only [History.changesSinceAccepted, History.accepted, Option.isSome_none,
        Bool.false_eq_true, ↓reduceIte, History.changes, List.append_nil, none]
  | @accepted state _ _ _ _ _ _ taken =>
      change state.continuity = _ at current
      refine Or.inr (State.recordAll_eventDeadline_isSome fun none => changed ?_)
      rw [current] at taken none
      simp only [History.changesSinceAccepted, History.accepted, taken, Option.isSome_some,
        ↓reduceIte, List.nil_append, History.changes, none]

/-- A pending deadline is at most the longest delay after the first change. -/
theorem Schedule.eventDeadline_le (schedule : Schedule reconcile history actor) {first : Duration}
    (opens : (History.changesSinceStart history).head? = some first) :
    ∃ deadline, actor.state.eventDeadline = some deadline ∧
      deadline.nanos ≤ first.nanos + maxDelay.nanos := by
  rw [← History.opening_marks] at opens
  obtain ⟨⟨first, older⟩, opening, rfl⟩ := Option.map_eq_some_iff.mp opens
  have capped := backoff_le_maxDelay (Timeline.rung (.change first :: older))
  refine ⟨first.saturatingAdd (backoff (Timeline.rung (.change first :: older))), ?_, ?_⟩
  · rw [schedule.follows.eventDeadline, Timeline.deadline, opening]
    rfl
  · rw [Duration.le_def] at capped
    exact (Nat.min_le_left _ _).trans (Nat.add_le_add_left capped _)

end

/-- With a pending event the loop never sleeps past it, except for a retry. -/
theorem State.nextDeadline_le_of_event {state : State} {deadline : Duration}
    (pending : state.eventDeadline = some deadline) (now : Duration) :
    (state.nextDeadline now).nanos ≤
      max now.nanos (max (state.retryNotBefore.elim 0 Duration.nanos) deadline.nanos) := by
  unfold nextDeadline
  cases state.retryNotBefore with
  | some retry =>
      simp only [Option.elim_some, Duration.max_nanos]
      omega
  | none =>
      simp only [pending, Option.getD_some, Option.elim_none]
      split
      · exact Nat.le_max_left _ _
      · simp only [Duration.max_nanos, Duration.min_nanos]
        omega

/-- **No change is lost.** At the top of the loop, a change delivered since the
start of the latest accepted inventory is pending; and the loop does not sleep
past the longest delay after the first change since the latest start, except for
a retry. -/
theorem Run.change_pending {σ ID : Type} [AgentxId ID] [Acquisition σ] {source : σ}
    {reconcile : Duration} {history : List Entry} {monitor : Monitor σ ID}
    (run : Run source reconcile history monitor) (top : monitor.actor.point = .head) :
    (History.changesSinceAccepted history ≠ [] →
      monitor.actor.state.needsInventory = true ∨ monitor.actor.state.eventDeadline.isSome) ∧
    (∀ first, (History.changesSinceStart history).head? = some first → ∀ now,
      (monitor.actor.state.nextDeadline now).nanos ≤ max now.nanos
        (max (monitor.actor.state.retryNotBefore.elim 0 Duration.nanos)
          (first.nanos + 30 * 10 ^ 9))) := by
  have schedule := run.schedule
  refine ⟨schedule.pending_of_changes (fun _ _ running => nomatch top.symm.trans running), ?_⟩
  intro first opens now
  obtain ⟨deadline, pending, near⟩ := schedule.eventDeadline_le opens
  have slept := State.nextDeadline_le_of_event pending now
  have longest : maxDelay.nanos = 30 * 10 ^ 9 := rfl
  omega

/-- After a change five seconds in, the loop looks again within 35 seconds. -/
theorem Run.change_pending_changed :
    ∃ history, ∃ monitor : Monitor Script PlainId,
      Run Script.changed (.fromSecs 3600) history monitor ∧
        monitor.actor.state.eventDeadline.isSome ∧
        (monitor.actor.state.nextDeadline .zero).nanos ≤ 35 * 10 ^ 9 := by
  obtain ⟨history, monitor, run, top, calm, unfailed, accepted, started⟩ :=
    Run.of_shown Script.changed (.fromSecs 3600) 7
      (fun history (monitor : Monitor Script PlainId) =>
        monitor.actor.point = .head ∧ monitor.actor.state.needsInventory = false ∧
          monitor.actor.state.retryNotBefore = none ∧
          History.changesSinceAccepted history = [.fromSecs 5] ∧
          History.changesSinceStart history = [.fromSecs 5]) (by decide +kernel)
  obtain ⟨pending, near⟩ := run.change_pending top
  refine ⟨history, monitor, run, ?_, ?_⟩
  · rcases pending (accepted ▸ List.cons_ne_nil _ _) with needs | waits
    · exact nomatch calm.symm.trans needs
    · exact waits
  · have bound := near (.fromSecs 5) (started ▸ rfl) .zero
    rw [unfailed] at bound
    exact bound.trans (by decide)

end IfStack
