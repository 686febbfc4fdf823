import IfStack.Monitor.Backoff
import IfStack.Monitor.History

/-! # The event fields and the timeline they follow

Three fields of the state serve the event backoff: the pending deadline, the
current delay and the time of the latest change. They depend only on the order of
two kinds of marks, the starts of inventories and the changes delivered. This
module reads the fields off that timeline, in every state of every run.
-/

namespace IfStack

open Foundation

/-- A start of an inventory, or a link change. -/
inductive Mark
  | start
  | change (time : Duration)
deriving DecidableEq

namespace Timeline

/-- The time of the latest change. -/
def lastChange : List Mark → Option Duration
  | [] => none
  | .start :: older => lastChange older
  | .change time :: _ => some time

/-- A change comes after a quiet gap: it is the first, or at least `eventReset`
later than the change before it. -/
def QuietGap (older : List Mark) (time : Duration) : Prop :=
  ∀ last ∈ lastChange older, last.nanos + eventReset.nanos ≤ time.nanos

instance (older : List Mark) (time : Duration) : Decidable (QuietGap older time) :=
  inferInstanceAs (Decidable (∀ last ∈ lastChange older, _))

/-- The first change since the latest start, and what came before it. -/
def opening : List Mark → Option (Duration × List Mark)
  | .change time :: older => some ((opening older).getD (time, older))
  | _ => none

/-- The starts, since the latest change after a quiet gap, that took a pending
change. -/
def rung : List Mark → Nat
  | [] => 0
  | .start :: older => rung older + if (opening older).isSome then 1 else 0
  | .change time :: older => if QuietGap older time then 0 else rung older

/-- The deadline of the pending changes: that of the first of them, with the
backoff it met. -/
def deadline (marks : List Mark) : Option Duration :=
  (opening marks).map fun (first, older) =>
    first.saturatingAdd (backoff (rung (.change first :: older)))

/-- There is a deadline just when a change opens a window. -/
theorem deadline_isSome (marks : List Mark) :
    (deadline marks).isSome = (opening marks).isSome :=
  Option.isSome_map

/-- A change after a quiet gap starts at the first rung. -/
theorem rung_of_quietGap {older : List Mark} {time : Duration} (quiet : QuietGap older time) :
    rung (.change time :: older) = 0 := by
  simp only [rung, quiet, ↓reduceIte]

/-- A change without a quiet gap stays on the rung. -/
theorem rung_of_not_quietGap {older : List Mark} {time : Duration}
    (busy : ¬ QuietGap older time) : rung (.change time :: older) = rung older := by
  simp only [rung, busy, ↓reduceIte]

end Timeline

/-- The event fields are the ones the timeline gives. -/
structure State.Follows (state : State) (marks : List Mark) : Prop where
  lastEvent : state.lastEvent = Timeline.lastChange marks
  eventDelay : state.eventDelay = backoff (Timeline.rung marks)
  eventDeadline : state.eventDeadline = Timeline.deadline marks

/-- The fields of the event backoff. -/
def State.eventFields (state : State) : Option Duration × Duration × Option Duration :=
  (state.eventDeadline, state.eventDelay, state.lastEvent)

namespace State

variable {state other : State} {marks : List Mark}

/-- What a state follows depends on its event fields alone. -/
theorem Follows.congr (follows : state.Follows marks)
    (same : other.eventFields = state.eventFields) : other.Follows marks := by
  simp only [eventFields, Prod.mk.injEq] at same
  obtain ⟨deadline, delay, last⟩ := same
  exact ⟨last.trans follows.lastEvent, delay.trans follows.eventDelay,
    deadline.trans follows.eventDeadline⟩

/-- A start takes the pending changes and climbs the ladder if there are any. -/
theorem Follows.startAcquisition (follows : state.Follows marks) :
    state.startAcquisition.Follows (.start :: marks) where
  lastEvent := follows.lastEvent
  eventDelay := by
    simp only [State.startAcquisition, follows.eventDeadline, Timeline.deadline_isSome,
      follows.eventDelay, Timeline.rung]
    cases (Timeline.opening marks).isSome with
    | true => simp only [↓reduceIte, nextDelay_backoff]
    | false => simp only [Bool.false_eq_true, ↓reduceIte, Nat.add_zero]
  eventDeadline := rfl

/-- The reset test of `record_event` is the quiet gap. -/
theorem Follows.reset_iff (follows : state.Follows marks) (time : Duration) :
    state.lastEvent.all (fun last => decide (eventReset ≤ time.saturatingSub last)) = true ↔
      Timeline.QuietGap marks time := by
  have reset : 0 < eventReset.nanos := by decide
  rw [follows.lastEvent, Timeline.QuietGap]
  cases Timeline.lastChange marks with
  | none => simp
  | some last =>
      simp only [Option.all_some, decide_eq_true_eq, Duration.le_def,
        Duration.saturatingSub_nanos, Option.mem_some_iff, forall_eq']
      omega

/-- The delay a change meets. -/
theorem Follows.recordEvent_eventDelay (follows : state.Follows marks) (time : Duration) :
    (state.recordEvent time).eventDelay = backoff (Timeline.rung (.change time :: marks)) := by
  by_cases quiet : Timeline.QuietGap marks time
  · simp only [State.recordEvent, (follows.reset_iff time).mpr quiet, ↓reduceIte,
      Timeline.rung_of_quietGap quiet, initialDelay_eq]
  · have busy := mt (follows.reset_iff time).mp quiet
    simp only [State.recordEvent, busy, Bool.false_eq_true, ↓reduceIte,
      Timeline.rung_of_not_quietGap quiet, follows.eventDelay]

/-- A change sets the deadline when none is pending, and the delay it meets. -/
theorem Follows.recordEvent (follows : state.Follows marks) (time : Duration) :
    (state.recordEvent time).Follows (.change time :: marks) where
  lastEvent := rfl
  eventDelay := follows.recordEvent_eventDelay time
  eventDeadline := by
    change some (state.eventDeadline.getD
      (time.saturatingAdd (state.recordEvent time).eventDelay)) = _
    rw [follows.recordEvent_eventDelay, follows.eventDeadline]
    simp only [Timeline.deadline, Timeline.opening]
    cases Timeline.opening marks <;> rfl

/-- A state that follows the marks follows those of recorded changes too. -/
theorem Follows.recordAll (follows : state.Follows marks) (times : List Duration) :
    (state.recordAll times).Follows ((times.map Mark.change).reverse ++ marks) := by
  induction times generalizing state marks with
  | nil => exact follows
  | cons time times ih =>
      rw [List.map_cons, List.reverse_cons, List.append_assoc]
      exact ih (follows.recordEvent time)

end State

namespace History

/-- What an entry adds to the timeline, newest first. -/
def marksOf (older : List Entry) (entry : Entry) : List Mark :=
  match entry with
  | .started .. => [.start]
  | entry => ((changes older entry).map Mark.change).reverse

/-- The timeline of a history, newest first. -/
def marks : List Entry → List Mark
  | [] => []
  | entry :: older => marksOf older entry ++ marks older

/-- An entry other than a start marks its changes. -/
theorem marks_cons {entry : Entry} (other : ∀ now attempt, entry ≠ .started now attempt)
    (older : List Entry) :
    marks (entry :: older) = ((changes older entry).map Mark.change).reverse ++ marks older := by
  cases entry with
  | started now attempt => exact (other now attempt rfl).elim
  | _ => rfl

end History

section

variable {ID : Type} [AgentxId ID] {reconcile : Duration} {history : List Entry}
  {actor : Actor ID}

/-- Apart from a start, a step changes the event fields by recording the changes
it delivers, and in no other way. -/
theorem Turn.eventFields_eq {before next : Actor ID} {entry : Entry}
    (turn : Turn before entry next) (current : before.state.continuity = History.generation history)
    (other : ∀ now attempt, entry ≠ .started now attempt) :
    next.state.eventFields =
      (before.state.recordAll (History.changes history entry)).eventFields := by
  cases turn with
  | started => exact (other _ _ rfl).elim
  | accepted | rejected =>
      simp only [History.changes, ← current]
      rfl
  | _ => rfl

/-- In every reachable state the event fields follow the timeline. -/
theorem Schedule.follows (schedule : Schedule reconcile history actor) :
    actor.state.Follows (History.marks history) := by
  refine Trace.invariant
    (fun history actor => actor.state.Follows (History.marks history))
    (fun _ begins => begins ▸ ⟨rfl, initialDelay_eq, rfl⟩) ?_ schedule
  intro history before entry next earlier follows turn
  have current := Schedule.continuity_eq earlier
  by_cases starts : ∃ now attempt, entry = .started now attempt
  · obtain ⟨now, attempt, rfl⟩ := starts
    cases turn with
    | started => exact follows.startAcquisition
  · have other : ∀ now attempt, entry ≠ .started now attempt :=
      fun now attempt named => starts ⟨now, attempt, named⟩
    rw [History.marks_cons other]
    exact (follows.recordAll _).congr (turn.eventFields_eq current other)

end
end IfStack
