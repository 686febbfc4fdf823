import IfStack.Monitor.Script
import IfStack.Monitor.Timeline

/-! # The event backoff

The deadline of pending changes is that of the first of them. Its delay doubles
with every inventory that took pending changes, and starts over after a quiet
gap. No later change and no outcome of an inventory moves a pending deadline.
-/

namespace IfStack

open Foundation

namespace Timeline

/-- The starts that took a pending change. -/
def consumed : List Mark → Nat
  | [] => 0
  | .start :: older => consumed older + if (opening older).isSome then 1 else 0
  | .change _ :: older => consumed older

/-- The first change since the latest start, with what came before it. -/
def Pending (marks : List Mark) (first : Duration) (older : List Mark) : Prop :=
  ∃ newer, marks = newer ++ .change first :: older ∧ .start ∉ newer ∧
    ∀ time, older.head? ≠ some (.change time)

/-- The number of starts that took a pending change since the latest change after
a quiet gap. -/
def Climbed (marks : List Mark) (count : Nat) : Prop :=
  ∃ since quiet before, marks = since ++ .change quiet :: before ∧ QuietGap before quiet ∧
    Register.Since (fun earlier mark => ∀ time, mark = .change time → ¬ QuietGap earlier time)
      since (.change quiet :: before) ∧
    consumed marks = count + consumed before

variable {marks older : List Mark} {first : Duration}

/-- Without an opening change, the newest mark is no change. -/
theorem opening_eq_none (marks : List Mark) (calm : opening marks = none) (time : Duration) :
    marks.head? ≠ some (.change time) := by
  intro changed
  cases marks with
  | nil => cases changed
  | cons mark older =>
      cases changed
      cases calm

/-- The opening is the pending change that came first. -/
theorem pending_of_opening (opens : opening marks = some (first, older)) :
    Pending marks first older := by
  induction marks with
  | nil => cases opens
  | cons mark rest ih =>
      cases mark with
      | start => cases opens
      | change time =>
          have found : (opening rest).getD (time, rest) = (first, older) := Option.some.inj opens
          cases before : opening rest with
          | none =>
              rw [before] at found
              cases found
              exact ⟨[], rfl, List.not_mem_nil, opening_eq_none _ before⟩
          | some opened =>
              rw [before] at found
              cases found
              obtain ⟨newer, rfl, unstarted, alone⟩ := ih before
              refine ⟨.change time :: newer, rfl, ?_, alone⟩
              exact List.not_mem_cons_of_ne_of_not_mem (fun same => nomatch same) unstarted

/-- The rung counts from the latest quiet gap, once there has been a change. -/
theorem climbed_rung (changed : (lastChange marks).isSome) : Climbed marks (rung marks) := by
  induction marks with
  | nil => cases changed
  | cons mark older ih =>
      cases mark with
      | start =>
          obtain ⟨since, quiet, before, rfl, gap, busy, count⟩ := ih changed
          refine ⟨.start :: since, quiet, before, rfl, gap, Register.since_cons.mpr ⟨?_, busy⟩, ?_⟩
          · exact fun _ same => nomatch same
          · simp only [consumed, rung, count]
            omega
      | change time =>
          by_cases gap : QuietGap older time
          · refine ⟨[], time, older, rfl, gap, Register.since_nil _ _, ?_⟩
            rw [rung_of_quietGap gap, Nat.zero_add, consumed]
          · have known : (lastChange older).isSome := by
              by_contra absent
              rw [Option.not_isSome_iff_eq_none] at absent
              refine gap fun last member => ?_
              rw [absent] at member
              cases member
            obtain ⟨since, quiet, before, rfl, found, busy, count⟩ := ih known
            refine ⟨.change time :: since, quiet, before, rfl, found,
              Register.since_cons.mpr ⟨?_, busy⟩, ?_⟩
            · intro other same
              cases same
              exact gap
            · rw [rung_of_not_quietGap gap, consumed, count]

end Timeline

/-- A pending deadline is not moved by an event. -/
theorem State.recordEvent_eventDeadline_of_some {state : State} {deadline : Duration}
    (pending : state.eventDeadline = some deadline) (time : Duration) :
    (state.recordEvent time).eventDeadline = some deadline := by
  simp only [State.recordEvent, pending, Option.getD_some]

/-- Changes never move a pending deadline. -/
theorem State.recordAll_eventDeadline_of_some {state : State} {deadline : Duration}
    (pending : state.eventDeadline = some deadline) (times : List Duration) :
    (state.recordAll times).eventDeadline = some deadline := by
  induction times generalizing state with
  | nil => exact pending
  | cons time times ih => exact ih (State.recordEvent_eventDeadline_of_some pending time)

/-- A start without pending changes leaves the delay alone. -/
theorem State.startAcquisition_eventDelay_of_none {state : State}
    (calm : state.eventDeadline = none) :
    state.startAcquisition.eventDelay = state.eventDelay := by
  simp only [State.startAcquisition, calm, Option.isSome_none, Bool.false_eq_true, ↓reduceIte]

/-- **The event ladder.** A pending deadline is that of the first change since the
latest start, on the rung the timeline gives, up to the end of the range of times.
Only a change or a start touches the event fields; a pending deadline stays until a
start takes it; and a start that takes none leaves the ladder where it was. -/
theorem Run.eventDeadline_ladder {σ ID : Type} [AgentxId ID] [Acquisition σ] {source : σ}
    {reconcile : Duration} {history : List Entry} {monitor : Monitor σ ID}
    (run : Run source reconcile history monitor) :
    (monitor.actor.state.eventDeadline.isSome ↔
      (Timeline.opening (History.marks history)).isSome) ∧
    (∀ deadline, monitor.actor.state.eventDeadline = some deadline →
      ∃ first older count, Timeline.Pending (History.marks history) first older ∧
        Timeline.Climbed (.change first :: older) count ∧
        deadline.nanos = min (first.nanos + min (2 ^ count) 30 * 10 ^ 9) maxNanos) ∧
    (∀ entry next, monitor.step = some (entry, next) →
      ((∀ now attempt, entry ≠ .started now attempt) →
        next.actor.state.eventFields =
          (monitor.actor.state.recordAll (History.changes history entry)).eventFields ∧
        ∀ deadline, monitor.actor.state.eventDeadline = some deadline →
          next.actor.state.eventDeadline = some deadline) ∧
      (∀ now attempt, entry = .started now attempt →
        next.actor.state.lastEvent = monitor.actor.state.lastEvent ∧
        next.actor.state.eventDeadline = none ∧
        (monitor.actor.state.eventDeadline = none →
          next.actor.state.eventDelay = monitor.actor.state.eventDelay))) := by
  have schedule := run.schedule
  refine ⟨?_, ?_, ?_⟩
  · rw [schedule.follows.eventDeadline, Timeline.deadline_isSome]
  · intro deadline pending
    have timed := schedule.follows.eventDeadline.symm.trans pending
    obtain ⟨⟨first, older⟩, opens, computed⟩ := Option.map_eq_some_iff.mp timed
    refine ⟨first, older, Timeline.rung (.change first :: older),
      Timeline.pending_of_opening opens, Timeline.climbed_rung rfl, ?_⟩
    rw [← computed]
    rfl
  · intro entry next moved
    have turn := Monitor.turn_of_step moved
    refine ⟨fun other => ?_, ?_⟩
    · have fields := turn.eventFields_eq schedule.continuity_eq other
      refine ⟨fields, fun deadline pending => ?_⟩
      have kept := State.recordAll_eventDeadline_of_some pending (History.changes history entry)
      exact (congrArg Prod.fst fields).trans kept
    · rintro now attempt rfl
      obtain ⟨source, actor⟩ := monitor
      obtain ⟨after, actor'⟩ := next
      cases turn with
      | started =>
          exact ⟨rfl, rfl, fun calm => State.startAcquisition_eventDelay_of_none calm⟩

/-- A source with one empty inventory, and one change at the end of the range of
times. -/
def Script.changedAtMaximum : Script where
  readings := [.zero, .zero, .zero, .zero, .zero, .maximum]
  subscriptions := []
  inventories := [.ok ⟨⟨0⟩, [], ⟨none, none⟩⟩]
  waits := [.ok (.linkChanged .maximum)]

/-- A change at the end of the range of times is due at once, not a second later:
the sum saturates. -/
theorem Run.eventDeadline_saturates :
    ¬ ∀ (history : List Entry) (monitor : Monitor Script PlainId) (deadline : Duration),
      Run Script.changedAtMaximum (.fromSecs 3600) history monitor →
      monitor.actor.state.eventDeadline = some deadline →
        ∃ first older count, Timeline.Pending (History.marks history) first older ∧
          Timeline.Climbed (.change first :: older) count ∧
          deadline.nanos = first.nanos + min (2 ^ count) 30 * 10 ^ 9 := by
  intro exact_sum
  obtain ⟨history, monitor, run, pending, marks⟩ :=
    Run.of_shown Script.changedAtMaximum (.fromSecs 3600) 7
      (fun history (monitor : Monitor Script PlainId) =>
        monitor.actor.state.eventDeadline = some .maximum ∧
          History.marks history = [.change .maximum, .start]) (by decide +kernel)
  obtain ⟨first, older, count, ⟨newer, split, _⟩, _, sum⟩ :=
    exact_sum history monitor .maximum run pending
  have named : Mark.change first ∈ [Mark.change .maximum, Mark.start] := by
    rw [← marks, split]
    exact List.mem_append_right _ List.mem_cons_self
  simp only [List.mem_cons, Mark.change.injEq, reduceCtorEq, List.not_mem_nil, or_false] at named
  subst named
  have positive : 0 < min (2 ^ count) 30 := by simp
  omega

/-- A first change five seconds in is on rung zero: due a second later. -/
theorem Run.eventDeadline_ladder_changed :
    ∃ history, ∃ monitor : Monitor Script PlainId,
      Run Script.changed (.fromSecs 3600) history monitor ∧
        monitor.actor.state.eventDeadline = some (.fromSecs 6) ∧
        ∃ first older count, Timeline.Pending (History.marks history) first older ∧
          Timeline.Climbed (.change first :: older) count ∧
          (Duration.fromSecs 6).nanos =
            min (first.nanos + min (2 ^ count) 30 * 10 ^ 9) maxNanos := by
  obtain ⟨history, monitor, run, pending⟩ := Run.of_shown Script.changed (.fromSecs 3600) 7
    (fun _ (monitor : Monitor Script PlainId) =>
      monitor.actor.state.eventDeadline = some (.fromSecs 6)) (by decide +kernel)
  exact ⟨history, monitor, run, pending, run.eventDeadline_ladder.2.1 _ pending⟩

end IfStack
