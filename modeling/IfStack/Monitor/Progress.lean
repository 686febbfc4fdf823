import IfStack.Foundation.Ranking
import IfStack.Monitor.Deadline
import IfStack.Monitor.FailureFloor
import IfStack.Monitor.Publication

/-! # The loop gets on with its work

Once the retry has passed, and as long as nothing fails, the loop publishes a table within
six steps, wherever it stood. And it never spins: every sleep but one is paid for by an
attempt that ended, a link change, or a wait that was cut short.
-/

namespace IfStack

open Foundation

section Recovery

variable {ID : Type} [AgentxId ID]

/-- The steps that are left before an inventory ends, where nothing fails or is early. -/
def Actor.stepsLeft (actor : Actor ID) : Nat :=
  match actor.point with
  | .inventorying .. => 0
  | .subscribing _ => 2
  | .waiting .. => 4
  | .ready => if actor.state.subscribed then 1 else 5
  | .head => if actor.state.subscribed then 2 else 3

/-- At most five steps are left before a wait. -/
theorem Actor.stepsLeft_le (actor : Actor ID) : actor.stepsLeft ≤ 5 := by
  unfold stepsLeft
  split
  · exact Nat.zero_le _
  · decide
  · decide
  · split <;> decide
  · split <;> decide

/-- Whatever is a good time for an inventory in one state is one for the loop, unless it runs
an inventory already. -/
def Actor.Seizes (state : State) (actor : Actor ID) : Prop :=
  (∃ now attempt, actor.point = .inventorying now attempt) ∨
    ∀ now, state.acquisitionReady now = true → actor.state.acquisitionReady now = true

/-- What is ready to acquire is ready to retry. -/
theorem State.retryReady_of_acquisitionReady {state : State} {now : Duration}
    (ready : state.acquisitionReady now = true) : state.retryReady now = true :=
  (acquisitionReady_iff.mp ready).1

/-- A link change does not undo readiness. -/
theorem State.acquisitionReady_recordEvent {state : State} {now time : Duration}
    (ready : state.acquisitionReady now = true) :
    (state.recordEvent time).acquisitionReady now = true := by
  obtain ⟨retried, due⟩ := acquisitionReady_iff.mp ready
  refine acquisitionReady_iff.mpr ⟨retried, ?_⟩
  rcases due with needs | ⟨deadline, pending, passed⟩ | reconciles
  · exact .inl needs
  · refine .inr (.inl ⟨deadline, ?_, passed⟩)
    rw [Option.mem_def] at pending ⊢
    simp only [recordEvent, pending, Option.getD_some]
  · exact .inr (.inr reconciles)

/-- A step without a failure, at a reading that is a good time for an inventory, accepts one
or comes closer to it. -/
theorem Turn.advances {state : State} {history : List Entry} {before next : Actor ID}
    {entry : Entry} (turn : Turn before entry next)
    (current : before.state.continuity = History.generation history)
    (seizes : before.Seizes state) (calm : entry.failedAt = none)
    (due : ∀ now ∈ entry.readings, state.acquisitionReady now = true) :
    (∃ topology, History.accepted history entry = some topology) ∨
      next.Seizes state ∧ next.stepsLeft < before.stepsLeft := by
  have kept (idle : ∀ now attempt, before.point ≠ .inventorying now attempt) (now : Duration)
      (good : state.acquisitionReady now = true) : before.state.acquisitionReady now = true := by
    rcases seizes with ⟨begun, attempt, running⟩ | seizes
    · exact (idle begun attempt running).elim
    · exact seizes now good
  cases turn with
  | @skip held publication now idle =>
      have stays := kept (fun _ _ running => nomatch running)
      have good := stays now (due now (List.mem_singleton.mpr rfl))
      have present : held.subscribed = true := by
        by_contra missing
        exact idle ⟨Bool.not_eq_true _ ▸ missing, State.retryReady_of_acquisitionReady good⟩
      refine .inr ⟨.inr stays, ?_⟩
      simp only [Actor.stepsLeft, present, ↓reduceIte, Nat.lt_add_one]
  | subscribing missing =>
      refine .inr ⟨.inr (kept fun _ _ running => nomatch running), ?_⟩
      simp only [Actor.stepsLeft, missing, Bool.false_eq_true, ↓reduceIte, Nat.lt_add_one]
  | subscribed =>
      have stays := kept (fun _ _ running => nomatch running)
      refine .inr ⟨.inr fun now good => ?_, ?_⟩
      · have retried := State.retryReady_of_acquisitionReady (stays now good)
        exact State.acquisitionReady_iff.mpr ⟨retried, .inl rfl⟩
      · simp only [Actor.stepsLeft, ↓reduceIte, Nat.lt_add_one]
  | started present =>
      refine .inr ⟨.inl ⟨_, _, rfl⟩, ?_⟩
      simp only [Actor.stepsLeft, present, ↓reduceIte, Nat.lt_add_one]
  | @waiting held publication now idle =>
      have stays := kept (fun _ _ running => nomatch running)
      have good := stays now (due now (List.mem_singleton.mpr rfl))
      have missing : held.subscribed = false := by
        by_contra present
        exact idle ⟨Bool.not_eq_false _ ▸ present, good⟩
      refine .inr ⟨.inr stays, ?_⟩
      simp only [Actor.stepsLeft, missing, Bool.false_eq_true, ↓reduceIte, Nat.lt_add_one]
  | deadline =>
      refine .inr ⟨.inr (kept fun _ _ running => nomatch running), ?_⟩
      simp only [Actor.stepsLeft]
      split <;> decide
  | linkChanged =>
      have stays := kept (fun _ _ running => nomatch running)
      refine .inr ⟨.inr fun now good => State.acquisitionReady_recordEvent (stays now good), ?_⟩
      simp only [Actor.stepsLeft]
      split <;> decide
  | @accepted _ _ _ _ _ _ topology taken =>
      refine .inl ⟨topology, ?_⟩
      rw [History.accepted, ← current]
      exact taken
  | rejected | ordinary | lost | waitFailed | subscribeFailed => cases calm

/-- From any reachable state, a run whose readings are all good times for an inventory there,
and in which nothing fails, accepts an inventory within six steps. -/
theorem Schedule.accepts_within {reconcile : Duration} {older newer : List Entry}
    {before actor : Actor ID} (schedule : Schedule reconcile older before)
    (onward : Trace (· = before) Turn newer actor)
    (calm : ∀ entry ∈ newer, entry.failedAt = none)
    (due : ∀ now ∈ History.readings newer, before.state.acquisitionReady now = true)
    (enough : 6 ≤ newer.length) :
    ∃ later entry earlier topology, newer = later ++ entry :: earlier ∧ earlier.length ≤ 5 ∧
      History.accepted (earlier ++ older) entry = some topology := by
  obtain ⟨later, entry, earlier, split, ⟨topology, taken⟩, near⟩ := Trace.reaches
    (fun entry => entry.failedAt = none ∧
      ∀ now ∈ entry.readings, before.state.acquisitionReady now = true)
    (fun earlier entry => ∃ topology, History.accepted (earlier ++ older) entry = some topology)
    (Actor.Seizes before.state) Actor.stepsLeft 5
    (fun _ begins => begins ▸ ⟨.inr fun _ good => good, Actor.stepsLeft_le _⟩)
    (fun _ _ _ _ earlier seizes quiet turn => turn.advances
      (Schedule.continuity_eq (schedule.append earlier)) seizes quiet.1 quiet.2)
    onward
    (fun entry member => ⟨calm entry member, fun now taken =>
      due now (List.mem_flatMap.mpr ⟨entry, member, taken⟩)⟩)
    enough
  exact ⟨later, entry, earlier, topology, split, near, taken⟩

end Recovery

namespace Entry

/-- The step is the start of a sleep. -/
def sleeps : Entry → Bool
  | .waiting .. => true
  | _ => false

/-- The step ends an attempt, or a wait by its failure. -/
def ends : Entry → Bool
  | .subscribeFailed .. | .completed .. | .ordinary .. | .lost .. | .waitFailed .. => true
  | _ => false

/-- The step wakes the loop by a link change. -/
def wakes : Entry → Bool
  | .linkChanged _ => true
  | _ => false

end Entry

namespace History

/-- The reading of a step shows that the wait before it ran out before its timeout. -/
def endsEarly (older : List Entry) (entry : Entry) : Bool :=
  match older with
  | .deadline :: .waiting now timeout :: _ =>
      entry.readings.any fun reading => decide (reading < now.saturatingAdd timeout)
  | _ => false

/-- The number of waits that ran out before their timeout. -/
def cutShort : List Entry → Nat
  | [] => 0
  | entry :: older => cutShort older + if endsEarly older entry then 1 else 0

/-- What pays for a sleep: an attempt that ended, a link change, or a wait cut short. -/
def paid (history : List Entry) : Nat :=
  history.countP Entry.ends + history.countP Entry.wakes + cutShort history

/-- The payments of a history, by its newest entry. -/
theorem paid_cons (entry : Entry) (older : List Entry) :
    paid (entry :: older) = paid older + ((if entry.ends then 1 else 0) +
      (if entry.wakes then 1 else 0) + if endsEarly older entry then 1 else 0) := by
  simp only [paid, cutShort, List.countP_cons]
  omega

/-- Payments only grow. -/
theorem paid_le (entry : Entry) (older : List Entry) : paid older ≤ paid (entry :: older) := by
  rw [paid_cons]
  exact Nat.le_add_right _ _

/-- A step that ends an attempt, wakes the loop, or shows a wait cut short pays for one. -/
theorem lt_paid {entry : Entry} {older : List Entry}
    (pays : entry.ends = true ∨ entry.wakes = true ∨ endsEarly older entry = true) :
    paid older + 1 ≤ paid (entry :: older) := by
  rw [paid_cons]
  rcases pays with ends | wakes | early
  · rw [ends, if_pos rfl]
    omega
  · rw [wakes, if_pos rfl]
    omega
  · rw [early, if_pos rfl]
    omega

/-- A reading that does not show the wait cut short has reached its end. -/
theorem le_reading_of_not_endsEarly {now timeout reading : Duration} {older : List Entry}
    {entry : Entry}
    (punctual : ¬ endsEarly (.deadline :: .waiting now timeout :: older) entry = true)
    (taken : reading ∈ entry.readings) : now.saturatingAdd timeout ≤ reading := by
  by_contra early
  refine punctual (List.any_eq_true.mpr ⟨reading, taken, ?_⟩)
  exact decide_eq_true (not_le.mp early)

end History

section Sleeps

variable {ID : Type} [AgentxId ID] {reconcile : Duration} {history : List Entry}
  {actor : Actor ID}

/-- A sleep is not paid for yet, and something that pays for it must come before the next. -/
def Actor.Owes (history : List Entry) (actor : Actor ID) : Prop :=
  match actor.point with
  | .head => ∃ now timeout older, history = .deadline :: .waiting now timeout :: older ∧
      ∀ time, now.saturatingAdd timeout ≤ time → actor.state.workDue time = true
  | .ready => actor.state.subscribed = true ∧
      ∃ reading ∈ History.readings history, actor.state.acquisitionReady reading = true
  | .subscribing now => now ∈ History.readings history ∧ actor.state.retryReady now = true
  | .inventorying .. | .waiting .. => True

/-- The sleeps of a history are paid for, up to the one that the loop owes. -/
structure Actor.Pays (history : List Entry) (actor : Actor ID) : Prop where
  owing : history.countP Entry.sleeps ≤ History.paid history + 1
  settled : ¬ actor.Owes history → history.countP Entry.sleeps ≤ History.paid history

/-- The loop waits right after the step that started the wait. -/
theorem Schedule.waiting_last (schedule : Schedule reconcile history actor)
    {now timeout : Duration} (waiting : actor.point = .waiting now timeout) :
    ∃ older, history = .waiting now timeout :: older := by
  cases schedule with
  | start begins =>
      subst begins
      cases waiting
  | turn _ turn =>
      cases turn with
      | waiting => cases waiting; exact ⟨_, rfl⟩
      | _ => cases waiting

/-- Where the loop waits, there is work from the end of its timeout on. -/
theorem Schedule.workDue_of_timeout (schedule : Schedule reconcile history actor)
    {now timeout time : Duration} (waiting : actor.point = .waiting now timeout)
    (passed : now.saturatingAdd timeout ≤ time) : actor.state.workDue time = true := by
  obtain ⟨computed, idle⟩ := schedule.waiting waiting
  have settled := schedule.settled
  unfold Actor.Settled at settled
  rw [waiting] at settled
  have ahead := State.le_nextDeadline actor.state now
  have ends : now.saturatingAdd timeout = actor.state.nextDeadline now := by
    have bound := (actor.state.nextDeadline now).nanos_le
    rw [Duration.le_def] at ahead
    rw [computed, Duration.ext_iff, Duration.saturatingAdd_nanos, Duration.saturatingSub_nanos]
    omega
  rw [ends] at passed
  exact (State.workDue_iff settled.1 settled.2 idle (ahead.trans passed)).mpr passed

/-- A step that starts no sleep keeps the account, if whoever owed before still does or the
step pays. -/
theorem Actor.Pays.keep {before next : Actor ID} {entry : Entry} (pays : before.Pays history)
    (awake : entry.sleeps = false)
    (goes : next.Owes (entry :: history) ∨ ¬ before.Owes history ∨
      History.paid history + 1 ≤ History.paid (entry :: history)) :
    next.Pays (entry :: history) := by
  have same : (entry :: history).countP Entry.sleeps = history.countP Entry.sleeps := by
    rw [List.countP_cons, awake]
    rfl
  have grows := History.paid_le entry history
  have owing := pays.owing
  refine ⟨by omega, fun free => ?_⟩
  rcases goes with owes | calm | pays'
  · exact (free owes).elim
  · have settled := pays.settled calm
    omega
  · omega

/-- At the top of the loop, an owed sleep is paid for by its early end, or there is work. -/
theorem Actor.Owes.head {state : State} {publication : Publication ID} {entry : Entry}
    {now : Duration} (owes : Actor.Owes history ⟨.head, state, publication⟩)
    (taken : now ∈ entry.readings) :
    History.endsEarly history entry = true ∨ state.workDue now = true := by
  obtain ⟨begun, timeout, older, rfl, work⟩ := owes
  by_cases early : History.endsEarly (.deadline :: .waiting begun timeout :: older) entry = true
  · exact .inl early
  · exact .inr (work now (History.le_reading_of_not_endsEarly early taken))

/-- Every step keeps the account. -/
theorem Turn.pays {before next : Actor ID} {entry : Entry}
    (earlier : Schedule reconcile history before) (turn : Turn before entry next)
    (monotone : History.Nondecreasing (entry :: history)) (pays : before.Pays history) :
    next.Pays (entry :: history) := by
  have read (now : Duration) (taken : now ∈ entry.readings) :
      now ∈ History.readings (entry :: history) :=
    List.mem_flatMap.mpr ⟨entry, List.mem_cons_self, taken⟩
  cases turn with
  | @skip state publication now idle =>
      refine pays.keep rfl ?_
      by_cases owes : Actor.Owes history ⟨.head, state, publication⟩
      · have taken : now ∈ (Entry.skipped now).readings := List.mem_singleton.mpr rfl
        rcases owes.head taken with early | work
        · exact .inr (.inr (History.lt_paid (.inr (.inr early))))
        · simp only [State.workDue, Bool.or_eq_true, Bool.and_eq_true, Bool.not_eq_true'] at work
          rcases work with missing | ready
          · exact (idle missing).elim
          · exact .inl ⟨ready.1, now, read now (List.mem_singleton.mpr rfl), ready.2⟩
      · exact .inr (.inl owes)
  | @subscribing _ _ now missing due =>
      exact pays.keep rfl (.inl ⟨read now (List.mem_singleton.mpr rfl), due⟩)
  | @subscribed state publication now =>
      refine pays.keep rfl ?_
      by_cases owes : Actor.Owes history ⟨.subscribing now, state, publication⟩
      · exact .inl ⟨rfl, now, owes.1, State.acquisitionReady_iff.mpr ⟨owes.2, .inl rfl⟩⟩
      · exact .inr (.inl owes)
  | @waiting state publication now idle =>
      -- The sleep before has been paid for, or the loop would have started an inventory.
      have free : ¬ Actor.Owes history ⟨.ready, state, publication⟩ := by
        rintro ⟨present, reading, taken, ready⟩
        have later := monotone.le (List.mem_singleton.mpr rfl : now ∈ Entry.readings _) taken
        exact idle ⟨present, State.acquisitionReady_mono later ready⟩
      have settled := pays.settled free
      have grows := History.paid_le
        (.waiting now ((state.nextDeadline now).saturatingSub now)) history
      refine ⟨?_, fun calm => (calm trivial).elim⟩
      rw [List.countP_cons]
      change _ + 1 ≤ _
      omega
  | @deadline state publication now timeout =>
      obtain ⟨older, rfl⟩ := Schedule.waiting_last earlier rfl
      exact pays.keep rfl (.inl ⟨now, timeout, older, rfl, fun _ passed =>
        Schedule.workDue_of_timeout earlier rfl passed⟩)
  | linkChanged => exact pays.keep rfl (.inr (.inr (History.lt_paid (.inr (.inl rfl)))))
  | started => exact pays.keep rfl (.inl trivial)
  | subscribeFailed | accepted | rejected | ordinary | lost | waitFailed =>
      exact pays.keep rfl (.inr (.inr (History.lt_paid (.inl rfl))))

/-- An actor on schedule pays for each of its starts. -/
theorem Schedule.pays (schedule : Schedule reconcile history actor)
    (monotone : History.Nondecreasing history) : actor.Pays history :=
  Trace.invariant_under History.Nondecreasing (fun history actor => actor.Pays history)
    (fun _ _ monotone => monotone.older) (fun _ _ => ⟨Nat.zero_le _, fun _ => le_rfl⟩)
    (fun _ _ _ _ earlier monotone pays turn => turn.pays earlier monotone pays) schedule monotone

end Sleeps

/-- The runs of the loop that go on from a state. -/
def Monitor.Onward {σ ID : Type} [AgentxId ID] [Acquisition σ] (before : Monitor σ ID) :
    List Entry → Monitor σ ID → Prop :=
  Trace (· = before) fun monitor entry next => monitor.step = some (entry, next)

/-- A run in which nothing fails keeps what it has accepted. -/
theorem Schedule.isSome_of_accepted {ID : Type} [AgentxId ID] {reconcile : Duration}
    {later earlier : List Entry} {entry : Entry} {topology : Topology} {actor : Actor ID}
    (schedule : Schedule reconcile (later ++ entry :: earlier) actor)
    (taken : History.accepted earlier entry = some topology)
    (calm : ∀ other ∈ later, other.failedAt = none) : actor.publication.snapshot.isSome := by
  rw [schedule.snapshot_eq, Option.isSome_map]
  refine Register.value_isSome_iff.mpr ⟨later, entry, earlier, topology, rfl,
    History.publicationEffect_eq_write.mpr taken, ?_⟩
  simp only [History.publicationEffect_ne_clear]
  refine History.since_iff_forall.mpr fun other member => ?_
  have quiet := calm other member
  cases other with
  | lost | waitFailed => cases quiet
  | _ => rfl

/-- **Recovery.** Whatever has happened and wherever the loop stands: if it goes on for six
steps or more without a failure, and every clock reading that it takes is one at which the
retry has passed and work was due, then one of the first six steps accepts an inventory, and a
table is served at the end. -/
theorem Run.recovers {σ ID : Type} [AgentxId ID] [Acquisition σ] {source : σ}
    {reconcile : Duration} {older newer : List Entry} {before monitor : Monitor σ ID}
    (run : Run source reconcile older before) (onward : before.Onward newer monitor)
    (calm : ∀ entry ∈ newer, entry.failedAt = none)
    (due : ∀ now ∈ History.readings newer, before.actor.state.acquisitionReady now = true)
    (enough : 6 ≤ newer.length) :
    (∃ later entry earlier topology, newer = later ++ entry :: earlier ∧ earlier.length ≤ 5 ∧
      History.accepted (earlier ++ older) entry = some topology) ∧
    monitor.actor.publication.snapshot.isSome := by
  have turns : Trace (· = before.actor) Turn newer monitor.actor :=
    Trace.map Monitor.actor (fun _ begins => congrArg Monitor.actor begins)
      (fun _ _ _ => Monitor.turn_of_step) onward
  obtain ⟨later, entry, earlier, topology, rfl, near, taken⟩ :=
    run.schedule.accepts_within turns calm due enough
  have whole : Schedule reconcile (later ++ entry :: (earlier ++ older)) monitor.actor := by
    have joined := run.schedule.append turns
    rwa [List.append_assoc] at joined
  refine ⟨⟨later, entry, earlier, topology, rfl, near, taken⟩, whole.isSome_of_accepted taken ?_⟩
  exact fun other member => calm other (List.mem_append_left _ member)

/-- A source that refuses the first subscription, and whose clock then passes the retry. -/
def Script.refusedThenReady : Script where
  readings := [.zero, .zero, .zero, .fromSecs 1]
  subscriptions := [.error (.other "refused")]
  inventories := [.ok ⟨⟨0⟩, [], ⟨none, none⟩⟩]
  waits := []

/-- After a refused subscription the loop sleeps until the retry, and serves a table six steps
later. -/
theorem Run.recovers_refused :
    ∃ older newer, ∃ before monitor : Monitor Script PlainId,
      Run Script.refusedThenReady (.fromSecs 3600) older before ∧
        before.actor.point = .waiting .zero (.fromSecs 1) ∧ before.Onward newer monitor ∧
          newer.length = 6 ∧ monitor.actor.publication.snapshot.isSome := by
  obtain ⟨older, before, run, waiting, computed⟩ :=
    Run.of_shown Script.refusedThenReady (.fromSecs 3600) 3
      (fun _ (before : Monitor Script PlainId) =>
        before.actor.point = .waiting .zero (.fromSecs 1) ∧
          (before.steps 6).any (fun reached => decide (reached.1.length = 6 ∧
            ∀ entry ∈ reached.1, entry.failedAt = none ∧
              ∀ now ∈ entry.readings, before.actor.state.acquisitionReady now = true)) = true)
      (by decide +kernel)
  obtain ⟨⟨newer, monitor⟩, steps, holds⟩ := Option.any_eq_true _ _ |>.mp computed
  obtain ⟨six, quiet⟩ := of_decide_eq_true holds
  refine ⟨older, newer, before, monitor, run, waiting, Monitor.trace_of_steps steps, six, ?_⟩
  refine (run.recovers (Monitor.trace_of_steps steps)
    (fun entry member => (quiet entry member).1) ?_ six.ge).2
  intro now taken
  obtain ⟨entry, member, reading⟩ := List.mem_flatMap.mp taken
  exact (quiet entry member).2 now reading

/-- **No busy loop.** On a clock that does not run backwards, every sleep of a run, but for
one, is paid for: by an attempt that ended or a wait that failed, by a link change, or by a
wait that ran out before its timeout. -/
theorem Run.sleeps_paid {σ ID : Type} [AgentxId ID] [Acquisition σ] {source : σ}
    {reconcile : Duration} {history : List Entry} {monitor : Monitor σ ID}
    (run : Run source reconcile history monitor) (monotone : History.Nondecreasing history) :
    history.countP Entry.sleeps ≤ history.countP Entry.ends + history.countP Entry.wakes +
      History.cutShort history + 1 :=
  (run.schedule.pays monotone).owing

/-- After a refused subscription and its retry, the loop has slept twice. -/
theorem Run.sleeps_paid_refused :
    ∃ history, ∃ monitor : Monitor Script PlainId,
      Run Script.refusedThenReady (.fromSecs 3600) history monitor ∧
        history.countP Entry.sleeps = 2 ∧ History.cutShort history = 0 ∧
          2 ≤ history.countP Entry.ends + history.countP Entry.wakes + 1 := by
  obtain ⟨history, monitor, run, monotone, sleeps, punctual⟩ :=
    Run.of_shown Script.refusedThenReady (.fromSecs 3600) 10
      (fun history (_ : Monitor Script PlainId) =>
        (History.readings history).Pairwise (fun newer older => older ≤ newer) ∧
          history.countP Entry.sleeps = 2 ∧ History.cutShort history = 0) (by decide +kernel)
  refine ⟨history, monitor, run, sleeps, punctual, ?_⟩
  have paid := run.sleeps_paid monotone
  rwa [sleeps, punctual] at paid

end IfStack
