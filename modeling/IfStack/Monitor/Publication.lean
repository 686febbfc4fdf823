import IfStack.Monitor.Consults
import IfStack.Monitor.History
import IfStack.Monitor.Script

/-! # Publication safety

At every point of every run the published cell holds the table of the latest
accepted inventory, unless continuity was lost since. The cell is a register:
an accepted inventory writes it, a loss clears it, nothing else touches it.
-/

namespace IfStack

open Foundation

namespace History

/-- An inventory is accepted: its attempt number is the generation, the number of
losses before it; its event times are valid; its links form a topology. -/
def Accepts (older : List Entry) (inventory : Inventory) (topology : Topology) : Prop :=
  inventory.attempt.continuity.toNat = losses older ∧ inventory.events.Valid ∧
    Topology.fromObserved inventory.links = .ok topology

/-- No entry of the newer part is a loss. -/
def NoLoss (newer : List Entry) : Prop := ∀ entry ∈ newer, entry.isLoss = false

/-- No entry of the newer part is an accepted inventory. -/
def NoneAccepted (newer older : List Entry) : Prop :=
  ∀ later inventory finished failed earlier topology,
    newer = later ++ .completed inventory finished failed :: earlier →
      ¬ Accepts (earlier ++ older) inventory topology

/-- Some inventory has been accepted since the latest loss. -/
def AcceptedSinceLoss (history : List Entry) : Prop :=
  ∃ newer inventory finished failed older topology,
    history = newer ++ .completed inventory finished failed :: older ∧
      Accepts older inventory topology ∧ NoLoss newer

/-- The latest accepted inventory, with no loss after it, yields the topology. -/
def LatestAccepted (history : List Entry) (topology : Topology) : Prop :=
  ∃ newer inventory finished failed older,
    history = newer ++ .completed inventory finished failed :: older ∧
      Accepts older inventory topology ∧ NoLoss newer ∧
        NoneAccepted newer (.completed inventory finished failed :: older)

/-- What an entry does to the published cell. -/
def publicationEffect (older : List Entry) (entry : Entry) : Effect Topology :=
  if entry.isLoss then .clear else (accepted older entry).elim .keep .write

/-- A topology is accepted just from a completed inventory that the history accepts. -/
theorem accepted_eq_some {older : List Entry} (few : losses older < 2 ^ 64) {entry : Entry}
    {topology : Topology} : accepted older entry = some topology ↔
      ∃ inventory finished failed, entry = .completed inventory finished failed ∧
        Accepts older inventory topology := by
  cases entry with
  | completed inventory finished failed =>
      have counted : inventory.attempt.continuity = generation older ↔
          inventory.attempt.continuity.toNat = losses older := by
        rw [← generation_toNat few, UInt64.toNat_inj]
      simp only [accepted, Inventory.topologyIn_eq_some, counted, Entry.completed.injEq, Accepts]
      constructor
      · exact fun taken => ⟨inventory, finished, failed, ⟨rfl, rfl, rfl⟩, taken⟩
      · rintro ⟨_, _, _, ⟨rfl, rfl, rfl⟩, taken⟩
        exact taken
  | _ =>
      refine ⟨fun absent => (nomatch absent), ?_⟩
      rintro ⟨_, _, _, named, _⟩
      cases named

/-- A loss accepts nothing. -/
theorem accepted_of_loss {older : List Entry} {entry : Entry} (loss : entry.isLoss = true) :
    accepted older entry = none := by
  cases entry <;> first | rfl | cases loss

/-- A table is published just when a topology is accepted. -/
theorem publicationEffect_eq_write {older : List Entry} {entry : Entry} {topology : Topology} :
    publicationEffect older entry = .write topology ↔ accepted older entry = some topology := by
  unfold publicationEffect
  cases loss : entry.isLoss with
  | true => simp [accepted_of_loss loss]
  | false => cases accepted older entry <;> simp

/-- The table is kept when nothing is lost or accepted. -/
theorem publicationEffect_eq_keep {older : List Entry} {entry : Entry} :
    publicationEffect older entry = .keep ↔
      entry.isLoss = false ∧ accepted older entry = none := by
  unfold publicationEffect
  cases loss : entry.isLoss with
  | true => simp
  | false => cases accepted older entry <;> simp

/-- The table is withdrawn only by a loss. -/
theorem publicationEffect_ne_clear {older : List Entry} {entry : Entry} :
    publicationEffect older entry ≠ .clear ↔ entry.isLoss = false := by
  unfold publicationEffect
  cases loss : entry.isLoss with
  | true => simp
  | false => cases accepted older entry <;> simp

/-- A condition on single entries holds since a point when it holds of each. -/
theorem since_iff_forall {condition : Entry → Prop} {newer older : List Entry} :
    Register.Since (fun _ entry => condition entry) newer older ↔
      ∀ entry ∈ newer, condition entry := by
  constructor
  · intro since entry member
    obtain ⟨later, earlier, split⟩ := List.mem_iff_append.mp member
    exact since later entry earlier split
  · intro each later entry earlier split
    exact each entry (split ▸ List.mem_append_right _ List.mem_cons_self)

/-- The register is written since its last clearing when an inventory has been
accepted since the latest loss. -/
theorem isSome_iff_acceptedSinceLoss {history : List Entry} (few : losses history < 2 ^ 64) :
    (Register.value publicationEffect history).isSome ↔ AcceptedSinceLoss history := by
  rw [Register.value_isSome_iff]
  simp only [publicationEffect_eq_write, publicationEffect_ne_clear, since_iff_forall]
  constructor
  · rintro ⟨newer, entry, older, topology, rfl, taken, kept⟩
    have fewer := (losses_le_append (newer ++ [entry]) older).trans_lt
      (by simpa only [List.append_assoc, List.singleton_append] using few)
    obtain ⟨inventory, finished, failed, rfl, accepts⟩ := (accepted_eq_some fewer).mp taken
    exact ⟨newer, inventory, finished, failed, older, topology, rfl, accepts, kept⟩
  · rintro ⟨newer, inventory, finished, failed, older, topology, rfl, accepts, kept⟩
    have fewer :=
      (losses_le_append (newer ++ [.completed inventory finished failed]) older).trans_lt
      (by simpa only [List.append_assoc, List.singleton_append] using few)
    exact ⟨newer, _, older, topology, rfl,
      (accepted_eq_some fewer).mpr ⟨inventory, finished, failed, rfl, accepts⟩, kept⟩

/-- The register holds the topology of the latest accepted inventory. -/
theorem latestAccepted_of_value {history : List Entry} {topology : Topology}
    (few : losses history < 2 ^ 64)
    (holds : Register.value publicationEffect history = some topology) :
    LatestAccepted history topology := by
  obtain ⟨newer, entry, older, rfl, wrote, since⟩ := Register.value_eq_some_iff.mp holds
  simp only [publicationEffect_eq_keep] at since
  have fewer (newer : List Entry) {older : List Entry} (few : losses (newer ++ older) < 2 ^ 64) :
      losses older < 2 ^ 64 := (losses_le_append newer older).trans_lt few
  obtain ⟨inventory, finished, failed, rfl, accepts⟩ :=
    (accepted_eq_some (fewer (newer ++ [entry])
      (by simpa only [List.append_assoc, List.singleton_append] using few))).mp
      (publicationEffect_eq_write.mp wrote)
  refine ⟨newer, inventory, finished, failed, older, rfl, accepts,
    since_iff_forall.mp (since.imp fun _ _ => And.left), ?_⟩
  intro later other ends fails earlier published split taken
  have quiet := (since later _ earlier split).2
  have present := (accepted_eq_some (fewer (later ++ [.completed other ends fails])
    (by simpa only [split, List.append_assoc, List.cons_append, List.nil_append] using few))).mpr
    ⟨other, ends, fails, rfl, taken⟩
  exact nomatch quiet.symm.trans present

end History

section

variable {ID : Type} [AgentxId ID] {reconcile : Duration} {history : List Entry}
  {actor : Actor ID}

/-- A step that is no loss and accepts nothing leaves the published cell alone. -/
theorem Turn.publication_eq {before next : Actor ID} {entry : Entry}
    (turn : Turn before entry next) (current : before.state.continuity = History.generation history)
    (kept : entry.isLoss = false) (none : History.accepted history entry = none) :
    next.publication = before.publication := by
  cases turn with
  | lost | waitFailed => cases kept
  | accepted taken =>
      change Inventory.topologyIn (History.generation history) _ = _ at none
      rw [← current] at none
      exact nomatch taken.symm.trans none
  | _ => rfl

/-- The published cell is the register the history drives. -/
theorem Schedule.snapshot_eq (schedule : Schedule reconcile history actor) :
    actor.publication.snapshot =
      (Register.value History.publicationEffect history).map Mib.fromTopology := by
  refine Trace.invariant (fun history actor => actor.publication.snapshot =
    (Register.value History.publicationEffect history).map Mib.fromTopology)
    (fun _ begins => begins ▸ rfl) ?_ schedule
  intro history before entry next earlier same turn
  have current := Schedule.continuity_eq earlier
  cases happened : History.publicationEffect history entry with
  | keep =>
      obtain ⟨kept, none⟩ := History.publicationEffect_eq_keep.mp happened
      rw [turn.publication_eq current kept none, same]
      simp only [Register.value, happened]
  | clear =>
      simp only [Register.value, happened]
      cases turn with
      | lost | waitFailed => rfl
      | _ => exact (History.publicationEffect_ne_clear.mpr rfl happened).elim
  | write topology =>
      have taken := History.publicationEffect_eq_write.mp happened
      simp only [Register.value, happened]
      cases turn with
      | accepted found =>
          change Inventory.topologyIn (History.generation history) _ = _ at taken
          rw [← current, found] at taken
          cases taken
          rfl
      | rejected refused =>
          change Inventory.topologyIn (History.generation history) _ = _ at taken
          rw [← current] at taken
          cases refused.symm.trans taken
      | _ => cases taken

/-- A subscription was made, and no loss came after it. -/
def History.SubscribedSinceLoss (history : List Entry) : Prop :=
  ∃ since before, history = since ++ .subscribed :: before ∧ History.NoLoss since

/-- An entry without a loss keeps the subscription. -/
theorem History.SubscribedSinceLoss.cons {entry : Entry}
    (subscribed : SubscribedSinceLoss history) (kept : entry.isLoss = false) :
    SubscribedSinceLoss (entry :: history) := by
  obtain ⟨since, before, rfl, quiet⟩ := subscribed
  refine ⟨entry :: since, before, rfl, ?_⟩
  intro other member
  rcases List.mem_cons.mp member with here | there
  · exact here ▸ kept
  · exact quiet other there

/-- The flag `subscribed` tells of a subscription since the latest loss. -/
theorem Schedule.subscribedSinceLoss (schedule : Schedule reconcile history actor)
    (present : actor.state.subscribed = true) : History.SubscribedSinceLoss history := by
  revert present
  refine Trace.invariant (fun history (actor : Actor ID) =>
    actor.state.subscribed = true → History.SubscribedSinceLoss history)
    (fun _ begins present => ?_) ?_ schedule
  · subst begins
    cases present
  · intro history before entry next _ ih turn present
    cases turn with
    | subscribed => exact ⟨[], history, rfl, fun _ member => absurd member List.not_mem_nil⟩
    | lost | waitFailed => cases present
    | accepted | rejected | ordinary =>
        exact (ih ((State.recordAll_subscribed _ _).symm.trans present)).cons rfl
    | _ => exact (ih present).cons rfl

/-- While an inventory runs, the loop is subscribed and the inventory's start is
the latest entry. -/
theorem Schedule.inventorying (schedule : Schedule reconcile history actor) {now : Duration}
    {attempt : Attempt} (running : actor.point = .inventorying now attempt) :
    actor.state.subscribed = true ∧ attempt.continuity = actor.state.continuity ∧
      ∃ older, history = .started now attempt :: older := by
  cases schedule with
  | start begins =>
      subst begins
      cases running
  | turn _ turn =>
      cases turn with
      | started present => cases running; exact ⟨present, rfl, _, rfl⟩
      | _ => cases running

end

/-- Every entry of a history is that of a step, which made the calls of the source that the
entry tells. -/
theorem Run.entry_consults {σ ID : Type} [AgentxId ID] [Acquisition σ] {source : σ}
    {reconcile : Duration} {newer older : List Entry} {entry : Entry} {monitor : Monitor σ ID}
    (run : Run source reconcile (newer ++ entry :: older) monitor) :
    ∃ before next : Monitor σ ID, Run source reconcile older before ∧
      Run source reconcile (entry :: older) next ∧
        Consults before.actor.point before.source entry next.source := by
  obtain ⟨next, whole⟩ := Trace.older run
  obtain ⟨before, earlier, moved⟩ := Trace.last whole
  exact ⟨before, next, earlier, whole, Monitor.consults_of_step moved⟩

/-- **Publication safety.** The snapshot is there exactly when an inventory has
been accepted since the latest loss, and it is the table of the latest accepted
one; an accepted inventory began after a subscription that came after the latest
loss; a step that neither loses continuity nor accepts an inventory leaves the cell
alone; and every entry of the history tells the calls that the loop made of its source
there, and their answers. -/
theorem Run.snapshot_safety {σ ID : Type} [AgentxId ID] [Acquisition σ] {source : σ}
    {reconcile : Duration} {history : List Entry} {monitor : Monitor σ ID}
    (run : Run source reconcile history monitor) (few : History.losses history < 2 ^ 64) :
    (monitor.actor.publication.snapshot.isSome ↔ History.AcceptedSinceLoss history) ∧
    (∀ table, monitor.actor.publication.snapshot = some table →
      ∃ topology, History.LatestAccepted history topology ∧ table = Mib.fromTopology topology) ∧
    (∀ newer inventory finished failed older topology,
      history = newer ++ .completed inventory finished failed :: older →
      History.Accepts older inventory topology →
        ∃ now attempt begun, older = .started now attempt :: begun ∧
          History.SubscribedSinceLoss begun) ∧
    (∀ entry next, monitor.step = some (entry, next) → entry.isLoss = false →
      (∀ inventory finished failed topology, entry = .completed inventory finished failed →
        ¬ History.Accepts history inventory topology) →
        next.actor.publication = monitor.actor.publication) ∧
    ∀ newer entry older, history = newer ++ entry :: older →
      ∃ before next : Monitor σ ID, Run source reconcile older before ∧
        Run source reconcile (entry :: older) next ∧
          Consults before.actor.point before.source entry next.source := by
  have schedule := run.schedule
  have snapshot := schedule.snapshot_eq
  refine ⟨?_, ?_, ?_, ?_, ?_⟩
  · rw [snapshot, Option.isSome_map]
    exact History.isSome_iff_acceptedSinceLoss few
  · intro table held
    rw [snapshot] at held
    obtain ⟨topology, value, made⟩ := Option.map_eq_some_iff.mp held
    exact ⟨topology, History.latestAccepted_of_value few value, made.symm⟩
  · rintro newer inventory finished failed older topology rfl _
    obtain ⟨_, whole⟩ := Trace.older schedule
    obtain ⟨before, earlier, turn⟩ := Trace.last whole
    have running : ∃ now attempt, before.point = .inventorying now attempt := by
      cases turn <;> exact ⟨_, _, rfl⟩
    obtain ⟨now, attempt, running⟩ := running
    obtain ⟨present, _, begun, rfl⟩ := Schedule.inventorying earlier running
    refine ⟨now, attempt, begun, rfl, ?_⟩
    obtain ⟨waiting, start, turn⟩ := Trace.last earlier
    cases turn with
    | started subscribed => exact Schedule.subscribedSinceLoss start subscribed
  · intro entry next moved kept refused
    apply (Monitor.turn_of_step moved).publication_eq schedule.continuity_eq kept
    cases taken : History.accepted history entry with
    | none => rfl
    | some topology =>
        obtain ⟨inventory, finished, failed, named, accepts⟩ :=
          (History.accepted_eq_some few).mp taken
        exact (refused inventory finished failed topology named accepts).elim
  · rintro newer entry older rfl
    exact run.entry_consults

/-- A bond with its port is found, and then the stream is lost. After that an inventory of the
generation before is stale, and the next one finds the bond alone. -/
def Script.lossy : Script where
  readings := [0, 0, 1, 1, 1, 1, 3, 3, 3, 3, 3, 3, 6].map .fromSecs
  subscriptions := []
  inventories :=
    let port : ObservedLink := ⟨2, "eth0", .other, some 3, none, none, none⟩
    let bond : ObservedLink := ⟨3, "bond0", .bond, none, none, none, none⟩
    [.ok ⟨⟨0⟩, [port, bond], ⟨none, none⟩⟩, .ok ⟨⟨0⟩, [port, bond], ⟨none, none⟩⟩,
      .ok ⟨⟨1⟩, [bond], ⟨none, none⟩⟩]
  waits := [.error (.other "link notification socket failed")]

/-- After the loss nothing is served, also when the stale inventory has come. Then the bond is
served alone, and each entry up to there tells a call of the source. -/
theorem Run.snapshot_safety_lossy :
    (∃ history, ∃ monitor : Monitor Script PlainId,
      Run Script.lossy (.fromSecs 3600) history monitor ∧ history.length = 11 ∧
        monitor.actor.publication.snapshot.isSome = false) ∧
    ∃ history, ∃ monitor : Monitor Script PlainId,
      Run Script.lossy (.fromSecs 3600) history monitor ∧ History.losses history = 1 ∧
        monitor.actor.publication.snapshot = some (.fromTopology ⟨{3}, ∅⟩) ∧
        (∃ topology, History.LatestAccepted history topology ∧
          (.fromTopology ⟨{3}, ∅⟩ : Mib PlainId) = .fromTopology topology) ∧
        ∀ newer entry older, history = newer ++ entry :: older →
          ∃ before next : Monitor Script PlainId,
            Consults before.actor.point before.source entry next.source := by
  constructor
  · obtain ⟨history, monitor, run, length, losses, value⟩ := Run.of_shown Script.lossy
      (.fromSecs 3600) 11 (fun history (_ : Monitor Script PlainId) => history.length = 11 ∧
        History.losses history = 1 ∧ Register.value History.publicationEffect history = none)
      (by decide +kernel)
    have few : History.losses history < 2 ^ 64 := losses ▸ by decide
    refine ⟨history, monitor, run, length, Bool.eq_false_iff.mpr ?_⟩
    rw [Ne, (run.snapshot_safety few).1, ← History.isSome_iff_acceptedSinceLoss few, value]
    exact Bool.false_ne_true
  · obtain ⟨history, monitor, run, losses, value⟩ := Run.of_shown Script.lossy
      (.fromSecs 3600) 17 (fun history (_ : Monitor Script PlainId) =>
        History.losses history = 1 ∧
          Register.value History.publicationEffect history = some ⟨{3}, ∅⟩)
      (by decide +kernel)
    have served : monitor.actor.publication.snapshot = some (.fromTopology ⟨{3}, ∅⟩) := by
      rw [run.schedule.snapshot_eq, value]
      rfl
    obtain ⟨_, latest, _, _, tells⟩ := run.snapshot_safety (losses ▸ by decide)
    refine ⟨history, monitor, run, losses, served, latest _ served, ?_⟩
    intro newer entry older same
    obtain ⟨before, next, _, _, consults⟩ := tells newer entry older same
    exact ⟨before, next, consults⟩

end IfStack
