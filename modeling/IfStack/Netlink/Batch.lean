import IfStack.Monitor.Turn
import IfStack.Netlink.Complete

/-! # Event batches

An inventory summarises the link changes that arrive while it runs by the first and
the last. For the scheduler the summary is as good as the changes themselves: in
between, a change only moves the time of the latest one.
-/

namespace IfStack

namespace State

variable {state : State} {first last time : Duration} {times : List Duration}

/-- A change that follows another shortly, with a deadline pending, only moves the
time of the latest change. -/
theorem recordEvent_within (pending : state.eventDeadline.isSome)
    (recent : state.lastEvent = some last) (near : time.saturatingSub last < eventReset) :
    state.recordEvent time = { state with lastEvent := some time } := by
  obtain ⟨deadline, due⟩ := Option.isSome_iff_exists.mp pending
  have busy : ¬ eventReset ≤ time.saturatingSub last := not_le.mpr near
  simp only [recordEvent, recent, due, Option.all_some, busy, decide_false, Bool.false_eq_true,
    ↓reduceIte, Option.getD_some]

/-- So do several of them. -/
theorem recordAll_within (pending : state.eventDeadline.isSome)
    (recent : state.lastEvent = some last) (after : first ≤ last)
    (sorted : (last :: times).Pairwise (· ≤ ·))
    (near : ∀ time ∈ times, time.saturatingSub first < eventReset) :
    state.recordAll times = { state with lastEvent := some (times.getLast?.getD last) } := by
  induction times generalizing state last with
  | nil =>
      rw [recordAll_nil, List.getLast?_nil, Option.getD_none, ← recent]
  | cons time times ih =>
      obtain ⟨least, sorted⟩ := List.pairwise_cons.mp sorted
      have order : last ≤ time := least time List.mem_cons_self
      have close : time.saturatingSub last < eventReset := by
        have bound := near time List.mem_cons_self
        rw [Duration.lt_def, Duration.saturatingSub_nanos] at bound ⊢
        have start := Duration.le_def.mp after
        omega
      have later := fun other member => near other (List.mem_cons_of_mem time member)
      rw [recordAll_cons, recordEvent_within pending recent close]
      refine (ih ?_ rfl (after.trans order) sorted later).trans ?_
      · exact pending
      · rw [List.getLast?_cons, Option.getD_some]

/-- Ordered changes less than `eventReset` apart are recorded by their batch. -/
theorem recordBatch_eq_recordAll (state : State) (sorted : times.Pairwise (· ≤ ·))
    (near : ∀ first ∈ times.head?, ∀ last ∈ times.getLast?,
      last.saturatingSub first < eventReset) :
    state.recordBatch (Calls.batch times) = (.ok (), state.recordAll times) := by
  cases times with
  | nil => rfl
  | cons first rest =>
      obtain ⟨last, named⟩ : ∃ last, rest.getLast?.getD first = last := ⟨_, rfl⟩
      have ends : (first :: rest).getLast? = some last := by rw [List.getLast?_cons, named]
      have close : last.saturatingSub first < eventReset := near first rfl last ends
      have upper (time : Duration) (member : time ∈ first :: rest) : time ≤ last := by
        have greatest := sorted.rel_getLast member
        rw [List.getLast?_eq_some_getLast (List.cons_ne_nil first rest)] at ends
        rwa [Option.some.inj ends] at greatest
      have order : first ≤ last := upper first List.mem_cons_self
      have whole : state.recordAll (first :: rest) =
          { state.recordEvent first with lastEvent := some last } := by
        rw [recordAll_cons, recordAll_within rfl rfl le_rfl sorted ?_, named]
        intro time member
        have below := Duration.le_def.mp (upper time (List.mem_cons_of_mem first member))
        rw [Duration.lt_def, Duration.saturatingSub_nanos] at close ⊢
        omega
      rw [whole]
      simp only [recordBatch, Calls.batch, List.head?_cons, ends, order, close, and_self,
        ↓reduceIte]
      by_cases same : first = last
      · simp only [same, ne_eq, not_true_eq_false, ↓reduceIte]
        rfl
      · simp only [same, ne_eq, not_false_eq_true, ↓reduceIte]
        rw [recordEvent_within rfl rfl close]

end State

section

variable {S : Type}

/-- The clock readings of the calls, newest first. -/
def Calls.readings (calls : List (Call S)) : List Nat :=
  calls.filterMap fun call =>
    match call with
    | .instant reading | .elapsed reading => some reading
    | _ => none

/-- The clock never runs backwards. -/
def Calls.Nondecreasing (calls : List (Call S)) : Prop :=
  (Calls.readings calls).Pairwise fun newer older => older ≤ newer

/-- A later instant is not less far from the origin. -/
theorem durationSince_mono {earlier later : Nat} (origin : Nat) (order : earlier ≤ later) :
    durationSince earlier origin ≤ durationSince later origin := by
  rw [Duration.le_def]
  change min (earlier - origin) maxNanos ≤ min (later - origin) maxNanos
  omega

/-- The clock of older calls does not go back. -/
theorem Calls.Nondecreasing.older {call : Call S} {calls : List (Call S)}
    (monotone : Calls.Nondecreasing (call :: calls)) : Calls.Nondecreasing calls := by
  unfold Calls.Nondecreasing Calls.readings at monotone ⊢
  exact monotone.sublist ((List.sublist_cons_self call calls).filterMap _)

/-- Arrival times are read off the clock. -/
theorem Calls.Arrivals.read {platform : Platform} {origin : Nat} {calls : List (Call S)}
    {times : List Duration} (arrivals : Calls.Arrivals platform origin calls times) :
    ∀ time ∈ times, ∃ reading ∈ Calls.readings calls, time = durationSince reading origin := by
  induction arrivals with
  | none => exact fun time member => absurd member List.not_mem_nil
  | @change older times socket datagram reading earlier brings ih =>
      intro time member
      rcases List.mem_append.mp member with before | here
      · obtain ⟨reading', old, rfl⟩ := ih time before
        exact ⟨reading', List.mem_cons_of_mem reading old, rfl⟩
      · exact ⟨reading, List.mem_cons_self, List.mem_singleton.mp here⟩
  | @other older times call earlier quiet ih =>
      intro time member
      obtain ⟨reading, old, rfl⟩ := ih time member
      refine ⟨reading, ?_, rfl⟩
      exact ((List.sublist_cons_self call older).filterMap _).subset old

/-- On a clock that never runs backwards, the changes arrive in order. -/
theorem Calls.Arrivals.sorted {platform : Platform} {origin : Nat} {calls : List (Call S)}
    {times : List Duration} (arrivals : Calls.Arrivals platform origin calls times)
    (monotone : Calls.Nondecreasing calls) : times.Pairwise (· ≤ ·) := by
  induction arrivals with
  | none => exact List.Pairwise.nil
  | @change older times socket datagram reading earlier brings ih =>
      refine List.pairwise_append.mpr ⟨ih monotone.older.older, List.pairwise_singleton _ _, ?_⟩
      intro time member last here
      obtain ⟨earlier', old, rfl⟩ := earlier.read time member
      rw [List.mem_singleton.mp here]
      exact durationSince_mono origin ((List.pairwise_cons.mp monotone).1 earlier' old)
  | other earlier quiet ih => exact ih monotone.older

/-- **Batches.** Whatever an inventory returns, its batch holds the first and the
last arrival of a link change, and on a clock that never runs backwards the changes
arrive in order. Every state records ordered changes less than `eventReset` apart by
their batch exactly as it records them one by one; and it refuses any batch that
lacks an end, runs backwards or spans `eventReset`, and stays as it was. -/
theorem NetlinkSource.inventory_batch (source : NetlinkSource S) (attempt : Attempt) :
    (∀ result after, source.inventory attempt = some (result, after) →
      ∃ calls times, after.world.log = calls ++ source.world.log ∧
        Calls.Arrivals source.world.platform source.origin calls times ∧
        (returnedEvents result).first = times.head? ∧
        (returnedEvents result).last = times.getLast? ∧
        (Calls.Nondecreasing calls → times.Pairwise (· ≤ ·))) ∧
    (∀ (state : State) (times : List Duration), times.Pairwise (· ≤ ·) →
      (∀ first ∈ times.head?, ∀ last ∈ times.getLast?, last.saturatingSub first < eventReset) →
      state.recordBatch ⟨times.head?, times.getLast?⟩ =
        (.ok (), times.foldl State.recordEvent state)) ∧
    ∀ (state : State) (events : EventBatch),
      (events.first.isSome ≠ events.last.isSome ∨
        ∃ first last, events = ⟨some first, some last⟩ ∧
          (last < first ∨ eventReset ≤ last.saturatingSub first)) →
      ∃ error, state.recordBatch events = (.error error, state) := by
  refine ⟨fun result after returns => ?_, ?_, ?_⟩
  · obtain ⟨_, calls, returned⟩ := inventory_spec returns
    obtain ⟨times, arrivals, batched⟩ := returned.events
    exact ⟨calls, times, congrArg World.log returned.world, arrivals,
      congrArg EventBatch.first batched,
      congrArg EventBatch.last batched, arrivals.sorted⟩
  · intro state times sorted near
    exact state.recordBatch_eq_recordAll sorted near
  · rintro state ⟨first, last⟩ invalid
    refine ⟨_, State.recordBatch_of_not_valid fun valid => ?_⟩
    cases first with
    | none =>
        cases last with
        | none =>
            rcases invalid with apart | ⟨_, _, same, _⟩
            · exact apart rfl
            · cases same
        | some last => exact valid
    | some first =>
        cases last with
        | none => exact valid
        | some last =>
            obtain ⟨order, near⟩ := valid
            rcases invalid with apart | ⟨_, _, same, backwards | long⟩
            · exact apart rfl
            · cases same
              exact absurd order (not_le.mpr backwards)
            · cases same
              exact absurd near (not_lt.mpr long)

/-- The batch of the bonded world holds the changes of two readings. -/
theorem NetlinkSource.inventory_batch_bonded :
    (∃ times, Calls.Arrivals .plain 0 (.received .dump 4 (.ok (.rest 1)) :: bondedOlder) times ∧
      times.head? = some ⟨10000000, by decide⟩ ∧ times.getLast? = some ⟨15000000, by decide⟩ ∧
        times.Pairwise (· ≤ ·)) ∧
    (State.new .zero).recordBatch ⟨some (.fromSecs 5), some (.fromSecs 9)⟩ =
      (.ok (), [.fromSecs 5, .fromSecs 7, .fromSecs 9].foldl State.recordEvent (.new .zero)) ∧
    ∃ error, (State.new .zero).recordBatch ⟨none, some (.fromSecs 9)⟩ =
      (.error error, .new .zero) := by
  obtain ⟨summarises, records, refuses⟩ := inventory_batch bonded ⟨0⟩
  refine ⟨?_, ?_, ?_⟩
  · obtain ⟨calls, times, logged, arrivals, first, last, sorted⟩ := summarises _ _ bonded_inventory
    obtain rfl := List.append_cancel_right logged
    refine ⟨times, arrivals, first.symm, last.symm, sorted ?_⟩
    unfold Calls.Nondecreasing
    decide
  · exact records _ [.fromSecs 5, .fromSecs 7, .fromSecs 9] (by decide) (by
      intro first head last ends
      cases head
      cases ends
      decide)
  · exact refuses _ ⟨none, some (.fromSecs 9)⟩ (Or.inl (by decide))

end
end IfStack
