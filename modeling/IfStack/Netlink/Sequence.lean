import IfStack.Netlink.Calls
import IfStack.Netlink.Complete

/-! # Sequence numbers

The numbers that `next_sequence` yields over the life of a source. They run through all
nonzero values of a `u32` in a cycle. So a notification, which carries zero, is never taken
for a part of a dump, and neither is a reply to any request of the last cycle but the
current one.
-/

namespace IfStack

open Foundation

namespace NetlinkSource

variable {S : Type}

/-- The number of a request that `inventory` draws, if it opens its socket. -/
def drawn (source : NetlinkSource S) : Option UInt32 :=
  match source.world.openSocket 0 with
  | (.error _, _) => none
  | (.ok _, world) => some { source with world }.nextSequence.1

/-- The life of a source: any operations in any order, with the numbers drawn so far. -/
inductive Life : NetlinkSource S → List UInt32 → Prop
  | opened (world : World S) : Life (.withIo world) []
  | now {source : NetlinkSource S} {values : List UInt32} :
      Life source values → Life source.now.2 values
  | subscribe {source : NetlinkSource S} {values : List UInt32} :
      Life source values → Life source.subscribe.2 values
  | wait {source : NetlinkSource S} {values : List UInt32} (timeout : Duration) :
      Life source values → Life (source.wait timeout).2 values
  | inventory {source : NetlinkSource S} {values : List UInt32} {attempt : Attempt}
      {returned : Returned S} :
      Life source values → source.inventory attempt = some returned →
      Life returned.2 (values ++ source.drawn.toList)

/-- The number drawn after so many others. -/
def sequenceAt (count : Nat) : UInt32 := .ofNat (count % (2 ^ 32 - 1) + 1)

/-- The sequence numbers go round from one, without zero. -/
theorem sequenceAt_toNat (count : Nat) :
    (sequenceAt count).toNat = count % (2 ^ 32 - 1) + 1 := by
  unfold sequenceAt
  rw [UInt32.toNat_ofNat']
  omega

/-- No number is zero. -/
theorem sequenceAt_ne_zero (count : Nat) : sequenceAt count ≠ 0 := by
  intro zero
  have same := congrArg UInt32.toNat zero
  rw [sequenceAt_toNat] at same
  cases same

/-- Less than a cycle apart, numbers differ. -/
theorem sequenceAt_ne {earlier later : Nat} (before : earlier < later)
    (within : later < earlier + (2 ^ 32 - 1)) : sequenceAt earlier ≠ sequenceAt later := by
  intro equal
  have same := congrArg UInt32.toNat equal
  rw [sequenceAt_toNat, sequenceAt_toNat] at same
  omega

/-- The counter of a source that has drawn some numbers. -/
def Counts (source : NetlinkSource S) (values : List UInt32) : Prop :=
  values = (List.range values.length).map sequenceAt ∧
    source.sequence = values.getLast?.getD 0

/-- The next number is the next of the cycle. -/
theorem nextSequence_counts {source : NetlinkSource S} {count : Nat}
    (counts : source.sequence = ((List.range count).map sequenceAt).getLast?.getD 0) :
    source.nextSequence.1 = sequenceAt count := by
  unfold nextSequence
  dsimp only
  cases count with
  | zero =>
      change source.sequence = 0 at counts
      rw [counts]
      decide
  | succ count =>
      rw [List.range_succ, List.map_append, List.map_singleton, List.getLast?_concat,
        Option.getD_some] at counts
      rw [counts]
      apply UInt32.toNat_inj.mp
      have drawn := sequenceAt_toNat count
      have next := sequenceAt_toNat (count + 1)
      have wrapped : (sequenceAt count + 1).toNat = ((sequenceAt count).toNat + 1) % 2 ^ 32 :=
        UInt32.toNat_add _ _
      split <;> rename_i zero
      · have same := congrArg UInt32.toNat zero
        rw [wrapped, drawn] at same
        change _ = 0 at same
        rw [next]
        change 1 = _
        omega
      · have same := mt UInt32.toNat_inj.mp zero
        rw [wrapped, drawn] at same
        change _ ≠ 0 at same
        rw [wrapped, drawn, next]
        omega

/-- An inventory draws no number, or the next one. -/
theorem drawn_eq (source : NetlinkSource S) :
    source.drawn = none ∨ source.drawn = some source.nextSequence.1 := by
  unfold drawn
  split
  · exact .inl rfl
  · exact .inr rfl

/-- A number is drawn exactly when the socket opens. -/
theorem drawn_of_opened {source : NetlinkSource S} {answer : Except Error S}
    (opened : source.world.behaviour.openSocket source.world.log 0 = answer) :
    source.drawn = match answer with
      | .error _ => none
      | .ok _ => some source.nextSequence.1 := by
  simp only [drawn, World.openSocket, opened]
  cases answer <;> rfl

/-- Subscribing draws no number. -/
theorem subscribe_sequence (source : NetlinkSource S) :
    source.subscribe.2.sequence = source.sequence := by
  obtain ⟨_, subscribed⟩ := source.subscribe_subscribed
  generalize source.subscribe = returned at subscribed
  cases subscribed <;> rfl

/-- Waiting draws no number. -/
theorem wait_sequence (timeout : Duration) (source : NetlinkSource S) :
    (source.wait timeout).2.sequence = source.sequence := by
  obtain ⟨_, waited⟩ := source.wait_waited timeout
  rcases waited.leaves with after | after <;> rw [after] <;> rfl

/-- A pass of the dump loop leaves the counter alone. -/
theorem dumpPass_sequence (request : DumpRequest S) (state : DumpState S) :
    (left (dumpPass request state)).sequence = state.source.sequence := by
  obtain ⟨_, _, passing⟩ := dumpPass_passing request state
  rcases passing.leaves with after | after <;> rw [after] <;> rfl

/-- What an inventory draws is what its request carries. -/
theorem beginDump_sequence (attempt : Attempt) (source : NetlinkSource S) :
    match beginDump attempt source with
    | .ok (request, state) => source.drawn = some request.sequence ∧
        state.source.sequence = request.sequence
    | .error returned => returned.2.sequence = source.drawn.getD source.sequence := by
  obtain ⟨_, answers, begun⟩ := beginDump_begun attempt source
  generalize beginDump attempt source = outcome at begun
  -- the first call opens the socket, and its answer settles whether a number is drawn
  cases begun with
  | unopened =>
      rw [drawn_of_opened answers.1]
      rfl
  | unsent made =>
      subst made
      rw [drawn_of_opened answers.2.1]
      rfl
  | requested made =>
      subst made
      exact ⟨drawn_of_opened answers.2.2.1, rfl⟩

/-- An inventory leaves the counter at the number it has drawn. -/
theorem inventory_sequence {attempt : Attempt} {source : NetlinkSource S} {returned : Returned S}
    (ran : source.inventory attempt = some returned) :
    returned.2.sequence = source.drawn.getD source.sequence := by
  have begun := beginDump_sequence attempt source
  unfold inventory at ran
  cases begins : beginDump attempt source with
  | error early =>
      simp only [begins] at ran begun
      cases ran
      exact begun
  | ok result =>
      obtain ⟨request, state⟩ := result
      simp only [begins] at ran begun
      obtain ⟨drawn, numbered⟩ := begun
      have kept (state : DumpState S) (outcome : Except (Returned S) (DumpState S))
          (same : state.source.sequence = request.sequence)
          (moved : dumpPass request state = outcome) :
          (left outcome).sequence = request.sequence :=
        moved ▸ (dumpPass_sequence request state).trans same
      rw [drawn, Option.getD_some]
      exact Loop.run_invariant (fun state => state.source.sequence = request.sequence)
        (fun returned => returned.2.sequence = request.sequence)
        (fun state next => kept state (.ok next))
        (fun state returned => kept state (.error returned)) numbered ran

/-- A source counts the numbers it draws. -/
theorem Life.counts {source : NetlinkSource S} {values : List UInt32}
    (life : Life source values) : Counts source values := by
  induction life with
  | opened world => exact ⟨rfl, rfl⟩
  | now _ ih => exact ih
  | subscribe _ ih => exact ⟨ih.1, (subscribe_sequence _).trans ih.2⟩
  | wait timeout _ ih => exact ⟨ih.1, (wait_sequence timeout _).trans ih.2⟩
  | @inventory source values attempt returned _ ran ih =>
      have counted := inventory_sequence ran
      rcases drawn_eq source with none | some
      · rw [none] at counted ⊢
        rw [Option.toList_none, List.append_nil]
        exact ⟨ih.1, counted.trans ih.2⟩
      · rw [some] at counted ⊢
        obtain ⟨run, last⟩ := ih
        rw [run] at last
        have next := nextSequence_counts last
        rw [next] at counted ⊢
        refine ⟨?_, ?_⟩
        · rw [Option.toList_some, List.length_append, List.length_singleton, List.range_succ,
            List.map_append, ← run]
          rfl
        · rw [Option.toList_some, List.getLast?_concat]
          exact counted

/-- No datagram with the message is accepted as a part of a dump. -/
def RefusedBy (sequence : UInt32) (message : NetlinkMessage) : Prop :=
  ∀ platform bytes messages links, decodeDatagram platform bytes = .ok messages →
    message ∈ messages → ∃ error, (consumeDump platform bytes sequence links).1 = .error error

/-- A dump consists of answers to its request. -/
theorem ReportsAll.answers {sequence : UInt32} {messages : List NetlinkMessage}
    {links : List ObservedLink} (reports : ReportsAll sequence messages links) :
    ∀ message ∈ messages, message.Answers sequence := by
  induction reports with
  | nil => exact fun _ member => absurd member List.not_mem_nil
  | cons report _ ih => exact List.forall_mem_cons.mpr ⟨report.1, ih⟩

/-- A message that answers another request is refused. -/
theorem refusedBy {sequence : UInt32} {message : NetlinkMessage}
    (other : message.header.sequenceNumber ≠ sequence) : RefusedBy sequence message := by
  intro platform bytes messages links decoded member
  rcases consumed : consumeDump platform bytes sequence links with ⟨error | finished, left⟩
  · exact ⟨error, rfl⟩
  · obtain ⟨messages', front, observed, decoded', reports, _, ends⟩ :=
      @PartialDump.consumeDump_ok platform sequence links left ⟨bytes, true, false⟩ finished
        consumed
    cases decoded.symm.trans decoded'
    exfalso
    apply other
    cases finished with
    | false =>
        have all : messages = front := ends
        exact (ReportsAll.answers reports message (all ▸ member)).1
    | true =>
        obtain ⟨done, rfl, last⟩ := ends
        rcases List.mem_append.mp member with member | member
        · exact (ReportsAll.answers reports message member).1
        · rw [List.mem_singleton.mp member]
          exact last.1.1

/-- A notification that is accepted answers no request. -/
theorem notified_sequence {platform : Platform} {datagram : Datagram} {changed : Bool}
    {messages : List NetlinkMessage} (accepted : notifyDatagram platform datagram = .ok changed)
    (decoded : decodeDatagram platform datagram.bytes = .ok messages) :
    ∀ message ∈ messages, message.header.sequenceNumber = 0 := by
  intro message member
  have judged := notifyDatagram_spec platform datagram
  rw [accepted] at judged
  by_contra nonzero
  apply judged.1
  exact .inr (.inr (.inr (.inr ⟨messages, decoded, message, member, .inl nonzero⟩)))

/-- The numbers drawn so far, and the one that an inventory is about to draw. -/
theorem Life.drawn {source : NetlinkSource S} {values : List UInt32}
    (life : Life source values) : values ++ source.drawn.toList =
      (List.range (values ++ source.drawn.toList).length).map sequenceAt := by
  obtain ⟨run, last⟩ := life.counts
  rcases drawn_eq source with none | some
  · rw [none, Option.toList_none, List.append_nil]
    exact run
  · rw [run] at last
    rw [some, nextSequence_counts last, Option.toList_some, List.length_append,
      List.length_singleton, List.range_succ, List.map_append, ← run]
    rfl

/-- A number of the cycle stands at its position. -/
theorem getElem?_run {values : List UInt32} {position : Nat} {value : UInt32}
    (run : values = (List.range values.length).map sequenceAt)
    (found : values[position]? = some value) :
    position < values.length ∧ value = sequenceAt position := by
  obtain ⟨inside, same⟩ := List.getElem?_eq_some_iff.mp found
  refine ⟨inside, ?_⟩
  rw [run, List.getElem?_map, List.getElem?_range inside] at found
  exact (Option.some.inj found).symm

/-- The last numbers of the cycle are not far from its end. -/
theorem recent_run {values : List UInt32} {count : Nat} {value : UInt32}
    (run : values = (List.range values.length).map sequenceAt)
    (recent : value ∈ values.reverse.take count) :
    ∃ position < values.length, values.length ≤ position + count ∧
      value = sequenceAt position := by
  obtain ⟨back, found⟩ := List.mem_iff_getElem?.mp recent
  rw [List.getElem?_take] at found
  split at found <;> rename_i near
  · have inside := (List.getElem?_eq_some_iff.mp found).1
    rw [List.length_reverse] at inside
    rw [List.getElem?_reverse inside] at found
    obtain ⟨_, same⟩ := getElem?_run run found
    exact ⟨_, by omega, by omega, same⟩
  · cases found

/-- **Sequence numbers.** Over the life of a source, no number is zero and any
`2 ^ 32 - 1` consecutive ones differ. So what is accepted as a notification is refused by
every dump, and a reply to any of the `2 ^ 32 - 2` requests before the current one is
refused by the current dump. -/
theorem sequences_separate {source : NetlinkSource S} {values : List UInt32}
    (life : Life source values) :
    0 ∉ values ++ source.drawn.toList ∧
    (∀ earlier later first second, earlier < later → later - earlier < 2 ^ 32 - 1 →
      (values ++ source.drawn.toList)[earlier]? = some first →
      (values ++ source.drawn.toList)[later]? = some second → first ≠ second) ∧
    (∀ sequence ∈ values ++ source.drawn.toList, ∀ platform datagram changed messages,
      notifyDatagram platform datagram = .ok changed →
      decodeDatagram platform datagram.bytes = .ok messages →
      ∀ message ∈ messages, RefusedBy sequence message) ∧
    (∀ attempt request state, beginDump attempt source = .ok (request, state) →
      ∀ earlier ∈ values.reverse.take (2 ^ 32 - 2), ∀ message : NetlinkMessage,
        message.header.sequenceNumber = earlier → RefusedBy request.sequence message) := by
  have run := life.drawn
  have nonzero : 0 ∉ values ++ source.drawn.toList := by
    intro member
    rw [run] at member
    obtain ⟨position, _, zero⟩ := List.mem_map.mp member
    exact sequenceAt_ne_zero position zero
  refine ⟨nonzero, ?_, ?_, ?_⟩
  · intro earlier later first second before within found found'
    rw [(getElem?_run run found).2, (getElem?_run run found').2]
    exact sequenceAt_ne before (by omega)
  · intro sequence member platform datagram changed messages accepted decoded message inside
    apply refusedBy
    rw [notified_sequence accepted decoded message inside]
    intro zero
    exact nonzero (zero ▸ member)
  · intro attempt request state begins earlier recent message replies
    have begun := beginDump_sequence attempt source
    rw [begins] at begun
    have current : request.sequence = source.nextSequence.1 := by
      rcases drawn_eq source with none | some
      · cases none.symm.trans begun.1
      · exact Option.some.inj (begun.1.symm.trans some)
    obtain ⟨run', last⟩ := life.counts
    rw [run'] at last
    obtain ⟨position, inside, near, rfl⟩ := recent_run run' recent
    apply refusedBy
    rw [replies, current, nextSequence_counts last]
    exact sequenceAt_ne inside (by omega)

/-- The life of the bonded source through its first inventory. -/
theorem bonded_life : Life bondedAfter [1] := by
  have begun : Life bonded [] := .now (.subscribe (.now (.opened .bonded)))
  exact .inventory begun bonded_inventory

/-- A second dump refuses the answers to the first. -/
theorem sequences_separate_bonded : ∃ request state,
    beginDump ⟨1⟩ bondedAfter = .ok (request, state) ∧ request.sequence = 2 ∧
      ∀ message : NetlinkMessage, message.header.sequenceNumber = 1 →
        RefusedBy request.sequence message :=
  ⟨_, _, rfl, rfl, (sequences_separate bonded_life).2.2.2 ⟨1⟩ _ _ rfl 1 (by decide)⟩

end NetlinkSource
end IfStack
