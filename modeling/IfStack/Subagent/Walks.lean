import IfStack.Mib.BulkWalk
import IfStack.Mib.Rows
import IfStack.Session.Manager
import IfStack.Subagent.Reads

/-! # Walks of a running process

A manager walks the table with one request after the other, each for the next name or for
many at once, while the monitor publishes and sessions come and go. A response is cut at
its bound, and the next request starts at the name that was read last, so nothing between
the two is lost.
-/

namespace IfStack

open Foundation

namespace Mib

variable {ID : Type} [AgentxId ID] [LawfulAgentxId ID]

/-- GetNext answers with a row of the table, or with the start of its range. -/
theorem getNext_simple (rows : List (UInt32 × UInt32)) (range : SearchRange ID)
    (short : Codec.Short range.start) :
    Codec.Short ((fromRows rows).getNext range).name ∧
      (((fromRows rows).getNext range).data = .integer 1 ∨
        ((fromRows rows).getNext range).data = .endOfMibView) := by
  rcases getNext_spec (fromRows rows) range with ⟨entry, member, visits, _⟩ | ⟨ends, _⟩
  · obtain ⟨⟨row, _, named⟩, value⟩ := entries_fromRows rows entry member
    rw [visits, value]
    refine ⟨?_, .inl rfl⟩
    rw [Codec.Short, binding, LawfulAgentxId.components_withIncluded,
      numbers_eq_iff.mp named.symm]
    exact (by decide : 13 ≤ 128)
  · rw [ends]
    refine ⟨?_, .inr rfl⟩
    rw [Codec.Short, binding, LawfulAgentxId.components_withIncluded]
    exact short

/-- A walk over one table returns short names, with the value 1 or an end. -/
theorem walk_simple (rows : List (UInt32 × UInt32)) (range : SearchRange ID)
    (short : Codec.Short range.start) (requests : Nat) :
    ∀ answer ∈ bindings (walk (.replicate requests (fromRows rows)) range),
      Codec.Short answer.name ∧ (answer.data = .integer 1 ∨ answer.data = .endOfMibView) := by
  induction requests generalizing range with
  | zero => exact fun answer member => absurd member List.not_mem_nil
  | succ requests ih =>
      have first := getNext_simple rows range short
      rw [List.replicate_succ]
      by_cases ends : ((fromRows rows).getNext range).data = .endOfMibView
      · rw [walk_of_end _ ends]
        exact List.forall_mem_singleton.mpr first
      · rw [walk_of_row ends (Prod.mk.eta).symm]
        exact List.forall_mem_cons.mpr ⟨first, ih _ first.1⟩

/-- A walk over one table that does not end makes all its requests, and what it returns
are rows of the table. -/
theorem walk_rows (rows : List (UInt32 × UInt32)) (range : SearchRange ID) (requests : Nat) :
    ((walk (.replicate requests (fromRows rows)) range).2 = none →
        (walk (.replicate requests (fromRows rows)) range).1.length = requests) ∧
      ∀ answer ∈ (walk (.replicate requests (fromRows rows)) range).1,
        ∃ row ∈ rows, rowNumbers row = numbers answer.name := by
  have walks := walk_walks (List.replicate requests rows) range
  rw [List.map_replicate, List.map_replicate] at walks
  constructor
  · intro pending
    have length := walks.length_eq
    rw [pending] at length
    simpa using length
  · intro answer member
    obtain ⟨names, listed, present⟩ := walks.mem_served _ (List.mem_map_of_mem member)
    rwa [List.eq_of_mem_replicate listed] at present

end Mib

/-- A GetNext or bulk request of one range is answered by a walk over the one table. -/
theorem Codec.readBindings_walk {ID : Type} [AgentxId ID] {header : Header}
    (ty : header.ty ≠ .get) (mib : Mib ID) (range : SearchRange ID)
    (bulk : Option (UInt16 × UInt16)) :
    readBindings header mib [range] bulk =
      Mib.bindings (Mib.walk (.replicate (Mib.repeats bulk) mib) range) := by
  cases bulk with
  | none =>
      refine Eq.trans ?_ (Mib.bindings_single mib range).symm
      simp [readBindings, ty]
  | some counts => exact Mib.getBulk_walk mib range counts.1 counts.2

namespace Subagent

variable {σ ID : Type} [AgentxId ID] [LawfulAgentxId ID] [Acquisition σ] {codec : Codec ID}
  {config : FullConfig} {source : σ} {history : List Event} {subagent : Subagent σ ID}

/-- An event in which a GetNext or bulk request of one range is accepted, how many names
it asks for, and the bindings that the manager reads in what is written for it. -/
structure Fetched (codec : Codec ID) (read : List UInt8 → Option (List (VarBind ID)))
    (event : Event) (range : SearchRange ID) (asked : Nat) (answers : List (VarBind ID)) :
    Prop where
  exchanged : ∃ opened header bytes bulk written,
    event = .passed opened [.received header bytes, .wrote written] ∧
    header.sessionId = opened.sessionId ∧ header.ty ≠ .get ∧
    codec.Accepted header bytes [range] bulk ∧ Mib.repeats bulk = asked ∧
    read written = some answers

/-- A request of a walk: what had happened before it, how many names it asked for, and the
rows that the manager took from its answer. -/
structure Fetch (ID : Type) where
  before : List Event
  asked : Nat
  rows : List (VarBind ID)

/-- The walks of a manager in a history, request by request, with the `endOfMibView` that
ended it. What comes behind the first one in an answer is ignored. Each request starts at
the name that was read last. -/
inductive Fetches (codec : Codec ID) (read : List UInt8 → Option (List (VarBind ID)))
    (history : List Event) :
    SearchRange ID → List (Fetch ID) → Option (VarBind ID) → Prop
  /-- All requests so far have been answered. -/
  | pending {range : SearchRange ID} : Fetches codec read history range [] none
  | ended {newer older : List Event} {event : Event} {range : SearchRange ID} {asked : Nat}
      {answers : List (VarBind ID)} {ending : VarBind ID} (here : history = newer ++ event :: older)
      (fetched : Fetched codec read event range asked answers)
      (ends : answers.find? (fun answer => answer.data.isEnd) = some ending) :
      Fetches codec read history range
        [⟨older, asked, answers.takeWhile fun answer => !answer.data.isEnd⟩] (some ending)
  | continued {newer older : List Event} {event : Event} {range : SearchRange ID} {asked : Nat}
      {answers : List (VarBind ID)} {fetches : List (Fetch ID)} {final : Option (VarBind ID)}
      (here : history = newer ++ event :: older)
      (fetched : Fetched codec read event range asked answers)
      (goes : answers.find? (fun answer => answer.data.isEnd) = none)
      (rest : Fetches codec read history (range.after answers) fetches final) :
      Fetches codec read history range (⟨older, asked, answers⟩ :: fetches) final

variable {read : List UInt8 → Option (List (VarBind ID))}

/-- The manager reads a walk over the table of the latest accepted topology. -/
theorem Run.fetched (displays : codec.Displays) (encodes : codec.EncodesResponses)
    (replies : codec.Replies) (reads : codec.ReadsBindings read) {newer older : List Event}
    {event : Event} {range : SearchRange ID} {asked : Nat} {answers : List (VarBind ID)}
    (run : Run codec config source (newer ++ event :: older) subagent)
    (few : History.losses (entries (newer ++ event :: older)) < 2 ^ 64)
    (fetched : Fetched codec read event range asked answers) :
    ∃ topology, History.LatestAccepted (entries older) topology ∧
      answers = Mib.bindings (Mib.walk (.replicate asked (.fromTopology topology)) range) := by
  obtain ⟨opened, header, bytes, bulk, written, rfl, own, ty, accepted, rfl, got⟩ :=
    fetched.exchanged
  obtain ⟨written', shown, encoded, same, rfl⟩ :=
    run.read_eq displays encodes List.mem_cons_self own accepted
  cases shown
  cases value : Register.value History.publicationEffect (entries older) with
  | none =>
      rw [value] at same
      have nothing := reads.refused _ _ same (by exact nofun)
      cases got.symm.trans nothing
  | some topology =>
      rw [value] at same
      obtain ⟨start, _⟩ := accepted.short range List.mem_cons_self
      have simple := Mib.walk_simple (Mib.topologyRows topology) range start (Mib.repeats bulk)
      have found := reads.answered _ _ _ same (replies.resError header)
        (congrArg some (Codec.readBindings_walk ty _ range bulk)) simple
      exact ⟨topology, History.latestAccepted_of_value (losses_older few) value,
        Option.some.inj (got.symm.trans found)⟩

/-- A request of a walk as the table of a topology serves it. -/
structure Served (fetch : Fetch ID) (topology : Topology) : Prop where
  latest : History.LatestAccepted (entries fetch.before) topology
  rows : ∀ answer ∈ fetch.rows, ∃ row, topology.StackRow row ∧
    rowNumbers row = numbers answer.name

/-- A walk over one table is served from it. -/
theorem served_of_walk {older : List Event} {topology : Topology}
    (latest : History.LatestAccepted (entries older) topology) {asked : Nat}
    {range : SearchRange ID} {rows : List (VarBind ID)} {final : Option (VarBind ID)}
    (walked : Mib.walk (.replicate asked (.fromTopology topology)) range = (rows, final)) :
    Served ⟨older, asked, rows⟩ topology := by
  refine ⟨latest, fun answer member => ?_⟩
  have listed := (Mib.walk_rows (Mib.topologyRows topology) range asked).2
  change ∀ answer ∈ (Mib.walk (.replicate asked (.fromTopology topology)) range).1, _ at listed
  rw [walked] at listed
  obtain ⟨row, inside, named⟩ := listed answer member
  exact ⟨row, Mib.mem_topologyRows.mp inside, named⟩

/-- The requests of a manager make up one walk over the tables of these topologies, and
each but the one that ends it returns as many rows as it asked for. -/
theorem Run.fetches (displays : codec.Displays) (encodes : codec.EncodesResponses)
    (replies : codec.Replies) (reads : codec.ReadsBindings read)
    (run : Run codec config source history subagent)
    (few : History.losses (entries history) < 2 ^ 64) {range : SearchRange ID}
    {fetches : List (Fetch ID)} {final : Option (VarBind ID)}
    (fetched : Fetches codec read history range fetches final) :
    ∃ (topologies : List Topology) (tables : List (List (UInt32 × UInt32))),
      List.Forall₂ Served fetches topologies ∧
      (∀ rows ∈ tables, ∃ topology ∈ topologies, Mib.topologyRows topology = rows) ∧
      Mib.walk (tables.map Mib.fromRows) range = (fetches.flatMap Fetch.rows, final) ∧
      (final = none → ∀ fetch ∈ fetches, fetch.rows.length = fetch.asked) ∧
      ∀ fetch ∈ fetches.dropLast, fetch.rows.length = fetch.asked := by
  induction fetched with
  | pending =>
      exact ⟨[], [], .nil, fun _ listed => absurd listed List.not_mem_nil, rfl,
        fun _ _ listed => absurd listed List.not_mem_nil,
        fun _ listed => absurd listed List.not_mem_nil⟩
  | @ended _ _ _ range asked _ ending here fetched ends =>
      subst here
      obtain ⟨topology, latest, rfl⟩ := run.fetched displays encodes replies reads few fetched
      obtain ⟨found, taken⟩ :=
        Mib.find?_bindings (.replicate asked (.fromTopology topology)) range
      have walked : Mib.walk (.replicate asked (.fromTopology topology)) range =
        (_, some ending) := Prod.ext taken.symm (found.symm.trans ends)
      refine ⟨[topology], .replicate asked (Mib.topologyRows topology),
        .cons (served_of_walk latest walked) .nil, fun rows listed => ?_, ?_,
        fun pending => absurd pending (Option.some_ne_none ending),
        fun _ listed => absurd listed List.not_mem_nil⟩
      · exact ⟨topology, List.mem_singleton_self _, (List.eq_of_mem_replicate listed).symm⟩
      · rw [List.map_replicate, List.flatMap_singleton]
        exact walked
  | @continued _ _ _ range asked _ fetches final here fetched goes rest ih =>
      obtain ⟨topologies, tables, served, tabled, walks, full, others⟩ := ih
      subst here
      obtain ⟨topology, latest, rfl⟩ := run.fetched displays encodes replies reads few fetched
      have pending := (Mib.find?_bindings (.replicate asked (.fromTopology topology))
        range).1.symm.trans goes
      have walked : Mib.walk (.replicate asked (.fromTopology topology)) range =
          (Mib.bindings (Mib.walk (.replicate asked (.fromTopology topology)) range), none) := by
        refine Prod.ext ?_ pending
        rw [Mib.bindings, pending, Option.toList_none, List.append_nil]
      have length : (Mib.bindings (Mib.walk (.replicate asked (.fromTopology topology))
          range)).length = asked := by
        have count := (Mib.walk_rows (Mib.topologyRows topology) range asked).1 pending
        rwa [Mib.bindings, pending, Option.toList_none, List.append_nil]
      refine ⟨topology :: topologies, .replicate asked (Mib.topologyRows topology) ++ tables,
        .cons (served_of_walk latest walked) served, fun rows listed => ?_, ?_,
        fun none => List.forall_mem_cons.mpr ⟨length, full none⟩, ?_⟩
      · rcases List.mem_append.mp listed with here | behind
        · exact ⟨topology, List.mem_cons_self, (List.eq_of_mem_replicate here).symm⟩
        · obtain ⟨other, inside, same⟩ := tabled rows behind
          exact ⟨other, List.mem_cons_of_mem _ inside, same⟩
      · rw [List.map_append, List.map_replicate, List.flatMap_cons]
        exact Mib.walk_append_of_pending walked walks
      · cases fetches with
        | nil => exact fun _ listed => absurd listed List.not_mem_nil
        | cons next fetches => exact List.forall_mem_cons.mpr ⟨length, others⟩

/-- **Walks of the process.** Whatever is published and whichever sessions serve the
requests, and however many names each of them asks for, a manager reads names in strictly
increasing order, each that of a row of the interface stack that is the latest accepted one
at its request. A request returns as many rows as it asks for, at most 4096, unless it ends
the walk. When the walk has ended, it has read each row of its range that was in all of
these stacks exactly once. -/
theorem Run.walk_live (displays : codec.Displays) (encodes : codec.EncodesResponses)
    (replies : codec.Replies) (reads : codec.ReadsBindings read)
    (run : Run codec config source history subagent)
    (few : History.losses (entries history) < 2 ^ 64) {range : SearchRange ID}
    {fetches : List (Fetch ID)} {final : Option (VarBind ID)}
    (fetched : Fetches codec read history range fetches final) :
    ∃ topologies : List Topology, List.Forall₂ Served fetches topologies ∧
      ((fetches.flatMap Fetch.rows).map fun answer => numbers answer.name).Pairwise (· < ·) ∧
      (∀ answer ∈ fetches.flatMap Fetch.rows, answer.data = .integer 1 ∧
        numbers answer.name ∈ range.floor ∧ numbers answer.name ∈ range.ceiling) ∧
      (final = none → ∀ fetch ∈ fetches, fetch.rows.length = fetch.asked) ∧
      (∀ fetch ∈ fetches.dropLast, fetch.rows.length = fetch.asked) ∧
      ∀ ending, final = some ending → ∀ row, rowNumbers row ∈ range.floor →
        rowNumbers row ∈ range.ceiling → (∀ topology ∈ topologies, topology.StackRow row) →
          ((fetches.flatMap Fetch.rows).map fun answer => numbers answer.name).count
            (rowNumbers row) = 1 := by
  obtain ⟨topologies, tables, served, tabled, walked, full, others⟩ :=
    run.fetches displays encodes replies reads few fetched
  obtain ⟨sorted, bounded, complete⟩ := Mib.walk_reads walked
  refine ⟨topologies, served, sorted, bounded, full, others,
    fun ending concluded row above below present => ?_⟩
  refine complete ending concluded row above below fun rows listed => ?_
  obtain ⟨topology, inside, rfl⟩ := tabled rows listed
  exact Mib.mem_topologyRows.mpr (present topology inside)

/-- A request from a name on, without an end, and what is read in its answer. -/
structure Asking where
  ty : PduType
  counts : List UInt8
  bulk : Option (UInt16 × UInt16)
  subids : List UInt32
  answers : List (VarBind PlainId)

namespace Asking

variable (asking : Asking)

/-- The header of the request. -/
def header : Header :=
  ⟨1, asking.ty, networkOrder, 7, 0, 4,
    .ofNat (8 + asking.counts.length + 4 * asking.subids.length)⟩

/-- Its bytes. -/
def bytes : List UInt8 :=
  Wire.encodeHeader asking.header ++ asking.counts ++
    Wire.encodeId .bigEndian ⟨asking.subids, 0⟩ ++ Wire.encodeId .bigEndian ⟨[], 0⟩

/-- The range it asks for. -/
def range : SearchRange PlainId := ⟨⟨asking.subids, 0⟩, ⟨[], 0⟩⟩

/-- What is written for it. -/
def written : List UInt8 :=
  Wire.encodeResponse { Codec.bulk.reply asking.header with vb := some asking.answers }

/-- The request with its answer. -/
def event : Event :=
  .passed acknowledged [.received asking.header asking.bytes, .wrote asking.written]

end Asking

/-- Requests that walk over a bond alone, for the next name and for ten. -/
def bondWalk : List Asking :=
  [⟨.getNext, [], none, [], [⟨⟨rowName (0, 9), 0⟩, .integer 1⟩]⟩,
    ⟨.getBulk, [0, 0, 0, 10], some (0, 10), rowName (0, 9),
      [⟨⟨rowName (9, 0), 0⟩, .integer 1⟩, ⟨⟨rowName (9, 0), 0⟩, .endOfMibView⟩]⟩]

/-- What they show, newest first. -/
def bondWalkEvents : List Event := (bondWalk.map Asking.event).reverse

/-- Each of the requests is fetched. -/
theorem fetched_bondWalk : ∀ asking ∈ bondWalk, Fetched Codec.bulk Wire.decodeAnswers
    asking.event asking.range (Mib.repeats asking.bulk) asking.answers := by
  intro asking member
  have facts : ∀ asking ∈ bondWalk, asking.subids.length ≤ 128 ∧
      Wire.decodeAnswers asking.written = some asking.answers ∧
      (asking.ty = .getNext ∨ asking.ty = .getBulk) := by
    decide +kernel
  have decoded : ∀ asking ∈ bondWalk, Codec.bulk.readRequest asking.header asking.bytes =
      .ok ([asking.range], asking.bulk) :=
    List.forall_mem_cons.mpr ⟨rfl, List.forall_mem_singleton.mpr rfl⟩
  obtain ⟨short, read, ty⟩ := facts asking member
  have accepted : Codec.bulk.Accepted asking.header asking.bytes [asking.range] asking.bulk := by
    have context : networkOrder &&& nonDefaultContext = 0 := by decide
    refine ⟨context, .inr ty, Codec.readRequest_iff.mp (decoded asking member), ?_, ?_⟩
    · exact List.forall_mem_singleton.mpr ⟨short, Nat.zero_le _⟩
    · exact List.forall_mem_singleton.mpr (.inl rfl)
  have other : asking.header.ty ≠ .get := by
    rintro get
    rcases ty with ty | ty <;> cases ty.symm.trans get
  exact ⟨_, _, _, _, _, rfl, rfl, other, accepted, rfl, read⟩

/-- After these events the manager has walked over the bond. -/
theorem fetches_bondWalk (older : List Event) :
    ∃ fetches ending, fetches.length = 2 ∧
      Fetches Codec.bulk Wire.decodeAnswers (bondWalkEvents ++ older) ⟨⟨[], 0⟩, ⟨[], 0⟩⟩ fetches
        (some ending) := by
  obtain ⟨first, fetched⟩ := List.forall_mem_cons.mp fetched_bondWalk
  have last := List.forall_mem_singleton.mp fetched
  have ended := @Fetches.ended _ _ _ _ _ (bondWalkEvents ++ older) [] _ _ _ _ _ _ rfl last rfl
  exact ⟨[_, _], _, rfl, @Fetches.continued _ _ _ _ _ _ [_] _ _ _ _ _ _ _ rfl first rfl ended⟩

/-- A manager walks over a bond by two requests in one run. -/
theorem Run.walk_live_bond : ∃ (history : List Event) (subagent : Subagent Script PlainId),
    Run .bulk .default bondSource history subagent ∧
    ∃ (fetches : List (Fetch PlainId)) (topologies : List Topology),
      fetches.length = 2 ∧ List.Forall₂ Served fetches topologies := by
  obtain ⟨history, subagent, run, first, kept⟩ := Run.of_shown Codec.bulk .default bondSource
    ([.pass, .pass, .connect 0 (requesting (bondWalk.flatMap Asking.bytes)), .monitor, .monitor,
      .monitor, .monitor])
    (fun history (_ : Subagent Script PlainId) => history.take 2 = bondWalkEvents ∧
      History.losses (entries history) = 0) (by decide +kernel)
  have split := List.take_append_drop 2 history
  rw [first] at split
  obtain ⟨fetches, ending, length, walked⟩ := fetches_bondWalk (history.drop 2)
  rw [split] at walked
  obtain ⟨topologies, served, _⟩ := run.walk_live Codec.bulk_displays
    Codec.bulk_encodesResponses Codec.bulk_replies Codec.bulk_readsBindings (kept ▸ by decide)
    walked
  exact ⟨history, subagent, run, fetches, topologies, length, served⟩

end Subagent
end IfStack
