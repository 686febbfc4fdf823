import IfStack.Mib.Lookup
import IfStack.Netlink.Provenance
import IfStack.Subagent.Reads

/-! # From the kernel to the manager

The whole way of a row. A read request is answered from the links that the kernel
reported in a complete dump, over the subscription that the monitor still held when the
request came, and no fault of its stream lay between the two. A Get of the name of a row
is answered with 1 exactly when these links make the row one of the stack.
-/

namespace IfStack

open Foundation

/-- A Get answers the name of a row with itself, and with 1 exactly when the topology has
the row. -/
theorem Mib.get_row {ID : Type} [AgentxId ID] [LawfulAgentxId ID] (topology : Topology)
    {name : ID} {row : UInt32 × UInt32}
    (named : LawfulAgentxId.components name = rowName row) :
    LawfulAgentxId.components ((fromTopology topology).get name).name = rowName row ∧
      (((fromTopology topology).get name).data = .integer 1 ↔ topology.StackRow row) := by
  constructor
  · rw [fromTopology, get_spec, binding, LawfulAgentxId.components_withIncluded, named]
  · rw [fromTopology, (get_data _ _).1]
    constructor
    · rintro ⟨other, listed, same⟩
      rw [rowName_inj.mp (named.symm.trans same)]
      exact mem_topologyRows.mp listed
    · exact fun stacked => ⟨row, mem_topologyRows.mpr stacked, named⟩

namespace Codec

variable {ID : Type} [AgentxId ID] [LawfulAgentxId ID] {header : Header}

/-- The bindings of a Get, one for each range, tell which of the names are rows. -/
theorem readBindings_get (topology : Topology) (ranges : List (SearchRange ID))
    (ty : header.ty = .get) :
    List.Forall₂ (fun range binding => ∀ row,
      LawfulAgentxId.components range.start = rowName row →
        LawfulAgentxId.components binding.name = rowName row ∧
          (binding.data = .integer 1 ↔ topology.StackRow row))
      ranges (readBindings header (.fromTopology topology) ranges none) := by
  rw [readBindings, List.forall₂_map_right_iff, List.forall₂_same]
  intro range _ row named
  rw [if_pos ty]
  exact Mib.get_row topology named

end Codec

namespace Subagent

variable {S ID : Type} [AgentxId ID] [LawfulAgentxId ID] {codec : Codec ID} {config : FullConfig}
  {world : World S} {subagent : Subagent (NetlinkSource S) ID}

/-- **From the kernel to the manager.** A Get that is accepted, whatever the threads did
before, is answered with `ProcessingError` or, name by name, from the links of a complete
dump that the monitor had received over the subscription that it held when the request came,
with no fault of the stream of the subscription since it was made. -/
theorem Run.reads_kernel (displays : codec.Displays) (encodes : codec.EncodesResponses)
    {newer older : List Event} {opened header : Header} {shown : List SessionEvent}
    {bytes : List UInt8} {ranges : List (SearchRange ID)} {bulk : Option (UInt16 × UInt16)}
    (run : Run codec config (.withIo world) (newer ++ .passed opened shown :: older) subagent)
    (received : .received header bytes ∈ shown) (own : header.sessionId = opened.sessionId)
    (accepted : codec.Accepted header bytes ranges bulk) (ty : header.ty = .get) :
    ∃ response written, shown = [.received header bytes, .wrote written] ∧
      codec.Encodes response none written ∧
      (response = { codec.reply header with resError := .processingError } ∨
        ∃ (monitor : Monitor (NetlinkSource S) ID) (socket : S) (topology : Topology)
          (recent : List (Call S)) (bindings : List (VarBind ID)),
          IfStack.Run (.withIo world) (.fromSecs config.reconcile) (entries older) monitor ∧
          monitor.actor.publication.snapshot = some (.fromTopology topology) ∧
          monitor.source.notification = some socket ∧
          Dumped monitor.source.world.platform socket monitor.source.world.log topology recent ∧
          response = { codec.reply header with vb := some bindings } ∧
          List.Forall₂ (fun range binding => ∀ row,
            LawfulAgentxId.components range.start = rowName row →
              LawfulAgentxId.components binding.name = rowName row ∧
                (binding.data = .integer 1 ↔ topology.StackRow row)) ranges bindings) := by
  obtain ⟨written, answered, encoded⟩ := run.read_eq displays encodes received own accepted
  refine ⟨_, written, answered, encoded, ?_⟩
  cases value : Register.value History.publicationEffect (entries older) with
  | none => exact .inl rfl
  | some topology =>
      obtain ⟨before, _, earlier, _⟩ := run.stepAt
      have served := earlier.publication_eq
      rw [value] at served
      obtain ⟨socket, topology', recent, subscribed, same, dumped, _⟩ :=
        earlier.monitor.grounded.served _ served
      refine .inr ⟨before.monitor, socket, topology', recent, _, earlier.monitor,
        served.trans (congrArg some same), subscribed, dumped, ?_,
        Codec.readBindings_get topology' ranges ty⟩
      have single := accepted.decodes
      rw [ty] at single
      obtain ⟨_, rfl⟩ := single
      rw [Option.map_some, same]
      rfl

/-- A Get request for the row of the interface 3 over the interface 2. -/
def getting : Header := ⟨1, .get, networkOrder, 7, 0, 4, 60⟩

/-- The bytes of the request. -/
def gettingBytes : List UInt8 :=
  Wire.encodeHeader getting ++ Wire.encodeId .bigEndian ⟨rowName (3, 2), 0⟩ ++
    Wire.encodeId .bigEndian ⟨[], 0⟩

/-- What a session answers to it from the table of the bonded world. -/
def gettingAnswer : List UInt8 :=
  Wire.encodeResponse { Codec.plain.reply getting with
    vb := some [⟨⟨rowName (3, 2), 0⟩, .integer 1⟩] }

/-- The rows of the bonded world: the port below the bond, and the boundaries. -/
theorem bonded_rows : Mib.topologyRows bondedTopology = [(3, 2), (2, 0), (0, 3)] := by
  have sorted : bondedTopology.interfaces.sort (· ≤ ·) = [2, 3] := by
    change (insert 2 {3} : Finset UInt32).sort (· ≤ ·) = _
    have least : ∀ index ∈ ({3} : Finset UInt32), 2 ≤ index := by
      intro index member
      rw [Finset.mem_singleton.mp member]
      decide
    rw [Finset.sort_insert (· ≤ ·) least (by decide), Finset.sort_singleton]
  simp only [Mib.topologyRows, sorted]
  simp only [bondedTopology, Finset.sort_singleton]
  decide +kernel

/-- The reader of that session. -/
def bondedTables : TableReader PlainId := ⟨⟨some (.fromRows [(3, 2), (2, 0), (0, 3)])⟩, []⟩

/-- A configuration that reconciles every five minutes. -/
def bondedConfig : FullConfig := { FullConfig.default with reconcile := 300 }

/-- The handshake of that session. -/
def gettingHandshake : EStateM.Result Stop (Session PlainId) Header :=
  Codec.plain.handshake bondedConfig.toConfig ⟨(requesting gettingBytes).stream, bondedTables⟩

/-- The handshake before it registers. -/
theorem getting_registers : ended gettingHandshake = some acknowledged := by decide +kernel

/-- The pass shows the request and its answer. -/
theorem getting_shows : (reached gettingHandshake).stream.eventsSince (reached (Codec.plain.pass
      acknowledged ⟨(reached gettingHandshake).stream, bondedTables⟩)).stream =
    [.received getting gettingBytes, .wrote gettingAnswer] := by
  decide +kernel

/-- The request is accepted. -/
theorem accepted_getting :
    Codec.plain.Accepted getting gettingBytes [⟨⟨rowName (3, 2), 0⟩, ⟨[], 0⟩⟩] none where
  context := by decide
  reads := .inl rfl
  decodes := ⟨rfl, rfl⟩
  short := by
    intro range member
    cases List.mem_singleton.mp member
    exact ⟨(by decide : 13 ≤ 128), Nat.zero_le _⟩
  flags := by
    intro range member
    cases List.mem_singleton.mp member
    exact .inl rfl

/-- The process runs as its monitor does until the first session. -/
theorem Run.of_monitor {σ ID : Type} [AgentxId ID] [Acquisition σ] {codec : Codec ID}
    {config : FullConfig} {source : σ} {entries : List Entry} {monitor : Monitor σ ID}
    (run : IfStack.Run source (.fromSecs config.reconcile) entries monitor) :
    Run codec config source (entries.map .monitored) ⟨monitor, .initial⟩ := by
  induction run with
  | start begins =>
      subst begins
      exact .start rfl
  | turn earlier moved ih =>
      refine .turn ih ⟨.monitor, ?_⟩
      exact congrArg (Option.map _) moved

/-- The bonded monitor, and a session that asks for a row after its first inventory. -/
theorem Run.getting : ∃ older : List Event,
    entries older = Monitor.bondedCompleted :: Monitor.bondedBegun ∧
      ∃ subagent : Subagent (NetlinkSource Nat) PlainId,
        Run .plain bondedConfig (.withIo .bonded) (.passed acknowledged
          [.received Subagent.getting gettingBytes, .wrote gettingAnswer] :: older) subagent := by
  have begun : Run Codec.plain bondedConfig (NetlinkSource.withIo .bonded) _ _ :=
    .of_monitor Run.bondedServed
  have looks (stream : UnixStream) :
      session Monitor.bondedServed stream = ⟨stream, bondedTables⟩ := by
    rw [bondedTables, ← bonded_rows]
    rfl
  have serving : Phase.afterHandshake 0 gettingHandshake =
      .serving 0 acknowledged (reached gettingHandshake).stream := by
    rw [eq_ok_of_ended getting_registers]
    rfl
  have connected := Trace.turn begun ⟨.connect 0 (requesting gettingBytes), rfl⟩
  rw [handshake, looks] at connected
  change Run _ _ _ _ ⟨_, ⟨.afterHandshake 0 gettingHandshake, _⟩⟩ at connected
  rw [serving] at connected
  have passed := Trace.turn connected ⟨.pass, rfl⟩
  rw [pass, looks, getting_shows] at passed
  exact ⟨_, rfl, _, passed⟩

/-- The row of the port below the bond is answered with 1, and the kernel has reported it. -/
theorem Run.reads_kernel_bonded : ∃ (monitor : Monitor (NetlinkSource Nat) PlainId)
    (socket : Nat) (topology : Topology) (recent : List (Call Nat)),
    monitor.source.notification = some socket ∧
      Dumped monitor.source.world.platform socket monitor.source.world.log topology recent ∧
        topology.StackRow (3, 2) := by
  obtain ⟨older, made, subagent, run⟩ := Run.getting
  obtain ⟨response, written, shown, encoded, answered⟩ :=
    @Run.reads_kernel _ _ _ _ _ _ _ _ Codec.plain_displays Codec.plain_encodesResponses [] _ _ _
      _ _ _ _ run List.mem_cons_self rfl accepted_getting rfl
  rcases answered with rfl |
    ⟨monitor, socket, topology, recent, _, alone, served, subscribed, dumped, _, _⟩
  · have differ : gettingAnswer ≠ Wire.encodeResponse
        { Codec.plain.reply Subagent.getting with resError := .processingError } := by
      decide +kernel
    obtain ⟨_, same, rfl⟩ := encoded
    cases same
    exact absurd (SessionEvent.wrote.inj (List.cons.inj (List.cons.inj shown).2).1) differ
  · refine ⟨monitor, socket, topology, recent, subscribed, dumped, ?_⟩
    -- the history of the monitor tells its table
    have told : Register.value History.publicationEffect
        (Monitor.bondedCompleted :: Monitor.bondedBegun) = some bondedTopology := by
      decide +kernel
    have table := alone.schedule.snapshot_eq
    rw [made, told, served] at table
    have named : LawfulAgentxId.components (⟨rowName (3, 2), 0⟩ : PlainId) = rowName (3, 2) := rfl
    have row : bondedTopology.StackRow (3, 2) := .inl (Finset.mem_singleton_self _)
    refine (Mib.get_row topology named).2.mp ?_
    rw [Option.some.inj table]
    exact (Mib.get_row bondedTopology named).2.mpr row

end Subagent
end IfStack
