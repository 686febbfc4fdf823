import IfStack.Session.Verdict
import IfStack.Subagent.Reads

/-! # A read-only agent

What the master finds in the error field of a response, at every point of every run:
which requests succeed, that no phase of a Set does, and how each is refused.
-/

namespace IfStack

open Foundation

namespace Codec

variable {ID : Type} [AgentxId ID] {codec : Codec ID}

/-- What is written in a pass is the response to its frame. -/
theorem Shows.wrote {opened header : Header} {tables : TableReader ID}
    {shown : List SessionEvent} {bytes written : List UInt8}
    (shows : codec.Shows opened tables shown) (received : .received header bytes ∈ shown)
    (wrote : .wrote written ∈ shown) : ∃ response snmpError ends,
      codec.Responds opened header bytes tables response snmpError ends ∧
      codec.Encodes response snmpError written := by
  cases shows with
  | nothing => exact absurd received List.not_mem_nil
  | silent | unencoded => cases List.mem_singleton.mp wrote
  | answered responds encodes =>
      simp only [List.mem_cons, List.not_mem_nil, or_false, reduceCtorEq, false_or,
        SessionEvent.received.injEq, SessionEvent.wrote.injEq] at received wrote
      obtain ⟨rfl, rfl⟩ := received
      subst wrote
      exact ⟨_, _, _, responds, encodes⟩

end Codec

namespace Subagent

variable {σ ID : Type} [AgentxId ID] [LawfulAgentxId ID] [Acquisition σ] {codec : Codec ID}
  {config : FullConfig} {source : σ} {subagent : Subagent σ ID}

/-- **Verdicts.** Whatever the threads did before, the error field of a response is zero
just when its frame is one of the session and a Close, a Ping, a test of nothing or a read
request that passes its checks, a read request only when an inventory has been accepted
since the latest loss. So no phase of a Set of something succeeds. One of the session that
passes its checks is refused with the SNMP error of the phase, in the byte order of the
request, and a test with the index of the first binding. -/
theorem Run.verdicts (displays : codec.Displays) (replies : codec.Replies)
    {code : ResError → UInt16} (lays : codec.LaysOut code)
    {newer older : List Event} {opened header : Header} {shown : List SessionEvent}
    {bytes written : List UInt8}
    (run : Run codec config source (newer ++ .passed opened shown :: older) subagent)
    (few : History.losses (entries (newer ++ .passed opened shown :: older)) < 2 ^ 64)
    (received : .received header bytes ∈ shown) (wrote : .wrote written ∈ shown) :
    (errorField written = [0, 0] ↔ header.sessionId = opened.sessionId ∧
      codec.Succeeds header bytes (History.AcceptedSinceLoss (entries older))) ∧
    (codec.Sets header bytes → errorField written ≠ [0, 0]) ∧
    ∀ error, header.sessionId = opened.sessionId → header.flags &&& nonDefaultContext = 0 →
      codec.Refuses header bytes error →
      errorField written = header.order.encode16 error ∧
        (header.ty = .testSet → indexField written = header.order.encode16 1) := by
  obtain ⟨tables, shows, cell⟩ := run.passed
  obtain ⟨response, snmpError, ends, responds, encodes⟩ := shows.wrote received wrote
  have published : (tables.published.table.isSome : Prop) =
      History.AcceptedSinceLoss (entries older) := by
    rw [cell, Option.isSome_map, History.isSome_iff_acceptedSinceLoss (losses_older few)]
  have success := responds.errorField_eq_zero displays replies lays encodes
  rw [published] at success
  refine ⟨success, fun sets zero => ?_, fun error own context refuses => ?_⟩
  · exact (success.mp zero).2.not_sets sets
  · exact refuses.errorField displays lays own context responds encodes

/-- A CommitSet in the session that is acknowledged. -/
def committing : Header := ⟨1, .commitSet, networkOrder, 7, 3, 5, 0⟩

/-- What is written for it. -/
def commitRefusal : List UInt8 :=
  let encoded := Wire.encodeResponse (Codec.plain.reply committing)
  encoded.take 24 ++ [0, 14] ++ encoded.drop 26

/-- What the request and its response show. -/
def commitRefused : Event :=
  .passed acknowledged [.received committing (Wire.encodeHeader committing), .wrote commitRefusal]

/-- The first session serves a CommitSet. -/
def oneCommit : List Choice :=
  [.pass, .connect 0 (requesting (Wire.encodeHeader committing))]

/-- A CommitSet in a run over a bond is refused with a nonzero error field. -/
theorem Run.verdicts_commit : ∃ (older : List Event) (subagent : Subagent Script PlainId),
    Run .plain .default bondSource (commitRefused :: older) subagent ∧
      errorField commitRefusal ≠ [0, 0] := by
  obtain ⟨history, subagent, run, first, kept⟩ := Run.of_shown Codec.plain .default bondSource
    oneCommit (fun history (_ : Subagent Script PlainId) => history.head? = some commitRefused ∧
      History.losses (entries history) = 0) (by decide +kernel)
  obtain ⟨older, rfl⟩ := List.head?_eq_some_iff.mp first
  refine ⟨older, subagent, run, ?_⟩
  have verdicts := @Run.verdicts _ _ _ _ _ _ _ _ _ Codec.plain_displays Codec.plain_replies _
    Codec.plain_laysOut [] _ _ _ _ _ _ run (kept ▸ by decide) List.mem_cons_self
    (List.mem_cons_of_mem _ List.mem_cons_self)
  exact verdicts.2.1 (.inl rfl)

end Subagent
end IfStack
