import IfStack.Session.Dispatch
import IfStack.Session.Wire

/-! # Accepted requests

Which read requests are served, and from what. All checks of a request come before
the one look at the table, so what is rejected is rejected whatever is published,
and what is accepted is answered from one table.
-/

namespace IfStack

open Foundation

section

variable {ID : Type} [AgentxId ID] [LawfulAgentxId ID]

namespace Codec

variable {codec : Codec ID}

/-- An identifier of at most 128 expanded sub-identifiers. -/
def Short (oid : ID) : Prop := (LawfulAgentxId.components oid).length ≤ 128

/-- A read request that is served: in the default context, decoded as its type says, with
identifiers of the allowed length and flags that are 0 or 1. -/
structure Accepted (codec : Codec ID) (header : Header) (bytes : List UInt8)
    (ranges : List (SearchRange ID)) (bulk : Option (UInt16 × UInt16)) : Prop where
  context : header.flags &&& nonDefaultContext = 0
  reads : header.ty = .get ∨ header.ty = .getNext ∨ header.ty = .getBulk
  decodes : if header.ty = .getBulk then ∃ request, codec.getBulkFromBytes bytes = .ok request ∧
      ranges = request.ranges ∧ bulk = some (request.nonRepeaters, request.maxRepetitions)
    else codec.getFromBytes bytes = .ok ranges ∧ bulk = none
  short : ∀ range ∈ ranges, Short range.start ∧ Short range.stop
  flags : ∀ range ∈ ranges,
    AgentxId.included range.start = 0 ∨ AgentxId.included range.start = 1

omit [AgentxId ID] [LawfulAgentxId ID] in
/-- A GetBulk request is decoded with its counts, any other read request without. -/
theorem readRequest_iff {header : Header} {bytes : List UInt8} {ranges : List (SearchRange ID)}
    {bulk : Option (UInt16 × UInt16)} :
    codec.readRequest header bytes = .ok (ranges, bulk) ↔
      if header.ty = .getBulk then ∃ request, codec.getBulkFromBytes bytes = .ok request ∧
        ranges = request.ranges ∧ bulk = some (request.nonRepeaters, request.maxRepetitions)
      else codec.getFromBytes bytes = .ok ranges ∧ bulk = none := by
  unfold readRequest
  by_cases ty : header.ty = .getBulk
  · rw [if_pos ty, if_pos ty]
    cases codec.getBulkFromBytes bytes with
    | error error => exact ⟨nofun, fun ⟨_, found, _⟩ => nomatch found⟩
    | ok request =>
        constructor
        · intro decoded
          cases decoded
          exact ⟨request, rfl, rfl, rfl⟩
        · rintro ⟨_, same, rfl, rfl⟩
          cases same
          rfl
  · rw [if_neg ty, if_neg ty]
    cases codec.getFromBytes bytes with
    | error error => exact ⟨nofun, fun found => nomatch found.1⟩
    | ok found =>
        constructor
        · intro decoded
          cases decoded
          exact ⟨rfl, rfl⟩
        · rintro ⟨same, rfl⟩
          cases same
          rfl

/-- The pieces of a printed identifier are its sub-identifiers, but for an empty one. -/
theorem length_splitOn_display (displays : codec.Displays) (oid : ID) :
    ((codec.display oid).splitOn '.').length =
      max 1 (LawfulAgentxId.components oid).length := by
  obtain ⟨digits, dotless, prints⟩ := displays
  rw [prints]
  by_cases empty : LawfulAgentxId.components oid = []
  · rw [empty]
    rfl
  · rw [List.splitOn_intercalate, List.length_map]
    · have positive := List.length_pos_iff.mpr empty
      omega
    · intro piece member
      obtain ⟨subid, _, rfl⟩ := List.mem_map.mp member
      exact dotless subid
    · simpa using empty

/-- `validate_oid` accepts the short identifiers. -/
theorem validateOid_spec (displays : codec.Displays) (oid : ID) :
    Decides (Short oid) (fun _ => True) (codec.validateOid oid) := by
  have pieces := length_splitOn_display displays oid
  unfold validateOid Short maxOidSubids
  split
  · rw [Decides.error_iff]
    omega
  · exact ⟨by omega, trivial⟩

/-- The ranges are valid when their ends are short and their flags are 0 or 1. -/
theorem validateRanges_spec (displays : codec.Displays) (ranges : List (SearchRange ID)) :
    Decides ((∀ range ∈ ranges, Short range.start ∧ Short range.stop) ∧
        ∀ range ∈ ranges, AgentxId.included range.start = 0 ∨ AgentxId.included range.start = 1)
      (fun _ => True) (codec.validateRanges ranges) := by
  apply Decides.bind
  · apply Decides.forM
    intro range _
    exact (validateOid_spec displays range.start).bind fun _ _ _ =>
      validateOid_spec displays range.stop
  · intro _ _ _
    have allowed (flag : UInt8) : flag = 0 ∨ flag = 1 ↔ ¬ 1 < flag := by
      simp only [← UInt8.toNat_inj, UInt8.lt_iff_toNat_lt]
      change _ ∨ flag.toNat = 1 ↔ ¬ 1 < flag.toNat
      rw [show (0 : UInt8).toNat = 0 from rfl]
      omega
    simp only [allowed]
    split
    · rename_i found
      simpa using found
    · rename_i missing
      exact ⟨by simpa using missing, trivial⟩

/-- What an accepted read request is answered, by the table published at the moment
of the snapshot. -/
def readAnswer (codec : Codec ID) (header : Header) (ranges : List (SearchRange ID))
    (bulk : Option (UInt16 × UInt16)) : Option (Mib ID) → Response ID
  | some mib => { codec.reply header with vb := some (readBindings header mib ranges bulk) }
  | none => { codec.reply header with resError := .processingError }

/-- The part of `dispatch` for read requests. -/
def dispatchRead (codec : Codec ID) (header : Header) (bytes : List UInt8)
    (tables : TableReader ID) : Except Error (Response ID × Option UInt16) × TableReader ID :=
  match codec.readRequest header bytes with
  | .error error => (.error error, tables)
  | .ok (ranges, bulk) =>
      match codec.validateRanges ranges with
      | .error error => (.error error, tables)
      | .ok () =>
          (.ok (codec.readAnswer header ranges bulk tables.snapshot.1, none), tables.snapshot.2)

omit [LawfulAgentxId ID] in
/-- A read request in the default context is dispatched as one. -/
theorem dispatch_eq_dispatchRead {header : Header}
    (context : header.flags &&& nonDefaultContext = 0)
    (reads : header.ty = .get ∨ header.ty = .getNext ∨ header.ty = .getBulk)
    (bytes : List UInt8) (tables : TableReader ID) :
    codec.dispatch header bytes tables = codec.dispatchRead header bytes tables := by
  unfold dispatch dispatchRead
  rw [if_neg (not_not.mpr context)]
  rcases reads with ty | ty | ty <;> rw [ty] <;> dsimp only
  all_goals
    cases codec.readRequest header bytes with
    | error error => rfl
    | ok request =>
        dsimp only
        cases codec.validateRanges request.1 with
        | error error => rfl
        | ok _ =>
            obtain ⟨table, next⟩ := tables.snapshot
            cases table <;> rfl

/-- An accepted request is answered from the table of one snapshot. -/
theorem Accepted.dispatch_eq (displays : codec.Displays) {header : Header} {bytes : List UInt8}
    {ranges : List (SearchRange ID)} {bulk : Option (UInt16 × UInt16)}
    (accepted : codec.Accepted header bytes ranges bulk) (tables : TableReader ID) :
    codec.dispatch header bytes tables =
      (.ok (codec.readAnswer header ranges bulk tables.published.table, none),
        tables.snapshot.2) := by
  have validated : codec.validateRanges ranges = .ok () := by
    obtain ⟨_, valid⟩ :=
      (validateRanges_spec displays ranges).exists_iff.mpr ⟨accepted.short, accepted.flags⟩
    exact valid
  rw [dispatch_eq_dispatchRead accepted.context accepted.reads, dispatchRead,
    readRequest_iff.mpr accepted.decodes]
  dsimp only
  rw [validated]
  rfl

/-- A read request that is not accepted is an error, with no look at the table. -/
theorem dispatch_rejected (displays : codec.Displays) {header : Header} {bytes : List UInt8}
    (context : header.flags &&& nonDefaultContext = 0)
    (reads : header.ty = .get ∨ header.ty = .getNext ∨ header.ty = .getBulk)
    (rejected : ¬ ∃ ranges bulk, codec.Accepted header bytes ranges bulk) :
    ∃ error, ∀ tables, codec.dispatch header bytes tables = (.error error, tables) := by
  simp only [dispatch_eq_dispatchRead context reads]
  unfold dispatchRead
  cases decoded : codec.readRequest header bytes with
  | error error => exact ⟨error, fun _ => rfl⟩
  | ok request =>
      obtain ⟨ranges, bulk⟩ := request
      have valid := validateRanges_spec displays ranges
      cases validated : codec.validateRanges ranges with
      | error error =>
          dsimp only
          rw [validated]
          exact ⟨error, fun _ => rfl⟩
      | ok _ =>
          obtain ⟨⟨short, flags⟩, _⟩ := valid.of_eq_ok validated
          exact absurd
            ⟨ranges, bulk, context, reads, readRequest_iff.mp decoded, short, flags⟩ rejected

omit [LawfulAgentxId ID] in
/-- Any other frame is answered with no look at the table. -/
theorem dispatch_other {header : Header} (bytes : List UInt8)
    (other : header.flags &&& nonDefaultContext ≠ 0 ∨
      ¬ (header.ty = .get ∨ header.ty = .getNext ∨ header.ty = .getBulk))
    (tables tables' : TableReader ID) :
    codec.dispatch header bytes tables = ((codec.dispatch header bytes tables').1, tables) := by
  unfold dispatch
  by_cases context : header.flags &&& nonDefaultContext = 0
  · have unread := other.resolve_left (not_not.mpr context)
    simp only [context, ne_eq, not_true_eq_false, ↓reduceIte]
    cases ty : header.ty with
    | get | getNext | getBulk => simp [ty] at unread
    | testSet =>
        dsimp only
        cases codec.testSetFromBytes bytes with
        | error error => rfl
        | ok bindings =>
            dsimp only
            cases codec.validateBindings bindings with
            | error error => rfl
            | ok _ =>
                dsimp only
                split <;> rfl
    | commitSet | undoSet =>
        dsimp only
        split <;> rfl
    | ping =>
        dsimp only
        cases codec.pingFromBytes bytes <;> rfl
    | _ => rfl
  · simp only [context, ne_eq, not_false_eq_true, ↓reduceIte]

/-- The bindings are valid when their names are short, and so are their values that are
identifiers. -/
theorem validateBindings_spec (displays : codec.Displays) (bindings : List (VarBind ID)) :
    Decides (∀ binding ∈ bindings, Short binding.name ∧
        ∀ value, binding.data = .objectIdentifier value → Short value)
      (fun _ => True) (codec.validateBindings bindings) := by
  apply Decides.forM
  intro binding _
  apply (validateOid_spec displays binding.name).bind
  intro _ _ _
  cases binding.data with
  | objectIdentifier value =>
      apply (validateOid_spec displays value).congr
      · simp
      · exact fun _ _ => id
  | _ => simp

/-- A TestSet request is an error exactly when it is not decoded or one of its
identifiers is too long. -/
theorem dispatch_testSet (displays : codec.Displays) {header : Header}
    (context : header.flags &&& nonDefaultContext = 0) (ty : header.ty = .testSet)
    (bytes : List UInt8) (tables : TableReader ID) :
    (∃ error, (codec.dispatch header bytes tables).1 = .error error) ↔
      ¬ ∃ bindings, codec.testSetFromBytes bytes = .ok bindings ∧
        ∀ binding ∈ bindings, Short binding.name ∧
          ∀ value, binding.data = .objectIdentifier value → Short value := by
  unfold dispatch
  simp only [context, ne_eq, not_true_eq_false, ↓reduceIte, ty]
  cases codec.testSetFromBytes bytes with
  | error error => simp
  | ok bindings =>
      have valid := validateBindings_spec displays bindings
      cases validated : codec.validateBindings bindings with
      | error error =>
          rw [validated] at valid
          simpa [validated] using valid
      | ok _ =>
          have sound := (valid.of_eq_ok validated).1
          by_cases empty : bindings.isEmpty = true
          · simp only [validated, empty, ↓reduceIte, reduceCtorEq, exists_false, false_iff,
              not_not]
            exact ⟨bindings, rfl, sound⟩
          · simp only [validated, empty, Bool.false_eq_true, ↓reduceIte, reduceCtorEq,
              exists_false, false_iff, not_not]
            exact ⟨bindings, rfl, sound⟩

/-- What Get returns is not included in a search. -/
theorem included_get (mib : Mib ID) (name : ID) : AgentxId.included (mib.get name).name = 0 :=
  LawfulAgentxId.included_withIncluded name 0

/-- Outside bulk requests there is one binding for each range, without the flag. -/
theorem readBindings_none (header : Header) (mib : Mib ID) (ranges : List (SearchRange ID)) :
    (readBindings header mib ranges none).length = ranges.length ∧
      ∀ binding ∈ readBindings header mib ranges none,
        AgentxId.included binding.name = 0 := by
  refine ⟨List.length_map _, fun binding member => ?_⟩
  obtain ⟨range, _, rfl⟩ := List.mem_map.mp member
  split
  · exact included_get mib range.start
  · exact Mib.included_getNext mib range

/-- **Acceptance.** A frame that is not an accepted read request gets the same result
whatever is published, without a look at the table; a read or TestSet request that
fails its checks is an error. An accepted one takes one snapshot, and is answered from
it alone: `ProcessingError` when nothing was published at that moment, else the
bindings of the table. -/
theorem dispatch_accepts (displays : codec.Displays) (replies : codec.Replies) (header : Header)
    (bytes : List UInt8) :
    ((¬ ∃ ranges bulk, codec.Accepted header bytes ranges bulk) →
      ∀ tables tables' : TableReader ID,
        codec.dispatch header bytes tables = ((codec.dispatch header bytes tables').1, tables)) ∧
    (∀ ranges bulk, codec.Accepted header bytes ranges bulk → ∀ tables : TableReader ID,
      (codec.dispatch header bytes tables).2 = tables.snapshot.2 ∧
      (tables.published.table = none → ∃ response,
        (codec.dispatch header bytes tables).1 = .ok (response, none) ∧
        response.resError = .processingError ∧ response.vb = none) ∧
      ∀ mib, tables.published.table = some mib → ∃ response bindings,
        (codec.dispatch header bytes tables).1 = .ok (response, none) ∧
        response.resError = .noAgentXError ∧ response.vb = some bindings ∧
        (header.ty = .get → bindings = ranges.map fun range => mib.get range.start) ∧
        (header.ty = .getNext → bindings = ranges.map mib.getNext) ∧
        (header.ty = .get ∨ header.ty = .getNext → bindings.length = ranges.length ∧
          ∀ binding ∈ bindings, AgentxId.included binding.name = 0) ∧
        (header.ty = .getBulk → ∃ nonRepeaters maxRepetitions,
          bulk = some (nonRepeaters, maxRepetitions) ∧
          bindings = mib.getBulk ranges nonRepeaters maxRepetitions)) ∧
    (header.flags &&& nonDefaultContext = 0 →
      (header.ty = .get ∨ header.ty = .getNext ∨ header.ty = .getBulk) →
      (¬ ∃ ranges bulk, codec.Accepted header bytes ranges bulk) →
        ∀ tables : TableReader ID, ∃ error,
          (codec.dispatch header bytes tables).1 = .error error) ∧
    (header.flags &&& nonDefaultContext = 0 → header.ty = .testSet →
      (¬ ∃ bindings, codec.testSetFromBytes bytes = .ok bindings ∧
        ∀ binding ∈ bindings, Short binding.name ∧
          ∀ value, binding.data = .objectIdentifier value → Short value) →
        ∀ tables : TableReader ID, ∃ error,
          (codec.dispatch header bytes tables).1 = .error error) := by
  refine ⟨fun rejected tables tables' => ?_, fun ranges bulk accepted tables => ?_,
    fun context reads rejected tables => ?_, fun context ty invalid tables => ?_⟩
  · by_cases read : header.flags &&& nonDefaultContext = 0 ∧
        (header.ty = .get ∨ header.ty = .getNext ∨ header.ty = .getBulk)
    · obtain ⟨error, result⟩ := dispatch_rejected displays read.1 read.2 rejected
      rw [result, result]
    · exact dispatch_other bytes (not_and_or.mp read) tables tables'
  · rw [accepted.dispatch_eq displays tables]
    refine ⟨rfl, fun nothing => ?_, fun mib published => ?_⟩
    · rw [nothing]
      exact ⟨_, rfl, rfl, replies.vb header⟩
    · rw [published]
      have request := accepted.decodes
      refine ⟨_, _, rfl, replies.resError header, rfl, fun ty => ?_, fun ty => ?_, fun ty => ?_,
        fun ty => ?_⟩
      · rw [if_neg (by rw [ty]; decide)] at request
        rw [request.2, readBindings, ty]
        rfl
      · rw [if_neg (by rw [ty]; decide)] at request
        rw [request.2, readBindings, ty]
        rfl
      · rw [if_neg (by rcases ty with ty | ty <;> rw [ty] <;> decide)] at request
        rw [request.2]
        exact readBindings_none header mib ranges
      · rw [if_pos ty] at request
        obtain ⟨request, _, _, counts⟩ := request
        refine ⟨request.nonRepeaters, request.maxRepetitions, counts, ?_⟩
        rw [counts, readBindings]
  · obtain ⟨error, result⟩ := dispatch_rejected displays context reads rejected
    exact ⟨error, by rw [result]⟩
  · exact (dispatch_testSet displays context ty bytes tables).mpr invalid

end Codec
end

namespace Codec

/-- A GetNext request of session 7 for everything. -/
def everything : Header := ⟨1, .getNext, 16, 7, 0, 4, 8⟩

/-- A reader whose cell is filled just before the first snapshot. -/
def filled : TableReader PlainId := ⟨.initial, [[.publish (Mib.fromRows [(9, 3)])]]⟩

/-- A GetNext request is answered from a cell filled just before its snapshot. -/
theorem dispatch_accepts_filled :
    ∃ response bindings,
      (plain.dispatch everything (Wire.encodeHeader everything ++ List.replicate 8 0) filled).1 =
        .ok (response, none) ∧ response.vb = some bindings ∧ bindings.length = 1 := by
  have accepted : plain.Accepted everything
      (Wire.encodeHeader everything ++ List.replicate 8 0) [⟨⟨[], 0⟩, ⟨[], 0⟩⟩] none := by
    refine ⟨by decide, Or.inr (Or.inl rfl), ⟨rfl, rfl⟩, ?_, ?_⟩
    · intro range member
      cases List.mem_singleton.mp member
      exact ⟨Nat.zero_le _, Nat.zero_le _⟩
    · intro range member
      cases List.mem_singleton.mp member
      exact Or.inl rfl
  obtain ⟨_, serves, _⟩ := dispatch_accepts plain_displays plain_replies everything
    (Wire.encodeHeader everything ++ List.replicate 8 0)
  obtain ⟨response, bindings, result, _, bound, _, _, each, _⟩ :=
    (serves _ _ accepted filled).2.2 _ rfl
  exact ⟨response, bindings, result, bound, (each (Or.inr rfl)).1⟩

end Codec
end IfStack
