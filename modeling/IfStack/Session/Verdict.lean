import IfStack.Session.Acceptance
import IfStack.Session.Protocol

/-! # Verdicts of responses

What the error field of a response says, as the master finds it in the bytes that are
written: which requests succeed, and how each phase of a Set is refused.
-/

namespace IfStack

/-- The error field of a response, and its index. -/
def errorField (written : List UInt8) : List UInt8 := (written.drop 24).take 2

/-- The index of a response. -/
def indexField (written : List UInt8) : List UInt8 := (written.drop 26).take 2

/-- The field of a code is zero only for the code zero. -/
theorem encode16_eq_zero (order : ByteOrder) (value : UInt16) :
    order.encode16 value = [0, 0] ↔ value = 0 := by
  have bound := value.toNat_lt
  have digits : (value >>> 8).toUInt8 = 0 ∧ value.toUInt8 = 0 ↔ value = 0 := by
    simp only [← UInt8.toNat_inj, ← UInt16.toNat_inj, UInt16.toNat_toUInt8,
      UInt16.toNat_shiftRight]
    change value.toNat >>> 8 % 256 = 0 ∧ value.toNat % 256 = 0 ↔ value.toNat = 0
    rw [Nat.shiftRight_eq_div_pow]
    omega
  rw [← digits]
  cases order with
  | bigEndian => simp [ByteOrder.encode16]
  | littleEndian => simp [ByteOrder.encode16, and_comm]

namespace Codec

variable {ID : Type} [AgentxId ID] [LawfulAgentxId ID]

omit [AgentxId ID] [LawfulAgentxId ID] in
/-- A response keeps the byte order of its request. -/
theorem reply_order (codec : Codec ID) (header : Header) :
    (codec.reply header).header.order = header.order := by
  change (if (header.flags &&& networkOrder) &&& networkOrder ≠ 0 then _ else _) = _
  rw [UInt8.and_assoc, UInt8.and_self]
  rfl

/-- The encoder puts the error of a response, by its code, in two bytes behind the header
and the uptime, and the index behind it. Only `NoAgentXError` has the code zero. -/
structure LaysOut (codec : Codec ID) (code : ResError → UInt16) : Prop where
  success : ∀ error, code error = 0 ↔ error = .noAgentXError
  error : ∀ response bytes, codec.responseToBytes response = .ok bytes →
    errorField bytes = response.header.order.encode16 (code response.resError)
  index : ∀ response bytes, codec.responseToBytes response = .ok bytes →
    indexField bytes = response.header.order.encode16 response.resIndex

/-- A frame of the session that is answered without an error. -/
inductive Succeeds (codec : Codec ID) (header : Header) (bytes : List UInt8)
    (published : Prop) : Prop
  | closed : header.ty = .close → codec.closeFromBytes bytes = .ok () →
      Succeeds codec header bytes published
  | alive : header.flags &&& nonDefaultContext = 0 → header.ty = .ping →
      codec.pingFromBytes bytes = .ok () → Succeeds codec header bytes published
  /-- A Set of nothing. -/
  | tested : header.flags &&& nonDefaultContext = 0 → header.ty = .testSet →
      codec.testSetFromBytes bytes = .ok [] → Succeeds codec header bytes published
  | read {ranges : List (SearchRange ID)} {bulk : Option (UInt16 × UInt16)} :
      codec.Accepted header bytes ranges bulk → published →
      Succeeds codec header bytes published

/-- A phase of a Set that passes its checks, with the SNMP error that refuses it. -/
inductive Refuses (codec : Codec ID) (header : Header) (bytes : List UInt8) : UInt16 → Prop
  | tested {bindings : List (VarBind ID)} : header.ty = .testSet →
      codec.testSetFromBytes bytes = .ok bindings → bindings ≠ [] →
      (∀ binding ∈ bindings, Short binding.name ∧
        ∀ value, binding.data = .objectIdentifier value → Short value) →
      Refuses codec header bytes notWritable
  | committed : header.ty = .commitSet → header.payloadLength = 0 →
      Refuses codec header bytes commitFailed
  | undone : header.ty = .undoSet → header.payloadLength = 0 →
      Refuses codec header bytes undoFailed

/-- A phase of a Set, but for the test of nothing. -/
def Sets (codec : Codec ID) (header : Header) (bytes : List UInt8) : Prop :=
  header.ty = .commitSet ∨ header.ty = .undoSet ∨
    header.ty = .testSet ∧ codec.testSetFromBytes bytes ≠ .ok []

variable {codec : Codec ID} {header : Header} {bytes : List UInt8} {tables : TableReader ID}
  {response : Response ID}

/-- No phase of a Set of something succeeds. -/
theorem Succeeds.not_sets {published : Prop} (succeeds : codec.Succeeds header bytes published) :
    ¬ codec.Sets header bytes := by
  rintro (ty | ty | ⟨ty, some⟩)
  all_goals
    cases succeeds with
    | closed close => rw [ty] at close; cases close
    | alive _ ping => rw [ty] at ping; cases ping
    | tested _ testSet none => first | exact some none | (rw [ty] at testSet; cases testSet)
    | read accepted => have reads := accepted.reads; simp [ty] at reads

/-- What succeeds is dispatched without an error. -/
theorem Succeeds.dispatched (displays : codec.Displays) (replies : codec.Replies)
    (succeeds : codec.Succeeds header bytes (tables.published.table.isSome))
    (notClose : header.ty ≠ .close) :
    ∃ response, (codec.dispatch header bytes tables).1 = .ok (response, none) ∧
      response.resError = .noAgentXError := by
  cases succeeds with
  | closed close => exact absurd close notClose
  | alive context ping decodes =>
      refine ⟨codec.reply header, ?_, replies.resError header⟩
      simp [dispatch, context, ping, decodes]
  | tested context ty decodes =>
      have validated : codec.validateBindings [] = .ok () := rfl
      refine ⟨codec.reply header, ?_, replies.resError header⟩
      simp [dispatch, context, ty, decodes, validated]
  | read accepted published =>
      obtain ⟨mib, found⟩ := Option.isSome_iff_exists.mp published
      refine ⟨_, congrArg Prod.fst (accepted.dispatch_eq displays tables), ?_⟩
      rw [found]
      exact replies.resError header

/-- What is dispatched without an error succeeds. -/
theorem dispatch_succeeds (displays : codec.Displays)
    (dispatched : (codec.dispatch header bytes tables).1 = .ok (response, none))
    (success : response.resError = .noAgentXError) :
    codec.Succeeds header bytes (tables.published.table.isSome) := by
  by_cases context : header.flags &&& nonDefaultContext = 0
  · by_cases reads : header.ty = .get ∨ header.ty = .getNext ∨ header.ty = .getBulk
    · by_cases accepted : ∃ ranges bulk, codec.Accepted header bytes ranges bulk
      · obtain ⟨ranges, bulk, accepted⟩ := accepted
        have given := congrArg Prod.fst (accepted.dispatch_eq displays tables)
        cases given.symm.trans dispatched
        refine .read accepted ?_
        cases published : tables.published.table with
        | none =>
            rw [published] at success
            cases success
        | some mib => rfl
      · obtain ⟨error, rejected⟩ := dispatch_rejected displays context reads accepted
        rw [rejected] at dispatched
        cases dispatched
    · unfold dispatch at dispatched
      simp only [context, ne_eq, not_true_eq_false, ↓reduceIte] at dispatched
      cases ty : header.ty with
      | get | getNext | getBulk => simp [ty] at reads
      | testSet =>
          simp only [ty] at dispatched
          cases decodes : codec.testSetFromBytes bytes with
          | error error => simp [decodes] at dispatched
          | ok bindings =>
              simp only [decodes] at dispatched
              split at dispatched
              · cases dispatched
              · split at dispatched
                · rename_i empty
                  rw [List.isEmpty_iff] at empty
                  exact .tested context ty (empty ▸ decodes)
                · cases dispatched
      | commitSet | undoSet =>
          simp only [ty] at dispatched
          split at dispatched <;> cases dispatched
      | ping =>
          simp only [ty] at dispatched
          cases decodes : codec.pingFromBytes bytes with
          | error error => simp [decodes] at dispatched
          | ok _ => exact .alive context ty decodes
      | _ =>
          simp only [ty] at dispatched
          cases dispatched
          cases success
  · simp only [dispatch, ne_eq, context, not_false_eq_true, ↓reduceIte] at dispatched
    cases dispatched
    cases success

/-- A phase of a Set that passes its checks is refused with its SNMP error, and a test
points to the first binding. -/
theorem Refuses.dispatched (displays : codec.Displays) {error : UInt16}
    (refuses : codec.Refuses header bytes error)
    (context : header.flags &&& nonDefaultContext = 0) :
    ∃ response, (codec.dispatch header bytes tables).1 = .ok (response, some error) ∧
      (header.ty = .testSet → response.resIndex = 1) := by
  cases refuses with
  | tested ty decodes some short =>
      obtain ⟨_, validated⟩ := (validateBindings_spec displays _).exists_iff.mpr short
      refine ⟨{ codec.reply header with resIndex := 1 }, ?_, fun _ => rfl⟩
      simp [dispatch, context, ty, decodes, validated, some]
  | committed ty empty | undone ty empty =>
      refine ⟨codec.reply header, ?_, fun testSet => ?_⟩
      · simp [dispatch, context, ty, empty]
      · rw [ty] at testSet
        cases testSet

omit [LawfulAgentxId ID] in
/-- An SNMP error is never zero. -/
theorem dispatch_snmpError {error : UInt16}
    (dispatched : (codec.dispatch header bytes tables).1 = .ok (response, some error)) :
    error ≠ 0 := by
  unfold dispatch at dispatched
  dsimp only at dispatched
  split at dispatched
  · cases dispatched
  · split at dispatched <;> (repeat' split at dispatched) <;> cases dispatched <;> decide

/-- The response to a frame has no error just when the frame is one of the session and
succeeds. -/
theorem Responds.succeeds_iff (displays : codec.Displays) (replies : codec.Replies)
    {opened : Header} {snmpError : Option UInt16} {ends : Pass}
    (responds : codec.Responds opened header bytes tables response snmpError ends) :
    response.resError = .noAgentXError ∧ snmpError.getD 0 = 0 ↔
      header.sessionId = opened.sessionId ∧
        codec.Succeeds header bytes (tables.published.table.isSome) := by
  cases responds with
  | foreign foreign => simp [foreign]
  | closed own close decodes =>
      exact ⟨fun _ => ⟨own, .closed close decodes⟩, fun _ => ⟨replies.resError header, rfl⟩⟩
  | unparsed own notClose _ failed =>
      constructor
      · rintro ⟨success, _⟩
        cases success
      · rintro ⟨_, succeeds⟩
        obtain ⟨_, dispatched, _⟩ := succeeds.dispatched displays replies notClose
        rw [failed] at dispatched
        cases dispatched
  | dispatched own notClose _ dispatched =>
      constructor
      · rintro ⟨success, zero⟩
        cases snmpError with
        | none => exact ⟨own, dispatch_succeeds displays dispatched success⟩
        | some error => exact absurd zero (dispatch_snmpError dispatched)
      · rintro ⟨_, succeeds⟩
        obtain ⟨_, given, success⟩ := succeeds.dispatched displays replies notClose
        cases given.symm.trans dispatched
        exact ⟨success, rfl⟩

omit [AgentxId ID] [LawfulAgentxId ID] in
/-- What is patched has the SNMP error in its error field, and keeps its index. -/
theorem patched_fields {encoded written : List UInt8} {order : ByteOrder} {error : UInt16}
    (fits : 26 ≤ encoded.length)
    (patched : written = encoded.take 24 ++ order.encode16 error ++ encoded.drop 26) :
    errorField written = order.encode16 error ∧ indexField written = indexField encoded := by
  have front : (encoded.take 24).length = 24 := by
    rw [List.length_take]
    omega
  have both : (encoded.take 24 ++ order.encode16 error).length = 26 := by
    rw [List.length_append, front, ByteOrder.length_encode16]
  subst patched
  constructor
  · rw [errorField, List.append_assoc, List.drop_left' front,
      List.take_left' (ByteOrder.length_encode16 order error)]
  · rw [indexField, List.drop_left' both]
    rfl

omit [AgentxId ID] [LawfulAgentxId ID] in
/-- The error field of what is written is zero just when there is no error. -/
theorem Encodes.errorField_eq_zero {code : ResError → UInt16} (lays : codec.LaysOut code)
    {snmpError : Option UInt16} {written : List UInt8}
    (encodes : codec.Encodes response snmpError written)
    (nonzero : ∀ error ∈ snmpError, error ≠ 0) :
    errorField written = [0, 0] ↔
      response.resError = .noAgentXError ∧ snmpError.getD 0 = 0 := by
  obtain ⟨encoded, same, patched⟩ := encodes
  cases snmpError with
  | none =>
      cases patched
      rw [lays.error response _ same, encode16_eq_zero, lays.success]
      exact (and_iff_left rfl).symm
  | some error =>
      obtain ⟨fits, patched⟩ := patched
      rw [(patched_fields fits patched).1, encode16_eq_zero]
      simp [nonzero error rfl]

/-- A response succeeds, as the master sees it, just when its frame is one of the session
and succeeds. -/
theorem Responds.errorField_eq_zero (displays : codec.Displays) (replies : codec.Replies)
    {code : ResError → UInt16} (lays : codec.LaysOut code) {opened : Header}
    {snmpError : Option UInt16} {ends : Pass} {written : List UInt8}
    (responds : codec.Responds opened header bytes tables response snmpError ends)
    (encodes : codec.Encodes response snmpError written) :
    errorField written = [0, 0] ↔ header.sessionId = opened.sessionId ∧
      codec.Succeeds header bytes (tables.published.table.isSome) := by
  rw [encodes.errorField_eq_zero lays, responds.succeeds_iff displays replies]
  intro error given
  cases given
  cases responds with
  | dispatched _ _ _ dispatched => exact dispatch_snmpError dispatched

/-- A phase of a Set that passes its checks is refused, as the master sees it, with its
SNMP error. -/
theorem Refuses.errorField (displays : codec.Displays) {code : ResError → UInt16}
    (lays : codec.LaysOut code) {opened : Header} {error : UInt16} {snmpError : Option UInt16}
    {ends : Pass} {written : List UInt8} (refuses : codec.Refuses header bytes error)
    (own : header.sessionId = opened.sessionId)
    (context : header.flags &&& nonDefaultContext = 0)
    (responds : codec.Responds opened header bytes tables response snmpError ends)
    (encodes : codec.Encodes response snmpError written) :
    errorField written = header.order.encode16 error ∧
      (header.ty = .testSet → indexField written = header.order.encode16 1) := by
  obtain ⟨_, dispatched, first⟩ :
      ∃ response, (codec.dispatch header bytes tables).1 = .ok (response, some error) ∧
        (header.ty = .testSet → response.resIndex = 1) :=
    refuses.dispatched displays context
  have order : response.header.order = header.order := by
    rw [responds.header, reply_order]
  cases responds with
  | foreign foreign => exact absurd own foreign
  | closed _ close =>
      cases refuses with
      | tested ty | committed ty | undone ty =>
          rw [ty] at close
          cases close
  | unparsed _ _ _ failed => cases dispatched.symm.trans failed
  | dispatched _ _ _ given =>
      cases dispatched.symm.trans given
      obtain ⟨encoded, same, fits, patched⟩ := encodes
      obtain ⟨field, index⟩ := patched_fields fits patched
      rw [field, index, lays.index response encoded same, order]
      exact ⟨rfl, fun testSet => by rw [first testSet]⟩

/-- Where the fields of some bytes are. -/
theorem fields_of_front {front error index rest : List UInt8} (header : front.length = 24)
    (errorLength : error.length = 2) (indexLength : index.length = 2) :
    errorField (front ++ error ++ index ++ rest) = error ∧
      indexField (front ++ error ++ index ++ rest) = index := by
  constructor
  · rw [errorField, List.append_assoc, List.append_assoc, List.drop_left' header,
      List.take_left' errorLength]
  · rw [indexField, List.append_assoc, List.drop_left' (by simp [header, errorLength]),
      List.take_left' indexLength]

/-- The plain codec lays out its responses. -/
theorem plain_laysOut : plain.LaysOut Wire.resErrorCode := by
  have fields (response : Response PlainId) :
      errorField (Wire.encodeResponse response) =
          response.header.order.encode16 (Wire.resErrorCode response.resError) ∧
        indexField (Wire.encodeResponse response) =
          response.header.order.encode16 response.resIndex :=
    fields_of_front (by simp) (ByteOrder.length_encode16 _ _) (ByteOrder.length_encode16 _ _)
  refine ⟨fun error => by cases error <;> simp [Wire.resErrorCode], ?_, ?_⟩
  · intro response bytes same
    cases same
    exact (fields response).1
  · intro response bytes same
    cases same
    exact (fields response).2

end Codec
end IfStack
