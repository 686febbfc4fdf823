import IfStack.Session.Verdict

/-! # What a manager reads

The bytes of a response as the other side of the connection reads them: the bindings of
an answer, any number of them, and nothing in an error.
-/

namespace IfStack

namespace Codec

variable {ID : Type} [AgentxId ID] [LawfulAgentxId ID]

/-- A reader of responses finds the bindings that were written, as far as they are those of
a walk, and nothing in an error. -/
structure ReadsBindings (codec : Codec ID) (read : List UInt8 → Option (List (VarBind ID))) :
    Prop where
  answered : ∀ (response : Response ID) (bytes : List UInt8) (answers : List (VarBind ID)),
    codec.responseToBytes response = .ok bytes → response.resError = .noAgentXError →
    response.vb = some answers →
    (∀ answer ∈ answers, Short answer.name ∧
      (answer.data = .integer 1 ∨ answer.data = .endOfMibView)) → read bytes = some answers
  refused : ∀ (response : Response ID) (bytes : List UInt8),
    codec.responseToBytes response = .ok bytes → response.resError ≠ .noAgentXError →
      read bytes = none

end Codec

namespace Wire

/-- Four bytes spell the number they were made of. -/
theorem decode32_encode32 (order : ByteOrder) (value : UInt32) :
    decode32 order (encode32 order value) = value := by
  have digits : decodeNat order (encode32 order value) = value.toNat := by
    have bound := value.toNat_lt
    cases order <;>
      simp [decodeNat, encode32, Nat.shiftRight_eq_div_pow] <;> omega
  rw [decode32, digits, UInt32.ofNat_toNat]

/-- Numbers one after the other are read at their positions. -/
theorem decode_numbers (order : ByteOrder) (values : List UInt32) (rest : List UInt8) :
    (List.range values.length).map (fun position =>
      decode32 order (((values.flatMap (encode32 order) ++ rest).drop (4 * position)).take 4)) =
        values := by
  induction values with
  | nil => rfl
  | cons value values ih =>
      rw [List.length_cons, List.range_succ_eq_map, List.map_cons, List.map_map]
      congr 1
      · rw [Nat.mul_zero, List.drop_zero, List.flatMap_cons, List.append_assoc,
          List.take_left' (length_encode32 order value), decode32_encode32]
      · conv_rhs => rw [← ih]
        refine List.map_congr_left fun position _ => ?_
        simp only [Function.comp_apply]
        rw [List.flatMap_cons, List.append_assoc, Nat.mul_succ, Nat.add_comm, ← List.drop_drop,
          List.drop_left' (length_encode32 order value)]

/-- A name of at most 255 numbers is read back. -/
theorem decodeId_encodeId (order : ByteOrder) (id : PlainId) (fits : id.subids.length < 256)
    (rest : List UInt8) : decodeId order (encodeId order id ++ rest) = some (id, rest) := by
  have count : (UInt8.ofNat id.subids.length).toNat = id.subids.length :=
    UInt8.toNat_ofNat_of_lt' fits
  have width : (id.subids.flatMap (encode32 order)).length = 4 * id.subids.length := by
    rw [List.length_flatMap]
    simp [Nat.mul_comm]
  unfold encodeId decodeId
  simp only [List.cons_append, List.nil_append, ↓reduceIte, count, List.length_append, width]
  rw [if_neg (by omega), decode_numbers, ← width, List.drop_left]

/-- Bindings of numbers and ends up to the end of the bytes; at most so many. -/
def decodeBindings (order : ByteOrder) : Nat → List UInt8 → Option (List (VarBind PlainId))
  | 0, bytes => if bytes = [] then some [] else none
  | count + 1, bytes =>
      if bytes = [] then some []
      else
        match decodeId order (bytes.drop 4) with
        | none => none
        | some (name, rest) =>
            match decodeNat order (bytes.take 2) with
            | 2 => (decodeBindings order count (rest.drop 4)).map
                (⟨name, .integer (decode32 order (rest.take 4)).toInt32⟩ :: ·)
            | 130 => (decodeBindings order count rest).map (⟨name, .endOfMibView⟩ :: ·)
            | _ => none

/-- The bindings of a response without an error. -/
def decodeAnswers : List UInt8 → Option (List (VarBind PlainId))
  | version :: code :: flags :: rest =>
      if errorField (version :: code :: flags :: rest) = [0, 0] then
        decodeBindings (if flags &&& networkOrder ≠ 0 then .bigEndian else .littleEndian)
          rest.length (rest.drop 25)
      else none
  | _ => none

/-- A binding of a code and some bytes is read by its code, and the others behind it. -/
theorem decodeBindings_of_code (order : ByteOrder) (count : Nat) (name : PlainId)
    (fits : name.subids.length < 256) (code : UInt16) (data : List UInt8) :
    decodeBindings order (count + 1)
        (order.encode16 code ++ [0, 0] ++ encodeId order name ++ data) =
      match decodeNat order (order.encode16 code) with
      | 2 => (decodeBindings order count (data.drop 4)).map
          (⟨name, .integer (decode32 order (data.take 4)).toInt32⟩ :: ·)
      | 130 => (decodeBindings order count data).map (⟨name, .endOfMibView⟩ :: ·)
      | _ => none := by
  have length := order.length_encode16 code
  have some : order.encode16 code ++ [0, 0] ++ encodeId order name ++ data ≠ [] := by
    simp [encodeId]
  rw [decodeBindings, if_neg some, List.append_assoc, List.append_assoc, List.take_left' length,
    ← List.append_assoc, List.drop_left' (by simp), decodeId_encodeId order name fits]

/-- Bindings of rows and ends are read back from their encoding. -/
theorem decodeBindings_encodeBinding (order : ByteOrder) (answers : List (VarBind PlainId))
    (count : Nat) (enough : answers.length ≤ count)
    (plain : ∀ answer ∈ answers, answer.name.subids.length < 256 ∧
      (answer.data = .integer 1 ∨ answer.data = .endOfMibView)) :
    decodeBindings order count (answers.flatMap (encodeBinding order)) = some answers := by
  induction answers generalizing count with
  | nil => cases count <;> rfl
  | cons answer answers ih =>
      obtain ⟨count, rfl⟩ := Nat.exists_eq_succ_of_ne_zero
        (Nat.ne_of_gt (Nat.zero_lt_of_lt enough))
      obtain ⟨⟨fits, simple⟩, others⟩ := List.forall_mem_cons.mp plain
      have rest := ih count (Nat.le_of_succ_le_succ enough) others
      obtain ⟨name, data⟩ := answer
      rcases simple with rfl | rfl
      · have code : decodeNat order (order.encode16 2) = 2 := by cases order <;> decide
        have width := length_encode32 order (1 : Int32).toUInt32
        rw [List.flatMap_cons]
        change decodeBindings order (count + 1)
          (order.encode16 2 ++ [0, 0] ++ encodeId order name ++
            encode32 order (1 : Int32).toUInt32 ++ _) = _
        rw [List.append_assoc _ (encode32 order _), decodeBindings_of_code order count name fits,
          code]
        rw [List.drop_left' width, List.take_left' width, rest, decode32_encode32]
        rfl
      · have code : decodeNat order (order.encode16 130) = 130 := by cases order <;> decide
        rw [List.flatMap_cons]
        change decodeBindings order (count + 1)
          (order.encode16 130 ++ [0, 0] ++ encodeId order name ++ [] ++ _) = _
        rw [List.append_assoc _ [], decodeBindings_of_code order count name fits, code]
        rw [List.nil_append, rest]
        rfl

/-- Every binding takes a byte at least. -/
theorem length_le_flatMap_encodeBinding (order : ByteOrder) (answers : List (VarBind PlainId)) :
    answers.length ≤ (answers.flatMap (encodeBinding order)).length := by
  induction answers with
  | nil => exact Nat.zero_le _
  | cons answer answers ih =>
      have positive : 4 ≤ (encodeBinding order answer).length := by
        simp only [encodeBinding, List.length_append, ByteOrder.length_encode16, List.length_cons]
        omega
      rw [List.flatMap_cons, List.length_append, List.length_cons]
      omega

/-- The bindings of a response come after 28 bytes, in the byte order of its flags. -/
theorem decodeAnswers_encodeResponse (response : Response PlainId) :
    decodeAnswers (encodeResponse response) =
      if errorField (encodeResponse response) = [0, 0] then
        decodeBindings response.header.order ((encodeResponse response).drop 3).length
          ((response.vb.getD []).flatMap (encodeBinding response.header.order))
      else none := by
  change (if errorField (encodeResponse response) = [0, 0] then
    decodeBindings response.header.order ((encodeResponse response).drop 3).length
      ((encodeResponse response).drop 28) else none) = _
  have behind : (encodeResponse response).drop 28 =
      (response.vb.getD []).flatMap (encodeBinding response.header.order) := by
    unfold encodeResponse
    exact List.drop_left' (by simp)
  rw [behind]

/-- The bindings of a response are read back. -/
theorem plain_readsBindings : Codec.plain.ReadsBindings decodeAnswers where
  answered := by
    intro response bytes answers encoded success bound simple
    cases encoded
    have field : errorField (encodeResponse response) = [0, 0] := by
      rw [Codec.plain_laysOut.error response _ rfl, encode16_eq_zero, success]
      rfl
    have enough := length_le_flatMap_encodeBinding response.header.order answers
    rw [decodeAnswers_encodeResponse, if_pos field, bound]
    refine decodeBindings_encodeBinding _ answers _ (enough.trans ?_) fun answer member => ?_
    · simp [encodeResponse, bound]
      omega
    · obtain ⟨short, data⟩ := simple answer member
      have short' : answer.name.subids.length ≤ 128 := short
      exact ⟨by omega, data⟩
  refused := by
    intro response bytes encoded failure
    cases encoded
    have field : errorField (encodeResponse response) ≠ [0, 0] := by
      rw [Codec.plain_laysOut.error response _ rfl, Ne, encode16_eq_zero,
        Codec.plain_laysOut.success]
      exact failure
    rw [decodeAnswers_encodeResponse, if_neg field]

/-- The counts of a bulk request come before its ranges. -/
def decodeGetBulk (bytes : List UInt8) : Except Error (GetBulkPdu PlainId) := do
  let header ← decodeHeader bytes
  let count (position : Nat) : UInt16 :=
    .ofNat (decodeNat header.order ((bytes.drop position).take 2))
  let ranges ← decodeRanges header.order bytes.length (bytes.drop 24)
  return ⟨ranges, count 20, count 22⟩

end Wire

namespace Codec

/-- The conversions on plain identifiers, with those of bulk requests. -/
def bulk : Codec PlainId := { plain with getBulkFromBytes := Wire.decodeGetBulk }

/-- The codec with GetBulk starts its responses as assumed. -/
theorem bulk_replies : bulk.Replies := by
  constructor <;> intro <;> rfl

/-- The codec with GetBulk encodes every response. -/
theorem bulk_encodesResponses : bulk.EncodesResponses := plain_encodesResponses

/-- The codec with GetBulk prints identifiers as assumed. -/
theorem bulk_displays : bulk.Displays := plain_displays

/-- The responses of the codec with GetBulk are read back. -/
theorem bulk_readsBindings : bulk.ReadsBindings Wire.decodeAnswers where
  answered := Wire.plain_readsBindings.answered
  refused := Wire.plain_readsBindings.refused

end Codec
end IfStack
