import IfStack.Netlink.Decode

/-! # Framing of netlink datagrams

A datagram is accepted exactly when it is a sequence of messages, each as long as it
says and padded to a multiple of four. Only the padding of the last message may be
missing.
-/

namespace IfStack

section

variable {platform : Platform}

/-- The bytes of one message: a length field that gives their number, at least a
header, and a payload the decoder accepts. -/
structure Frames (platform : Platform) (bytes : List UInt8) (message : NetlinkMessage) : Prop where
  length : platform.fromNeBytes bytes = bytes.length
  header : netlinkHeaderLength ≤ bytes.length
  decodes : platform.deserialize bytes = .ok message

/-- Sequences of messages with their padding. -/
inductive Framed (platform : Platform) : List UInt8 → List NetlinkMessage → Prop
  | empty : Framed platform [] []
  /-- The padding of the last message is missing. -/
  | last {bytes : List UInt8} {message : NetlinkMessage} (frames : Frames platform bytes message) :
      Framed platform bytes [message]
  | message {bytes padding rest : List UInt8} {message : NetlinkMessage}
      {messages : List NetlinkMessage} (frames : Frames platform bytes message)
      (aligned : (bytes.length + padding.length) % 4 = 0) (least : padding.length < 4)
      (framed : Framed platform rest messages) :
      Framed platform (bytes ++ (padding ++ rest)) (message :: messages)

/-- The length field is in the first four bytes. -/
theorem fromNeBytes_take {bytes : List UInt8} {count : Nat} (field : 4 ≤ count) :
    platform.fromNeBytes (bytes.take count) = platform.fromNeBytes bytes := by
  rw [Platform.fromNeBytes, Platform.fromNeBytes, List.take_take, Nat.min_eq_left field]

/-- What follows a message does not change its length field. -/
theorem Frames.length_append {bytes : List UInt8} {message : NetlinkMessage}
    (frames : Frames platform bytes message) (rest : List UInt8) :
    platform.fromNeBytes (bytes ++ rest) = bytes.length := by
  have header : 16 ≤ bytes.length := frames.header
  have field : 4 ≤ bytes.length := by omega
  have front := @fromNeBytes_take platform (bytes ++ rest) _ field
  rw [List.take_left] at front
  rw [← front]
  exact frames.length

/-- The bytes that the length field counts are a message when the decoder accepts
them. -/
theorem frames_take {remaining : List UInt8} {message : NetlinkMessage}
    (header : netlinkHeaderLength ≤ platform.fromNeBytes remaining)
    (fits : platform.fromNeBytes remaining ≤ remaining.length)
    (decodes : platform.deserialize (remaining.take (platform.fromNeBytes remaining)) =
      .ok message) :
    Frames platform (remaining.take (platform.fromNeBytes remaining)) message := by
  have field : 4 ≤ platform.fromNeBytes remaining := le_trans (by decide) header
  have counted := List.length_take_of_le fits
  refine ⟨?_, ?_, decodes⟩
  · rw [fromNeBytes_take field, counted]
  · rwa [counted]

/-- No bytes hold no messages. -/
theorem decodeFrom_nil : decodeFrom platform [] = .ok [] := by
  rw [decodeFrom]
  rfl

/-- Decoding takes a message with its padding off the front. -/
theorem decodeFrom_message {bytes padding rest : List UInt8} {message : NetlinkMessage}
    (frames : Frames platform bytes message) (aligned : (bytes.length + padding.length) % 4 = 0)
    (least : padding.length < 4) (room : bytes.length + 3 ≤ platform.usizeMax) :
    decodeFrom platform (bytes ++ (padding ++ rest)) =
      (decodeFrom platform rest).map (message :: ·) := by
  have header : 16 ≤ bytes.length := frames.header
  have whole : (bytes ++ (padding ++ rest)).length =
      bytes.length + padding.length + rest.length := by
    rw [List.length_append, List.length_append, Nat.add_assoc]
  have rounded : (bytes.length + 3) / 4 * 4 = bytes.length + padding.length := by omega
  have after : (bytes ++ (padding ++ rest)).drop (bytes.length + padding.length) = rest := by
    rw [← List.append_assoc, ← List.length_append, List.drop_left]
  rw [decodeFrom]
  simp only [frames.length_append, whole, rounded, after, List.take_left, frames.decodes]
  rw [if_neg (by omega), if_neg (by unfold netlinkHeaderLength; omega),
    dif_neg (by unfold netlinkHeaderLength; omega), if_neg (by omega), if_neg (by omega)]
  cases decodeFrom platform rest <;> rfl

/-- Decoding takes a last message without its padding. -/
theorem decodeFrom_last {bytes : List UInt8} {message : NetlinkMessage}
    (frames : Frames platform bytes message) (unaligned : bytes.length % 4 ≠ 0)
    (room : bytes.length + 3 ≤ platform.usizeMax) :
    decodeFrom platform bytes = .ok [message] := by
  have header : 16 ≤ bytes.length := frames.header
  rw [decodeFrom]
  simp only [frames.length, List.take_length, frames.decodes, ↓reduceIte]
  rw [if_neg (by omega), if_neg (by unfold netlinkHeaderLength; omega),
    dif_neg (by unfold netlinkHeaderLength; omega), if_neg (by omega), if_pos (by omega)]

/-- What lies between two positions. -/
theorem exists_between {α : Type} {items : List α} {first second : Nat} (order : first ≤ second)
    (fits : second ≤ items.length) :
    ∃ between, between.length = second - first ∧
      items = items.take first ++ (between ++ items.drop second) := by
  refine ⟨(items.drop first).take (second - first), ?_, ?_⟩
  · rw [List.length_take, List.length_drop]
    omega
  · have further : (items.drop first).drop (second - first) = items.drop second := by
      rw [List.drop_drop, Nat.add_sub_of_le order]
    rw [← further, List.take_append_drop, List.take_append_drop]

/-- An accepted sequence is empty, or one message without padding, or a message with
its padding in front of an accepted sequence. -/
theorem decodeFrom_cases {remaining : List UInt8} {messages : List NetlinkMessage}
    (accepted : decodeFrom platform remaining = .ok messages) :
    remaining = [] ∧ messages = [] ∨
    (∃ message, Frames platform remaining message ∧ remaining.length % 4 ≠ 0 ∧
      remaining.length + 3 ≤ platform.usizeMax ∧ messages = [message]) ∨
    ∃ bytes padding rest message later, Frames platform bytes message ∧
      (bytes.length + padding.length) % 4 = 0 ∧ padding.length < 4 ∧
      bytes.length + 3 ≤ platform.usizeMax ∧ remaining = bytes ++ (padding ++ rest) ∧
      decodeFrom platform rest = .ok later ∧ messages = message :: later := by
  rw [decodeFrom] at accepted
  split at accepted
  · rename_i nothing
    cases accepted
    exact Or.inl ⟨List.length_eq_zero_iff.mp nothing, rfl⟩
  · split at accepted
    · cases accepted
    · dsimp only at accepted
      split at accepted
      · cases accepted
      · rename_i inside
        obtain ⟨header, fits⟩ := not_or.mp inside
        rw [Nat.not_lt] at header fits
        split at accepted
        · cases accepted
        · rename_i message decodes
          split at accepted
          · cases accepted
          · rename_i room
            have frames := frames_take header fits decodes
            have counted := List.length_take_of_le fits
            split at accepted
            · rename_i short
              split at accepted
              · rename_i whole
                cases accepted
                rw [whole, List.take_length] at frames
                rw [whole] at short room
                exact Or.inr (Or.inl ⟨message, frames, by omega, by omega, rfl⟩)
              · cases accepted
            · rename_i padded
              split at accepted
              · cases accepted
              · rename_i later decoded
                cases accepted
                obtain ⟨padding, length, joined⟩ := @exists_between _ remaining
                  (platform.fromNeBytes remaining) ((platform.fromNeBytes remaining + 3) / 4 * 4)
                  (by omega) (by omega)
                refine Or.inr (Or.inr ⟨_, padding, _, message, later, frames, ?_, ?_, ?_, joined,
                  decoded, rfl⟩) <;> omega

/-- A datagram is accepted exactly when it is framed. -/
theorem decodeFrom_iff {remaining : List UInt8} {messages : List NetlinkMessage}
    (room : remaining.length + 3 ≤ platform.usizeMax) :
    decodeFrom platform remaining = .ok messages ↔ Framed platform remaining messages := by
  constructor
  · intro accepted
    induction length : remaining.length using Nat.strong_induction_on
      generalizing remaining messages with
    | _ count ih =>
        rcases decodeFrom_cases accepted with ⟨rfl, rfl⟩ | ⟨message, frames, _, _, rfl⟩ |
          ⟨bytes, padding, rest, message, later, frames, aligned, least, _, rfl, decoded, rfl⟩
        · exact .empty
        · exact .last frames
        · have header : 16 ≤ bytes.length := frames.header
          simp only [List.length_append] at room length
          exact .message frames aligned least (ih rest.length (by omega) (by omega) decoded rfl)
  · intro framed
    induction framed with
    | empty => exact decodeFrom_nil
    | @last bytes message frames =>
        by_cases aligned : bytes.length % 4 = 0
        · have decoded := @decodeFrom_message platform bytes [] [] message frames aligned
            (by decide) room
          rw [List.append_nil, List.append_nil, decodeFrom_nil] at decoded
          exact decoded
        · exact decodeFrom_last frames aligned room
    | @message bytes padding rest message messages frames aligned least framed ih =>
        simp only [List.length_append] at room
        rw [decodeFrom_message frames aligned least (by omega), ih (by omega)]
        rfl

/-- Behind an accepted sequence of aligned length decoding goes on as from the start. -/
theorem decodeFrom_append {first second : List UInt8} {messages : List NetlinkMessage}
    (aligned : first.length % 4 = 0) (accepted : decodeFrom platform first = .ok messages) :
    decodeFrom platform (first ++ second) =
      (decodeFrom platform second).map (messages ++ ·) := by
  induction length : first.length using Nat.strong_induction_on generalizing first messages with
  | _ count ih =>
      rcases decodeFrom_cases accepted with ⟨rfl, rfl⟩ | ⟨_, _, unaligned, _⟩ |
        ⟨bytes, padding, rest, message, later, frames, multiple, least, room, rfl, decoded, rfl⟩
      · rw [List.nil_append]
        cases decodeFrom platform second <;> rfl
      · exact absurd aligned unaligned
      · have header : 16 ≤ bytes.length := frames.header
        simp only [List.length_append] at aligned length
        rw [List.append_assoc, List.append_assoc, decodeFrom_message frames multiple least room,
          ih rest.length (by omega) (by omega) decoded rfl]
        cases decodeFrom platform second <;> rfl

/-- `&bytes[first..second]`; none where it would panic. -/
def slice? (bytes : List UInt8) (first second : Nat) : Option (List UInt8) :=
  if first ≤ second ∧ second ≤ bytes.length then some ((bytes.drop first).take (second - first))
  else none

/-- The loop of `decode_datagram` with its offset, every slice and sum checked: none
where it would panic. -/
def decodeChecked (platform : Platform) (bytes : List UInt8) (offset : Nat) :
    Option (Except Error (List NetlinkMessage)) :=
  if _more : offset < bytes.length then
    (slice? bytes offset bytes.length).bind fun remaining =>
      if remaining.length < netlinkHeaderLength then
        some (.error (.invalid "trailing bytes after netlink message"))
      else
        (slice? remaining 0 4).bind fun field =>
          let length := platform.fromNeBytes field
          if _outside : length < netlinkHeaderLength ∨ remaining.length < length then
            some (.error (.invalid "invalid netlink message length"))
          else
            (slice? remaining 0 length).bind fun bytes' =>
              match platform.deserialize bytes' with
              | .error error =>
                  some (.error
                    ⟨.invalidData, [.text "cannot decode netlink message: ", .display error]⟩)
              | .ok message =>
                  if platform.usizeMax < length + 3 then
                    some (.error (.invalid "netlink message length overflow"))
                  else
                    let aligned := (length + 3) / 4 * 4
                    if remaining.length < aligned then
                      if length = remaining.length then some (.ok [message])
                      else some (.error (.invalid "truncated netlink message padding"))
                    else if platform.usizeMax < offset + aligned then none
                    else
                      (decodeChecked platform bytes (offset + aligned)).map fun decoded =>
                        decoded.map (message :: ·)
  else some (.ok [])
termination_by bytes.length - offset
decreasing_by
  unfold netlinkHeaderLength at _outside
  omega

/-- A slice within the bytes is found. -/
theorem slice?_of_le {bytes : List UInt8} {first second : Nat} (order : first ≤ second)
    (inside : second ≤ bytes.length) :
    slice? bytes first second = some ((bytes.drop first).take (second - first)) :=
  if_pos ⟨order, inside⟩

/-- No slice is out of bounds: with its checks the loop gives what it gives without. -/
theorem decodeChecked_eq (bytes : List UInt8) (addressable : bytes.length ≤ platform.usizeMax)
    {offset : Nat} (inside : offset ≤ bytes.length) :
    decodeChecked platform bytes offset = some (decodeFrom platform (bytes.drop offset)) := by
  induction left : bytes.length - offset using Nat.strong_induction_on generalizing offset with
  | _ count ih =>
      obtain ⟨remaining, rest⟩ : ∃ remaining, bytes.drop offset = remaining := ⟨_, rfl⟩
      have length : remaining.length = bytes.length - offset := by rw [← rest, List.length_drop]
      have whole : slice? bytes offset bytes.length = some remaining := by
        rw [slice?_of_le inside (Nat.le_refl _), rest, ← length, List.take_length]
      have front (size : Nat) (fits : size ≤ remaining.length) :
          slice? remaining 0 size = some (remaining.take size) :=
        slice?_of_le (Nat.zero_le size) fits
      rw [decodeChecked, rest, decodeFrom, whole]
      by_cases more : offset < bytes.length
      · rw [dif_pos more, if_neg (by omega), Option.bind_some]
        by_cases short : remaining.length < netlinkHeaderLength
        · rw [if_pos short, if_pos short]
        · have field : 4 ≤ remaining.length := by
            unfold netlinkHeaderLength at short
            omega
          rw [if_neg short, if_neg short, front 4 field, Option.bind_some]
          simp only [@fromNeBytes_take platform remaining 4 (Nat.le_refl 4)]
          by_cases outside : platform.fromNeBytes remaining < netlinkHeaderLength ∨
              remaining.length < platform.fromNeBytes remaining
          · rw [dif_pos outside, dif_pos outside]
          · rw [dif_neg outside, dif_neg outside, front _ (by omega), Option.bind_some]
            cases platform.deserialize (remaining.take (platform.fromNeBytes remaining)) with
            | error error => rfl
            | ok message =>
                dsimp only
                by_cases wide : platform.usizeMax < platform.fromNeBytes remaining + 3
                · rw [if_pos wide, if_pos wide]
                · rw [if_neg wide, if_neg wide]
                  by_cases cut : remaining.length < (platform.fromNeBytes remaining + 3) / 4 * 4
                  · rw [if_pos cut, if_pos cut]
                    split <;> rfl
                  · have header : 16 ≤ platform.fromNeBytes remaining :=
                      Nat.not_lt.mp (not_or.mp outside).1
                    have further : decodeChecked platform bytes
                          (offset + (platform.fromNeBytes remaining + 3) / 4 * 4) =
                        some (decodeFrom platform (bytes.drop
                          (offset + (platform.fromNeBytes remaining + 3) / 4 * 4))) :=
                      ih _ (by omega) (by omega) rfl
                    rw [if_neg cut, if_neg cut, if_neg (by omega), further, ← List.drop_drop, rest,
                      Option.map_some]
                    cases decodeFrom platform
                      (remaining.drop ((platform.fromNeBytes remaining + 3) / 4 * 4)) <;> rfl
      · rw [dif_neg more, if_pos (by omega)]

/-- The sum with the alignment does not overflow for a slice that fits. -/
theorem decodeFrom_ne_overflow {remaining : List UInt8}
    (room : remaining.length + 3 ≤ platform.usizeMax) :
    decodeFrom platform remaining ≠ .error (.invalid "netlink message length overflow") := by
  induction length : remaining.length using Nat.strong_induction_on generalizing remaining with
  | _ count ih =>
      rw [decodeFrom]
      split
      · simp
      · split
        · simp [Error.invalid]
        · dsimp only
          split
          · simp [Error.invalid]
          · rename_i inside
            obtain ⟨header, fits⟩ := not_or.mp inside
            unfold netlinkHeaderLength at header
            split
            · simp [Error.invalid]
            · rw [if_neg (by omega)]
              split
              · split <;> simp [Error.invalid]
              · have shorter :
                    (remaining.drop ((platform.fromNeBytes remaining + 3) / 4 * 4)).length =
                      remaining.length - (platform.fromNeBytes remaining + 3) / 4 * 4 :=
                  List.length_drop
                have later := ih _ (by omega) (by omega) shorter
                split
                · rename_i decoded
                  rwa [decoded] at later
                · simp

/-- **Framing.** A datagram is accepted exactly when it is framed, with its messages in
order. The decoder never slices out of bounds, and its sum never overflows. Behind an
accepted datagram of aligned length it goes on as from the start. -/
theorem decodeDatagram_framed (platform : Platform) :
    (∀ bytes : List UInt8, bytes.length + 3 ≤ platform.usizeMax →
      (∀ messages, decodeDatagram platform bytes = .ok messages ↔
        Framed platform bytes messages) ∧
      decodeChecked platform bytes 0 = some (decodeDatagram platform bytes) ∧
      decodeDatagram platform bytes ≠ .error (.invalid "netlink message length overflow")) ∧
    ∀ (first second : List UInt8) (messages : List NetlinkMessage), first.length % 4 = 0 →
      decodeDatagram platform first = .ok messages →
        decodeDatagram platform (first ++ second) =
          (decodeDatagram platform second).map (messages ++ ·) := by
  refine ⟨fun bytes room => ⟨fun messages => decodeFrom_iff room, ?_, ?_⟩, ?_⟩
  · exact decodeChecked_eq bytes (by omega) (Nat.zero_le _)
  · exact decodeFrom_ne_overflow room
  · exact fun first second messages aligned accepted => decodeFrom_append aligned accepted

end
end IfStack
