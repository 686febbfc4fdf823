import IfStack.Netlink.Dump

/-! # What the calls of a source say

Questions about the calls made to the world, newest first: the answers received on
the dump socket, the faults of the notification stream, the times at which link
changes arrived, and whether anything went wrong at all.
-/

namespace IfStack

/-- The payloads a notification may carry: a link has changed, or nothing. -/
def NetlinkPayload.Notifies : NetlinkPayload → Prop
  | .innerMessage (.newLink _) | .innerMessage (.delLink _) | .noop => True
  | _ => False

/-- A payload reports a changed link. -/
def NetlinkPayload.ChangesLink : NetlinkPayload → Prop
  | .innerMessage (.newLink _) | .innerMessage (.delLink _) => True
  | _ => False

/-- A notification message is out of place: it carries a sequence number, an
overrun, or anything but a link change or nothing. -/
def NetlinkMessage.Misplaced (message : NetlinkMessage) : Prop :=
  message.header.sequenceNumber ≠ 0 ∨ ¬ message.payload.Notifies

/-- A notification datagram breaks the stream. -/
def Datagram.Defective (platform : Platform) (datagram : Datagram) : Prop :=
  datagram.truncated = true ∨ datagram.fromKernel = false ∨ datagram.bytes = [] ∨
    (∃ error, decodeDatagram platform datagram.bytes = .error error) ∨
    ∃ messages, decodeDatagram platform datagram.bytes = .ok messages ∧
      ∃ message ∈ messages, message.Misplaced

/-- The messages of a datagram report a changed link. -/
def Datagram.ChangesLink (platform : Platform) (datagram : Datagram) : Prop :=
  ∃ messages, decodeDatagram platform datagram.bytes = .ok messages ∧
    ∃ message ∈ messages, message.payload.ChangesLink

/-- The message loop refuses a misplaced message and otherwise finds the changes. -/
theorem notifyMessages_spec (changed : Bool) (messages : List NetlinkMessage) :
    match notifyMessages changed messages with
    | .error _ => ∃ message ∈ messages, message.Misplaced
    | .ok found => (∀ message ∈ messages, ¬ message.Misplaced) ∧
        (found = true ↔ changed = true ∨ ∃ message ∈ messages, message.payload.ChangesLink) := by
  induction messages generalizing changed with
  | nil => simp [notifyMessages]
  | cons message rest ih =>
      have placed (harmless : ¬ message.Misplaced) (next : Bool)
          (turns : next = true ↔ changed = true ∨ message.payload.ChangesLink) :
          match notifyMessages next rest with
          | .error _ => ∃ other ∈ message :: rest, other.Misplaced
          | .ok found => (∀ other ∈ message :: rest, ¬ other.Misplaced) ∧ (found = true ↔
              changed = true ∨ ∃ other ∈ message :: rest, other.payload.ChangesLink) := by
        have later := ih next
        cases result : notifyMessages next rest with
        | error error =>
            rw [result] at later
            obtain ⟨other, member, misplaced⟩ := later
            exact ⟨other, List.mem_cons_of_mem _ member, misplaced⟩
        | ok found =>
            rw [result] at later
            obtain ⟨harmlessRest, finds⟩ := later
            refine ⟨List.forall_mem_cons.mpr ⟨harmless, harmlessRest⟩, finds.trans ?_⟩
            rw [turns, List.exists_mem_cons_iff, or_assoc]
      by_cases answers : message.header.sequenceNumber = 0
      · rw [notifyMessages]
        simp only [answers, ne_eq, not_true_eq_false, ↓reduceIte]
        cases payload : message.payload with
        | innerMessage inner =>
            cases inner with
            | newLink | delLink =>
                refine placed ?_ true ?_
                · simp [NetlinkMessage.Misplaced, answers, payload, NetlinkPayload.Notifies]
                · simp [payload, NetlinkPayload.ChangesLink]
            | _ =>
                exact ⟨message, List.mem_cons_self, Or.inr (by rw [payload]; exact id)⟩
        | noop =>
            refine placed ?_ changed ?_
            · simp [NetlinkMessage.Misplaced, answers, payload, NetlinkPayload.Notifies]
            · simp [payload, NetlinkPayload.ChangesLink]
        | _ => exact ⟨message, List.mem_cons_self, Or.inr (by rw [payload]; exact id)⟩
      · rw [notifyMessages]
        simp only [answers, ne_eq, not_false_eq_true, ↓reduceIte]
        exact ⟨message, List.mem_cons_self, Or.inl answers⟩

/-- A whole datagram from the kernel is defective only through its messages. -/
theorem Datagram.not_defective {platform : Platform} {datagram : Datagram}
    {messages : List NetlinkMessage} (whole : datagram.truncated = false)
    (kernel : datagram.fromKernel = true) (some : datagram.bytes ≠ [])
    (decoded : decodeDatagram platform datagram.bytes = .ok messages)
    (placed : ∀ message ∈ messages, ¬ message.Misplaced) : ¬ datagram.Defective platform := by
  rintro (cut | foreign | empty | ⟨error, failed⟩ | ⟨others, again, message, member, misplaced⟩)
  · cases whole.symm.trans cut
  · cases kernel.symm.trans foreign
  · exact some empty
  · cases decoded.symm.trans failed
  · cases decoded.symm.trans again
    exact placed message member misplaced

/-- A decoded datagram changes a link when one of its messages does. -/
theorem Datagram.changesLink_iff {platform : Platform} {datagram : Datagram}
    {messages : List NetlinkMessage}
    (decoded : decodeDatagram platform datagram.bytes = .ok messages) :
    datagram.ChangesLink platform ↔ ∃ message ∈ messages, message.payload.ChangesLink := by
  constructor
  · rintro ⟨others, again, found⟩
    cases decoded.symm.trans again
    exact found
  · exact fun found => ⟨messages, decoded, found⟩

/-- The judgement on a notification datagram: a refusal of a defective one, and
otherwise whether a link has changed. -/
theorem notifyDatagram_spec (platform : Platform) (datagram : Datagram) :
    match notifyDatagram platform datagram with
    | .error _ => datagram.Defective platform
    | .ok changed => ¬ datagram.Defective platform ∧
        (changed = true ↔ datagram.ChangesLink platform) := by
  unfold notifyDatagram
  cases truncated : datagram.truncated with
  | true => exact Or.inl truncated
  | false =>
      cases kernel : datagram.fromKernel with
      | false => exact Or.inr (Or.inl kernel)
      | true =>
          by_cases none : datagram.bytes = []
          · simp only [none, List.isEmpty_nil, Bool.false_eq_true, Bool.not_true, ↓reduceIte]
            exact Or.inr (Or.inr (Or.inl none))
          · have some : datagram.bytes.isEmpty = false := by simpa using none
            simp only [some, Bool.false_eq_true, Bool.not_true, ↓reduceIte]
            cases decoded : decodeDatagram platform datagram.bytes with
            | error error =>
                change datagram.Defective platform
                exact Or.inr (Or.inr (Or.inr (Or.inl ⟨error, decoded⟩)))
            | ok messages =>
                have judged := notifyMessages_spec false messages
                dsimp only
                cases result : notifyMessages false messages with
                | error error =>
                    rw [result] at judged
                    change datagram.Defective platform
                    exact Or.inr (Or.inr (Or.inr (Or.inr ⟨messages, decoded, judged⟩)))
                | ok changed =>
                    rw [result] at judged
                    obtain ⟨placed, finds⟩ := judged
                    refine ⟨Datagram.not_defective truncated kernel none decoded placed, ?_⟩
                    rw [Datagram.changesLink_iff decoded, finds]
                    simp only [Bool.false_eq_true, false_or]

section

variable {S : Type}

/-- A call tells that the notification stream has broken: the poll failed, or it
reported a failure of the notification socket, or the datagram received there was
an error or defective. -/
def Call.Fault (platform : Platform) : Call S → Prop
  | .polled _ _ _ (.error _) => True
  | .polled _ _ _ (.ok ready) => ready.notificationFailed = true
  | .received .notification _ (.error _) => True
  | .received .notification _ (.ok datagram) => datagram.Defective platform
  | _ => False

/-- Nothing went wrong at a call of a dump with the given deadline, except perhaps
in what the dump itself said. -/
def Call.Clean (platform : Platform) (deadline : Nat) : Call S → Prop
  | .opened _ answer => ∃ socket, answer = .ok socket
  | .sent _ _ answer => answer = .ok ()
  | .polled _ _ _ answer => ∃ ready, answer = .ok ready ∧ ready.notificationFailed = false ∧
      ready.dumpFailed = false
  | .received role _ answer => ∃ datagram, answer = .ok datagram ∧
      (role = .notification → ¬ datagram.Defective platform)
  | .instant reading => reading < deadline
  | .elapsed _ | .slept _ => True

/-- A call brings a link change: a sound notification datagram that reports one. -/
def Call.BringsChange (platform : Platform) : Call S → Prop
  | .received .notification _ (.ok datagram) =>
      ¬ datagram.Defective platform ∧ datagram.ChangesLink platform
  | _ => False

/-- A fault brings no change. -/
theorem Call.Fault.not_bringsChange {platform : Platform} {call : Call S}
    (fault : call.Fault platform) : ¬ call.BringsChange platform := by
  match call with
  | .received .notification _ (.ok datagram) => exact fun brings => brings.1 fault
  | .received .notification _ (.error _) | .received .dump .. | .polled .. | .opened ..
  | .sent .. | .instant _ | .elapsed _ | .slept _ => exact id

/-- A clean call is no fault. -/
theorem Call.Clean.not_fault {platform : Platform} {deadline : Nat} {call : Call S}
    (clean : call.Clean platform deadline) : ¬ call.Fault platform := by
  intro fault
  cases call with
  | polled _ _ _ answer =>
      obtain ⟨ready, rfl, sound, _⟩ := clean
      exact Bool.false_ne_true (sound.symm.trans fault)
  | received role _ answer =>
      obtain ⟨datagram, rfl, sound⟩ := clean
      cases role with
      | notification => exact sound rfl fault
      | dump => exact fault
  | _ => exact fault

/-- The request of a dump: a socket of its own, and the message. -/
def dumpCalls (platform : Platform) (sequence : UInt32) (dump : S) : List (Call S) :=
  [.sent dump (dumpRequest platform sequence) (.ok ()), .opened 0 (.ok dump)]

/-- The calls of the dump loop: on the socket of the subscription and on that of the dump. -/
def Call.Between (notification dump : S) : Call S → Prop
  | .polled first second _ _ => first = notification ∧ second = some dump
  | .received .notification socket _ => socket = notification
  | .received .dump socket _ => socket = dump
  | .instant _ | .elapsed _ => True
  | .opened .. | .sent .. | .slept _ => False

/-- The calls of the two halves of the loop that receive. -/
def Call.Receives (notification dump : S) : Call S → Prop
  | .received .notification socket _ => socket = notification
  | .received .dump socket _ => socket = dump
  | .elapsed _ => True
  | _ => False

/-- Receiving is a part of the loop. -/
theorem Call.Receives.between {notification dump : S} {call : Call S}
    (receives : call.Receives notification dump) : call.Between notification dump := by
  match call with
  | .received .notification _ _ | .received .dump _ _ | .elapsed _ => exact receives

namespace Calls

/-- The answers received on the dump socket, in order. -/
def dumpAnswers : List (Call S) → List (Except Error Datagram)
  | [] => []
  | .received .dump _ answer :: older => dumpAnswers older ++ [answer]
  | _ :: older => dumpAnswers older

/-- Answers are received in the order of the calls. -/
theorem dumpAnswers_append (newer older : List (Call S)) :
    dumpAnswers (newer ++ older) = dumpAnswers older ++ dumpAnswers newer := by
  induction newer with
  | nil => exact (List.append_nil _).symm
  | cons call newer ih =>
      match call with
      | .received .dump _ answer =>
          rw [List.cons_append, dumpAnswers, ih, dumpAnswers, List.append_assoc]
      | .received .notification _ _ | .polled .. | .opened .. | .sent .. | .instant _
      | .elapsed _ | .slept _ => exact ih

/-- The first reading of the clock outside `elapsed`: that of the deadline. -/
def firstInstant : List (Call S) → Option Nat
  | [] => none
  | .instant reading :: older => some ((firstInstant older).getD reading)
  | _ :: older => firstInstant older

/-- Later calls do not move the first reading. -/
theorem firstInstant_append {calls : List (Call S)} {first : Nat}
    (begun : firstInstant calls = some first) (later : List (Call S)) :
    firstInstant (later ++ calls) = some first := by
  induction later with
  | nil => exact begun
  | cons call later ih =>
      cases call with
      | instant reading =>
          rw [List.cons_append, firstInstant, ih]
          rfl
      | _ => exact ih

/-- The times at which link changes arrived, in order. Each is read right after the
datagram that brings the change. -/
inductive Arrivals (platform : Platform) (origin : Nat) : List (Call S) → List Duration → Prop
  | none : Arrivals platform origin [] []
  | change {older : List (Call S)} {times : List Duration} {socket : S} {datagram : Datagram}
      {reading : Nat} (earlier : Arrivals platform origin older times)
      (brings : (Call.received .notification socket (.ok datagram)).BringsChange platform) :
      Arrivals platform origin
        (.elapsed reading :: .received .notification socket (.ok datagram) :: older)
        (times ++ [durationSince reading origin])
  | other {older : List (Call S)} {times : List Duration} {call : Call S}
      (earlier : Arrivals platform origin older times) (quiet : ¬ call.BringsChange platform) :
      Arrivals platform origin (call :: older) times

/-- The batch that summarises the arrivals: the first and the last. -/
def batch (times : List Duration) : EventBatch := ⟨times.head?, times.getLast?⟩

/-- Noting a time adds it to the batch. -/
theorem batch_note (times : List Duration) (time : Duration) :
    (batch times).note (some time) = batch (times ++ [time]) := by
  unfold batch EventBatch.note
  rw [List.getLast?_concat, List.head?_append]
  cases times <;> rfl

/-- A batch is the summary of the changes that arrived. -/
def Summarised (platform : Platform) (origin : Nat) (calls : List (Call S))
    (events : EventBatch) : Prop :=
  ∃ times, Arrivals platform origin calls times ∧ events = batch times

/-- No calls bring no changes. -/
theorem Summarised.empty (platform : Platform) (origin : Nat) :
    Summarised platform origin ([] : List (Call S)) ⟨Option.none, Option.none⟩ :=
  ⟨[], .none, rfl⟩

/-- A call that brings no change leaves the batch. -/
theorem Summarised.other {platform : Platform} {origin : Nat} {calls : List (Call S)}
    {events : EventBatch} {call : Call S} (summarised : Summarised platform origin calls events)
    (quiet : ¬ call.BringsChange platform) :
    Summarised platform origin (call :: calls) events := by
  obtain ⟨times, arrivals, batched⟩ := summarised
  exact ⟨times, .other arrivals quiet, batched⟩

/-- Calls that bring no change leave the summary alone. -/
theorem Summarised.others {platform : Platform} {origin : Nat} {newer older : List (Call S)}
    {events : EventBatch} (summarised : Summarised platform origin older events)
    (quiet : ∀ call ∈ newer, ¬ call.BringsChange platform) :
    Summarised platform origin (newer ++ older) events := by
  induction newer with
  | nil => exact summarised
  | cons call newer ih =>
      obtain ⟨first, rest⟩ := List.forall_mem_cons.mp quiet
      exact (ih rest).other first

/-- A change is noted with the reading of the clock behind it. -/
theorem Summarised.change {platform : Platform} {origin reading : Nat} {calls : List (Call S)}
    {events : EventBatch} {socket : S} {datagram : Datagram}
    (summarised : Summarised platform origin calls events)
    (brings : (Call.received .notification socket (.ok datagram)).BringsChange platform) :
    Summarised platform origin
      (.elapsed reading :: .received .notification socket (.ok datagram) :: calls)
      (events.note (some (durationSince reading origin))) := by
  obtain ⟨times, arrivals, rfl⟩ := summarised
  exact ⟨_, .change arrivals brings, batch_note _ _⟩

end Calls

end
end IfStack
