import IfStack.Netlink.Decode
import IfStack.Netlink.Source

/-! # What a dump says

A dump is the sequence of datagrams received on its socket. It is partial as long
as its messages are link messages of the request, and complete when a last
message ends it. `consume_dump` decides, datagram by datagram, between the two
and a refusal.
-/

namespace IfStack

/-- A message answers a request: it carries its sequence number and was not
interrupted. -/
def NetlinkMessage.Answers (sequence : UInt32) (message : NetlinkMessage) : Prop :=
  message.header.sequenceNumber = sequence ∧ message.header.flags &&& nlmFDumpIntr = 0

/-- A message ends a dump without an error. -/
def NetlinkMessage.Ends (sequence : UInt32) (message : NetlinkMessage) : Prop :=
  message.Answers sequence ∧ message.payload = .done 0

/-- A message reports a link. -/
def NetlinkMessage.Reports (sequence : UInt32) (message : NetlinkMessage)
    (observed : ObservedLink) : Prop :=
  message.Answers sequence ∧
    ∃ link, message.payload = .innerMessage (.newLink link) ∧ decodeLink link = .ok observed

/-- The messages report the links, one by one and in order. -/
def ReportsAll (sequence : UInt32) (messages : List NetlinkMessage) (links : List ObservedLink) :
    Prop :=
  List.Forall₂ (NetlinkMessage.Reports sequence) messages links

/-- A datagram is whole, from the kernel, nonempty, and decodes to messages. -/
def Datagram.Reads (platform : Platform) (datagram : Datagram) (messages : List NetlinkMessage) :
    Prop :=
  datagram.truncated = false ∧ datagram.fromKernel = true ∧ datagram.bytes ≠ [] ∧
    decodeDatagram platform datagram.bytes = .ok messages

/-- The bytes received in several answers. -/
def receivedBytes : List (Except Error Datagram) → Nat
  | [] => 0
  | .ok datagram :: answers => datagram.bytes.length + receivedBytes answers
  | .error _ :: answers => receivedBytes answers

/-- A dump takes a datagram: it is whole, from the kernel, nonempty and within the
limit, and its messages are consumed, up to the end of the dump or not. -/
structure DumpTakes (platform : Platform) (sequence : UInt32) (links : List ObservedLink)
    (total : Nat) (datagram : Datagram) (finished : Bool) (left : List ObservedLink) : Prop where
  whole : datagram.truncated = false
  kernel : datagram.fromKernel = true
  some : datagram.bytes ≠ []
  few : total + datagram.bytes.length ≤ maxInventoryBytes
  consumed : consumeDump platform datagram.bytes sequence links = (.ok finished, left)

/-- The datagrams received so far hold nothing but links of the request. -/
def PartialDump (platform : Platform) (sequence : UInt32)
    (answers : List (Except Error Datagram)) (links : List ObservedLink) : Prop :=
  ∃ datagrams lists, answers = datagrams.map .ok ∧
    List.Forall₂ (Datagram.Reads platform) datagrams lists ∧
    receivedBytes answers ≤ maxInventoryBytes ∧ ReportsAll sequence lists.flatten links

/-- The datagrams received are links of the request up to a last message, the last
of the last datagram, which ends the dump. -/
def CompleteDump (platform : Platform) (sequence : UInt32)
    (answers : List (Except Error Datagram)) (links : List ObservedLink) : Prop :=
  ∃ earlier last lists front done, answers = (earlier ++ [last]).map .ok ∧
    List.Forall₂ (Datagram.Reads platform) earlier lists ∧
    last.Reads platform (front ++ [done]) ∧
    receivedBytes answers ≤ maxInventoryBytes ∧
    ReportsAll sequence (lists.flatten ++ front) links ∧ done.Ends sequence

section

variable {platform : Platform} {sequence : UInt32} {messages rest : List NetlinkMessage}
  {links observed : List ObservedLink} {count position : Nat}

/-- A link message of the request adds its link. -/
theorem consumeMessage_of_reports {message : NetlinkMessage} {link : ObservedLink}
    (reports : message.Reports sequence link) :
    consumeMessage sequence count position message = .ok link := by
  obtain ⟨⟨same, whole⟩, link, payload, decoded⟩ := reports
  simp only [consumeMessage, same, whole, ne_eq, not_true_eq_false, ↓reduceIte, payload, decoded]

/-- A last message that ends the dump completes it. -/
theorem consumeMessage_of_ends {message : NetlinkMessage} (ends : message.Ends sequence)
    (last : position + 1 = count) :
    consumeMessage sequence count position message = .error (.ok true) := by
  obtain ⟨⟨same, whole⟩, payload⟩ := ends
  simp only [consumeMessage, same, whole, ne_eq, not_true_eq_false, ↓reduceIte, payload, last,
    and_self]

/-- A message is a link message of the request, or the last that ends the dump, or it
is refused. -/
theorem consumeMessage_spec (sequence : UInt32) (count position : Nat)
    (message : NetlinkMessage) :
    match consumeMessage sequence count position message with
    | .ok link => message.Reports sequence link
    | .error (.ok finished) =>
        finished = true ∧ position + 1 = count ∧ message.Ends sequence
    | .error (.error _) => True := by
  unfold consumeMessage
  by_cases same : message.header.sequenceNumber = sequence
  · by_cases whole : message.header.flags &&& nlmFDumpIntr = 0
    · simp only [same, whole, ne_eq, not_true_eq_false, ↓reduceIte]
      cases payload : message.payload with
      | innerMessage inner =>
          cases inner with
          | newLink link =>
              cases decoded : decodeLink link with
              | ok reported =>
                  simp only [decoded]
                  exact ⟨⟨same, whole⟩, link, payload, decoded⟩
              | error error => simp only [decoded]
          | _ => trivial
      | done code =>
          by_cases last : code = 0 ∧ position + 1 = count
          · simp only [last, and_self, ↓reduceIte]
            exact ⟨trivial, trivial, ⟨same, whole⟩, last.1 ▸ payload⟩
          · simp only [last, ↓reduceIte]
            by_cases zero : code = 0
            · simp only [zero, ↓reduceIte]
            · simp only [zero, ↓reduceIte]
      | _ => trivial
    · simp only [same, whole, ne_eq, not_true_eq_false, not_false_eq_true, ↓reduceIte]
  · simp only [same, ne_eq, not_false_eq_true, ↓reduceIte]

/-- Link messages of the request are consumed one by one. -/
theorem consumeMessages_append (reports : ReportsAll sequence messages observed) :
    consumeMessages sequence count position links (messages ++ rest) =
      consumeMessages sequence count (position + messages.length) (links ++ observed) rest := by
  induction reports generalizing position links with
  | nil => simp
  | cons report reports ih =>
      rw [List.cons_append, consumeMessages, consumeMessage_of_reports report]
      dsimp only
      rw [ih, List.length_cons, List.append_assoc, List.singleton_append, Nat.add_assoc,
        Nat.add_comm 1]

/-- What the messages consumed without a refusal were. -/
theorem consumeMessages_ok {finished : Bool} {left : List ObservedLink}
    (consumed : consumeMessages sequence (position + messages.length) position links messages =
      (.ok finished, left)) :
    ∃ front observed, ReportsAll sequence front observed ∧ left = links ++ observed ∧
      if finished then ∃ done, messages = front ++ [done] ∧ done.Ends sequence
      else messages = front := by
  induction messages generalizing position links with
  | nil =>
      cases consumed
      exact ⟨[], [], .nil, (List.append_nil _).symm, rfl⟩
  | cons message rest ih =>
      have judged := consumeMessage_spec sequence (position + (message :: rest).length) position
        message
      rw [consumeMessages] at consumed
      cases verdict : consumeMessage sequence (position + (message :: rest).length) position
        message with
      | ok reported =>
          simp only [verdict] at consumed judged
          rw [List.length_cons, Nat.add_comm rest.length, ← Nat.add_assoc] at consumed
          obtain ⟨front, observed, reports, rfl, ends⟩ := ih consumed
          refine ⟨message :: front, reported :: observed, .cons judged reports, ?_, ?_⟩
          · rw [List.append_assoc, List.singleton_append]
          · cases finished with
            | true =>
                obtain ⟨done, rfl, ends⟩ := ends
                exact ⟨done, rfl, ends⟩
            | false => exact congrArg (message :: ·) ends
      | error returned =>
          simp only [verdict] at consumed judged
          cases consumed
          obtain ⟨rfl, counted, ends⟩ := judged
          rw [List.length_cons] at counted
          have alone : rest = [] := List.eq_nil_of_length_eq_zero (by omega)
          subst alone
          exact ⟨[], [], .nil, (List.append_nil _).symm, message, rfl, ends⟩

/-- Nothing but link messages of the request leaves the dump open. -/
theorem consumeMessages_reports (reports : ReportsAll sequence messages observed) :
    consumeMessages sequence count position links messages = (.ok false, links ++ observed) := by
  rw [← List.append_nil messages, consumeMessages_append reports]
  rfl

/-- A last message that ends the dump completes it. -/
theorem consumeMessages_ends {done : NetlinkMessage} (ends : done.Ends sequence)
    (reports : ReportsAll sequence messages observed) :
    consumeMessages sequence (messages ++ [done]).length 0 links (messages ++ [done]) =
      (.ok true, links ++ observed) := by
  have last : 0 + messages.length + 1 = (messages ++ [done]).length := by
    rw [List.length_append, List.length_singleton, Nat.zero_add]
  rw [consumeMessages_append reports, consumeMessages, consumeMessage_of_ends ends last]

/-- What relates to a sequence in two parts is in two parts. -/
theorem forall₂_append {α β : Type*} {related : α → β → Prop} {front back : List α}
    {whole : List β} : List.Forall₂ related (front ++ back) whole ↔ ∃ first second,
      whole = first ++ second ∧ List.Forall₂ related front first ∧
        List.Forall₂ related back second := by
  constructor
  · intro relates
    induction front generalizing whole with
    | nil => exact ⟨[], whole, rfl, .nil, relates⟩
    | cons head front ih =>
        cases relates with
        | cons relate relates =>
            obtain ⟨first, second, rfl, left, right⟩ := ih relates
            exact ⟨_ :: first, second, rfl, .cons relate left, right⟩
  · rintro ⟨first, second, rfl, left, right⟩
    exact List.rel_append left right

/-- What messages in sequence report is what each part reports, in sequence. -/
theorem reportsAll_append {front back : List NetlinkMessage} :
    ReportsAll sequence (front ++ back) links ↔ ∃ first second, links = first ++ second ∧
      ReportsAll sequence front first ∧ ReportsAll sequence back second :=
  forall₂_append

/-- The messages determine the links they report. -/
theorem ReportsAll.unique {other : List ObservedLink}
    (reports : ReportsAll sequence messages links)
    (reports' : ReportsAll sequence messages other) : links = other := by
  induction reports generalizing other with
  | nil => cases reports'; rfl
  | cons report reports ih =>
      cases reports' with
      | cons report' reports' =>
          obtain ⟨_, link, payload, decoded⟩ := report
          obtain ⟨_, link', payload', decoded'⟩ := report'
          rw [payload] at payload'
          cases payload'
          cases decoded.symm.trans decoded'
          rw [ih reports']

/-- The datagrams determine the messages they decode to. -/
theorem reads_unique {datagrams : List Datagram} {lists lists' : List (List NetlinkMessage)}
    (reads : List.Forall₂ (Datagram.Reads platform) datagrams lists)
    (reads' : List.Forall₂ (Datagram.Reads platform) datagrams lists') : lists = lists' := by
  induction reads generalizing lists' with
  | nil => cases reads'; rfl
  | cons read reads ih =>
      cases reads' with
      | cons read' reads' =>
          cases read.2.2.2.symm.trans read'.2.2.2
          rw [ih reads']

/-- A datagram adds its bytes to what has been received. -/
theorem receivedBytes_append (answers : List (Except Error Datagram)) (datagram : Datagram) :
    receivedBytes (answers ++ [.ok datagram]) =
      receivedBytes answers + datagram.bytes.length := by
  induction answers with
  | nil => exact Nat.add_comm _ _
  | cons answer answers ih =>
      cases answer with
      | ok earlier =>
          rw [List.cons_append, receivedBytes, receivedBytes, ih, Nat.add_assoc]
      | error error => exact ih

/-- The byte limit lies far below the end of `usize`. -/
theorem maxInventoryBytes_lt_min (platform : Platform) (total : Nat) :
    maxInventoryBytes < min total platform.usizeMax ↔ maxInventoryBytes < total := by
  have wide : 2 ^ 32 ≤ 2 ^ platform.usizeBits :=
    Nat.pow_le_pow_right Nat.two_pos platform.usizeBits_ge
  unfold maxInventoryBytes Platform.usizeMax
  omega

/-- The judgement on a dump datagram: the dump takes it, or it neither continues nor ends
the dump. -/
theorem dumpDatagram_spec (platform : Platform) (sequence : UInt32) (links : List ObservedLink)
    (total : Nat) (datagram : Datagram) :
    match dumpDatagram platform sequence links total datagram with
    | .error _ => ∀ finished left,
        ¬ DumpTakes platform sequence links total datagram finished left
    | .ok (finished, left, sum) =>
        DumpTakes platform sequence links total datagram finished left ∧
          sum = total + datagram.bytes.length := by
  unfold dumpDatagram
  cases whole : datagram.truncated with
  | true => exact fun _ _ takes => nomatch whole.symm.trans takes.whole
  | false =>
      cases kernel : datagram.fromKernel with
      | false => exact fun _ _ takes => nomatch kernel.symm.trans takes.kernel
      | true =>
          by_cases none : datagram.bytes = []
          · simp only [none, List.isEmpty_nil, Bool.false_eq_true, Bool.or_true, ↓reduceIte]
            exact fun _ _ takes => takes.some none
          · have some : datagram.bytes.isEmpty = false := by simpa using none
            simp only [some, Bool.false_eq_true, Bool.not_true, Bool.or_false, ↓reduceIte,
              maxInventoryBytes_lt_min]
            by_cases many : maxInventoryBytes < total + datagram.bytes.length
            · simp only [many, ↓reduceIte]
              exact fun _ _ takes => absurd takes.few (Nat.not_le.mpr many)
            · have few := Nat.not_lt.mp many
              have exactly := (maxInventoryBytes_lt_min platform _).not.mpr many
              simp only [many, ↓reduceIte]
              cases consumed : consumeDump platform datagram.bytes sequence links with
              | mk verdict left =>
                  cases verdict with
                  | error error =>
                      exact fun _ _ takes => nomatch consumed.symm.trans takes.consumed
                  | ok finished =>
                      refine ⟨⟨whole, kernel, none, few, consumed⟩, ?_⟩
                      have wide := (maxInventoryBytes_lt_min platform (maxInventoryBytes + 1)).mpr
                        (Nat.lt_succ_self _)
                      omega

/-- A complete dump determines its links. -/
theorem CompleteDump.unique {answers : List (Except Error Datagram)} {other : List ObservedLink}
    (complete : CompleteDump platform sequence answers links)
    (complete' : CompleteDump platform sequence answers other) : links = other := by
  obtain ⟨earlier, last, lists, front, done, rfl, reads, read, _, reports, _⟩ := complete
  obtain ⟨earlier', last', lists', front', done', same, reads', read', _, reports', _⟩ := complete'
  have datagrams := List.map_injective_iff.mpr (fun _ _ => Except.ok.inj) same
  obtain ⟨rfl, final⟩ := List.append_inj' datagrams rfl
  cases final
  obtain rfl := reads_unique reads reads'
  obtain ⟨rfl, _⟩ := List.append_inj' (Except.ok.inj (read.2.2.2.symm.trans read'.2.2.2)) rfl
  exact reports.unique reports'

end

namespace PartialDump

variable {platform : Platform} {sequence : UInt32} {answers : List (Except Error Datagram)}
  {links left : List ObservedLink} {datagram : Datagram}

/-- Before the first datagram. -/
theorem empty : PartialDump platform sequence [] [] :=
  ⟨[], [], rfl, .nil, Nat.zero_le _, .nil⟩

/-- What `consume_dump` decoded, and what it was. -/
theorem consumeDump_ok {finished : Bool}
    (consumed : consumeDump platform datagram.bytes sequence links = (.ok finished, left)) :
    ∃ messages front observed, decodeDatagram platform datagram.bytes = .ok messages ∧
      ReportsAll sequence front observed ∧ left = links ++ observed ∧
      if finished then ∃ done, messages = front ++ [done] ∧ done.Ends sequence
      else messages = front := by
  unfold consumeDump at consumed
  cases decoded : decodeDatagram platform datagram.bytes with
  | error error =>
      simp only [decoded] at consumed
      cases consumed
  | ok messages =>
      simp only [decoded] at consumed
      rw [← Nat.zero_add messages.length] at consumed
      obtain ⟨front, observed, reports, grown, ends⟩ := consumeMessages_ok consumed
      exact ⟨messages, front, observed, rfl, reports, grown, ends⟩

/-- A datagram that neither ends nor breaks the dump continues it. -/
theorem more (read : PartialDump platform sequence answers links)
    (takes : DumpTakes platform sequence links (receivedBytes answers) datagram false left) :
    PartialDump platform sequence (answers ++ [.ok datagram]) left := by
  obtain ⟨datagrams, lists, rfl, reads, _, reports⟩ := read
  obtain ⟨whole, kernel, some, few, consumed⟩ := takes
  obtain ⟨messages, front, observed, decoded, reported, rfl, same⟩ := consumeDump_ok consumed
  change messages = front at same
  subst same
  refine ⟨datagrams ++ [datagram], lists ++ [messages], ?_, ?_, ?_, ?_⟩
  · rw [List.map_append]
    rfl
  · exact List.rel_append reads (.cons ⟨whole, kernel, some, decoded⟩ .nil)
  · rwa [receivedBytes_append]
  · rw [List.flatten_append, List.flatten_singleton]
    exact List.rel_append reports reported

/-- A datagram that ends the dump completes it. -/
theorem ends (read : PartialDump platform sequence answers links)
    (takes : DumpTakes platform sequence links (receivedBytes answers) datagram true left) :
    CompleteDump platform sequence (answers ++ [.ok datagram]) left := by
  obtain ⟨datagrams, lists, rfl, reads, _, reports⟩ := read
  obtain ⟨whole, kernel, some, few, consumed⟩ := takes
  obtain ⟨messages, front, observed, decoded, reported, rfl, done, rfl, ends⟩ :=
    consumeDump_ok consumed
  refine ⟨datagrams, datagram, lists, front, done, ?_, reads, ⟨whole, kernel, some, decoded⟩, ?_,
    List.rel_append reports reported, ends⟩
  · rw [List.map_append]
    rfl
  · rwa [receivedBytes_append]

/-- The datagram that completes a dump is taken. -/
theorem last_of_complete {answer : Except Error Datagram}
    (read : PartialDump platform sequence answers links)
    (complete : CompleteDump platform sequence (answers ++ [answer]) left) :
    ∃ datagram, answer = .ok datagram ∧
      DumpTakes platform sequence links (receivedBytes answers) datagram true left := by
  obtain ⟨earlier, last, lists', front, done, split, reads', lastRead, few, reports', ends⟩ :=
    complete
  obtain ⟨datagrams, lists, rfl, reads, _, reports⟩ := read
  rw [List.map_append] at split
  obtain ⟨first, final⟩ := List.append_inj' split rfl
  obtain rfl := List.map_injective_iff.mpr (fun _ _ => Except.ok.inj) first
  cases final
  obtain rfl := reads_unique reads reads'
  obtain ⟨first, second, rfl, firstReports, secondReports⟩ := reportsAll_append.mp reports'
  obtain rfl := reports.unique firstReports
  obtain ⟨whole, kernel, some, decoded⟩ := lastRead
  refine ⟨last, rfl, whole, kernel, some, ?_, ?_⟩
  · rwa [receivedBytes_append] at few
  · unfold consumeDump
    simp only [decoded]
    exact consumeMessages_ends ends secondReports

/-- The datagram that continues a partial dump is taken. -/
theorem next_of_partial {answer : Except Error Datagram}
    (read : PartialDump platform sequence answers links)
    (more : PartialDump platform sequence (answers ++ [answer]) left) :
    ∃ datagram, answer = .ok datagram ∧
      DumpTakes platform sequence links (receivedBytes answers) datagram false left := by
  obtain ⟨_, lists', split, reads', few, reports'⟩ := more
  obtain ⟨datagrams, lists, rfl, reads, _, reports⟩ := read
  obtain ⟨earlier, last, rfl, first, final⟩ := List.append_eq_map_iff.mp split
  obtain rfl := List.map_injective_iff.mpr (fun _ _ => Except.ok.inj) first
  obtain ⟨next, rfl, rfl⟩ := List.map_eq_singleton_iff.mp final
  obtain ⟨front, back, rfl, readFront, readBack⟩ := forall₂_append.mp reads'
  obtain rfl := reads_unique reads readFront
  cases readBack with
  | cons read nothing =>
      cases nothing
      rw [List.flatten_append, List.flatten_singleton] at reports'
      obtain ⟨first, second, rfl, firstReports, secondReports⟩ := reportsAll_append.mp reports'
      obtain rfl := reports.unique firstReports
      obtain ⟨whole, kernel, some, decoded⟩ := read
      refine ⟨next, rfl, whole, kernel, some, ?_, ?_⟩
      · rwa [receivedBytes_append] at few
      · unfold consumeDump
        simp only [decoded]
        exact consumeMessages_reports secondReports

/-- With a datagram that is not taken the dump is neither partial nor complete. -/
theorem refused (read : PartialDump platform sequence answers links)
    (refuses : ∀ finished left, ¬ DumpTakes platform sequence links (receivedBytes answers) datagram
      finished left) :
    ¬ PartialDump platform sequence (answers ++ [.ok datagram]) left ∧
      ¬ CompleteDump platform sequence (answers ++ [.ok datagram]) left := by
  constructor
  · intro more
    obtain ⟨_, same, takes⟩ := read.next_of_partial more
    cases same
    exact refuses _ _ takes
  · intro complete
    obtain ⟨_, same, takes⟩ := read.last_of_complete complete
    cases same
    exact refuses _ _ takes

/-- A partial dump was partial before its latest datagram. -/
theorem front {answer : Except Error Datagram}
    (read : PartialDump platform sequence (answers ++ [answer]) left) :
    ∃ links, PartialDump platform sequence answers links := by
  obtain ⟨_, lists, split, reads, few, reports⟩ := read
  obtain ⟨earlier, last, rfl, rfl, final⟩ := List.append_eq_map_iff.mp split
  obtain ⟨next, rfl, rfl⟩ := List.map_eq_singleton_iff.mp final
  obtain ⟨front, back, rfl, readFront, _⟩ := forall₂_append.mp reads
  rw [List.flatten_append] at reports
  obtain ⟨first, _, _, reported, _⟩ := reportsAll_append.mp reports
  rw [receivedBytes_append] at few
  exact ⟨first, earlier, front, rfl, readFront, (Nat.le_add_right _ _).trans few, reported⟩

/-- A complete dump was partial before its last datagram. -/
theorem of_complete {answer : Except Error Datagram}
    (complete : CompleteDump platform sequence (answers ++ [answer]) left) :
    ∃ links, PartialDump platform sequence answers links := by
  obtain ⟨earlier, last, lists, front, done, split, reads, _, few, reports, _⟩ := complete
  rw [List.map_append] at split
  obtain ⟨rfl, final⟩ := List.append_inj' split rfl
  cases final
  obtain ⟨first, _, _, reported, _⟩ := reportsAll_append.mp reports
  rw [receivedBytes_append] at few
  exact ⟨first, earlier, lists, rfl, reads, (Nat.le_add_right _ _).trans few, reported⟩

end PartialDump
end IfStack
