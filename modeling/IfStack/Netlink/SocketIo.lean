import IfStack.Foundation.Retry
import IfStack.Netlink.Poll
import IfStack.Netlink.Provenance

/-! # The sockets of the system

`SocketIo` of `netlink.rs`: the calls of `DatagramIo`, each made of system calls. What the
system interrupts is called again, a request is handed over whole or not at all, and what
is received tells whether it is cut short and where it comes from. Over these calls a
served table is that of whole messages of the kernel.
-/

namespace IfStack

open Foundation

/-- `MAX_DATAGRAM`. -/
def maxDatagram : Nat := 1024 * 1024

/-- A system call, and how it returned. -/
inductive SystemCall (S : Type)
  | created (answer : Except Error S)
  | bound (socket : S) (groups : UInt32) (answer : Except Error Unit)
  | connected (socket : S) (answer : Except Error Unit)
  | nonBlocking (socket : S) (answer : Except Error Unit)
  | sent (socket : S) (bytes : List UInt8) (answer : Except Error Nat)
  /-- The whole message, whatever the room for it, and the port of its sender. -/
  | received (socket : S) (answer : Except Error (List UInt8 × UInt32))
  | polled (call : PollCall S) (answer : PollAnswer)

/-- Whether the system took a message that it was sent, or a part of it. -/
def SystemCall.takes {S : Type} : SystemCall S → Bool
  | .sent _ _ (.ok _) => true
  | _ => false

/-- Whether a call was interrupted. -/
def interrupted {α : Type} : Except Error α → Bool
  | .ok _ => false
  | .error error => error.kind = .interrupted

/-- How the calls that open a socket return. -/
structure OpenAnswers (S : Type) where
  created : Except Error S
  bound : Except Error Unit
  connected : Except Error Unit
  nonBlocking : Except Error Unit

/-- The answers of a complete dump are datagrams that are whole and from the kernel. -/
theorem CompleteDump.whole {platform : Platform} {sequence : UInt32}
    {answers : List (Except Error Datagram)} {links : List ObservedLink}
    (complete : CompleteDump platform sequence answers links) :
    ∃ datagrams : List Datagram, answers = datagrams.map .ok ∧
      ∀ found ∈ datagrams, found.truncated = false ∧ found.fromKernel = true := by
  obtain ⟨earlier, last, lists, front, done, rfl, reads, ends, _⟩ := complete
  refine ⟨_, rfl, List.forall_mem_append.mpr ⟨?_, ?_⟩⟩
  · clear * - reads
    induction reads with
    | nil => exact fun _ member => absurd member List.not_mem_nil
    | cons first _ ih => exact List.forall_mem_cons.mpr ⟨⟨first.1, first.2.1⟩, ih⟩
  · exact List.forall_mem_singleton.mpr ⟨ends.1, ends.2.1⟩

namespace SocketIo

variable {S : Type}

/-- `SocketIo::open`, with its system calls. -/
def openSocket (groups : UInt32) (answers : OpenAnswers S) :
    List (SystemCall S) × Except Error S :=
  let created := [.created answers.created]
  match answers.created with
  | .error error => (created, .error error)
  | .ok socket =>
      let bound := created ++ [.bound socket groups answers.bound]
      match answers.bound with
      | .error error => (bound, .error error)
      | .ok () =>
          let connected := bound ++ [.connected socket answers.connected]
          match answers.connected with
          | .error error => (connected, .error error)
          | .ok () =>
              let nonBlocking := connected ++ [.nonBlocking socket answers.nonBlocking]
              match answers.nonBlocking with
              | .error error => (nonBlocking, .error error)
              | .ok () => (nonBlocking, .ok socket)

/-- What a write comes to. -/
def written (bytes : List UInt8) : Except Error Nat → Except Error Unit
  | .ok count =>
      if count = bytes.length then .ok ()
      else .error ⟨.writeZero, [.text "partial netlink request write"]⟩
  | .error error => .error error

/-- `SocketIo::send`, on the answers to come. Nothing is returned while every call is
interrupted. -/
def send (socket : S) (bytes : List UInt8) (answers : List (Except Error Nat)) :
    List (SystemCall S) × Option (Except Error Unit) :=
  let (tried, last) := retry interrupted answers
  (tried.map (.sent socket bytes), last.map (written bytes))

/-- The datagram of a message: what there is room for, and whether that is all. -/
def datagram : Except Error (List UInt8 × UInt32) → Except Error Datagram
  | .ok (message, port) => .ok {
      bytes := message.take maxDatagram
      fromKernel := port = 0
      truncated := maxDatagram < message.length }
  | .error error => .error error

/-- `SocketIo::receive`, on the answers to come. -/
def receive (socket : S) (answers : List (Except Error (List UInt8 × UInt32))) :
    List (SystemCall S) × Option (Except Error Datagram) :=
  let (tried, last) := retry interrupted answers
  (tried.map (.received socket), last.map datagram)

/-- The system calls that a call of `DatagramIo` is made of, in order. -/
inductive Performs : Call S → List (SystemCall S) → Prop
  | opened {groups : UInt32} {answers : OpenAnswers S} {answer : Except Error S} :
      (openSocket groups answers).2 = answer →
      Performs (.opened groups answer) (openSocket groups answers).1
  | sent {socket : S} {bytes : List UInt8} {answers : List (Except Error Nat)}
      {answer : Except Error Unit} : (send socket bytes answers).2 = some answer →
      Performs (.sent socket bytes answer) (send socket bytes answers).1
  | received {role : Role} {socket : S} {answers : List (Except Error (List UInt8 × UInt32))}
      {answer : Except Error Datagram} : (receive socket answers).2 = some answer →
      Performs (.received role socket answer) (receive socket answers).1
  | polled {notification : S} {dump : Option S} {timeout : Duration} {started : Nat}
      {turns : List PollTurn} {answer : Except Error Ready} :
      (wait notification dump timeout started turns).2 = some answer →
      Performs (.polled notification dump timeout answer)
        (((wait notification dump timeout started turns).1.zip (turns.map PollTurn.answer)).map
          fun polled => .polled polled.1 polled.2)
  | instant (reading : Nat) : Performs (.instant reading) []
  | elapsed (reading : Nat) : Performs (.elapsed reading) []
  | slept (timeout : Duration) : Performs (.slept timeout) []

/-- The system calls that the calls of a world are made of, both newest first. -/
inductive Performed : List (Call S) → List (SystemCall S) → Prop
  | nil : Performed [] []
  | cons {call : Call S} {calls : List (SystemCall S)} {log : List (Call S)}
      {system : List (SystemCall S)} : Performs call calls → Performed log system →
      Performed (call :: log) (calls.reverse ++ system)

variable {newer older log : List (Call S)} {system : List (SystemCall S)} {socket : S}

/-- Calls in sequence are made of system calls in sequence. -/
theorem Performed.split (performed : Performed (newer ++ older) system) :
    ∃ later earlier, system = later ++ earlier ∧ Performed newer later ∧
      Performed older earlier := by
  induction newer generalizing system with
  | nil => exact ⟨[], system, rfl, .nil, performed⟩
  | cons call newer ih =>
      cases performed with
      | cons performs performed =>
          obtain ⟨later, earlier, rfl, first, second⟩ := ih performed
          exact ⟨_, earlier, (List.append_assoc _ _ _).symm, .cons performs first, second⟩

/-- Calls that are made of system calls one by one are so in sequence. -/
theorem performed_of_performs (each : ∀ call ∈ log, ∃ calls, Performs call calls) :
    ∃ system, Performed log system := by
  induction log with
  | nil => exact ⟨[], .nil⟩
  | cons call log ih =>
      obtain ⟨⟨calls, performs⟩, rest⟩ := List.forall_mem_cons.mp each
      obtain ⟨system, performed⟩ := ih rest
      exact ⟨_, .cons performs performed⟩

/-- A datagram that is whole and from the kernel is a message of the kernel, to the last
byte. -/
theorem receive_whole {answers : List (Except Error (List UInt8 × UInt32))}
    {found : Datagram} (received : (receive socket answers).2 = some (.ok found))
    (whole : found.truncated = false) (kernel : found.fromKernel = true) :
    found.bytes.length ≤ maxDatagram ∧
      ∃ before,
        (receive socket answers).1 = before ++ [.received socket (.ok (found.bytes, 0))] := by
  obtain ⟨answer, final, made⟩ := Option.map_eq_some_iff.mp received
  obtain ⟨before, tried, _, _⟩ := retry_spec final
  cases answer with
  | error error => cases made
  | ok message =>
      obtain ⟨message, port⟩ := message
      cases made
      have fits : message.length ≤ maxDatagram := Nat.le_of_not_lt (of_decide_eq_false whole)
      have sender : port = 0 := of_decide_eq_true kernel
      have all : message.take maxDatagram = message := List.take_of_length_le fits
      refine ⟨List.length_take_le _ _, before.map (.received socket), ?_⟩
      change (retry interrupted answers).1.map _ = _
      rw [tried, List.map_append, all, sender]
      rfl

/-- A request that is sent is handed over once, and whole. -/
theorem send_whole {bytes : List UInt8} {answers : List (Except Error Nat)}
    (sent : (send socket bytes answers).2 = some (.ok ())) :
    ∃ before, (send socket bytes answers).1 =
        before ++ [.sent socket bytes (.ok bytes.length)] ∧
      ∀ call ∈ before, ∃ error, call = .sent socket bytes (.error error) := by
  obtain ⟨answer, final, made⟩ := Option.map_eq_some_iff.mp sent
  obtain ⟨before, tried, again, _⟩ := retry_spec final
  cases answer with
  | error error => cases made
  | ok count =>
      have complete : count = bytes.length := by
        by_contra short
        rw [written, if_neg short] at made
        cases made
      refine ⟨before.map (.sent socket bytes), ?_, ?_⟩
      · change (retry interrupted answers).1.map _ = _
        rw [tried, List.map_append, complete]
        rfl
      · intro call member
        obtain ⟨answer, among, rfl⟩ := List.mem_map.mp member
        have asks := again answer among
        cases answer with
        | ok count => cases asks
        | error error => exact ⟨error, rfl⟩

/-- The system calls that open a socket, in order. -/
def opening (groups : UInt32) (socket : S) : List (SystemCall S) :=
  [.created (.ok socket), .bound socket groups (.ok ()), .connected socket (.ok ()),
    .nonBlocking socket (.ok ())]

/-- A socket that is opened has gone through all calls. -/
theorem openSocket_ok {groups : UInt32} {answers : OpenAnswers S}
    (opened : (openSocket groups answers).2 = .ok socket) :
    (openSocket groups answers).1 = opening groups socket := by
  obtain ⟨created, bound, connected, nonBlocking⟩ := answers
  unfold openSocket at opened ⊢
  rcases created with _ | created <;> rcases bound with _ | _ <;>
    rcases connected with _ | _ <;> rcases nonBlocking with _ | _ <;> cases opened
  rfl

/-- In the calls of the dump loop the system takes nothing. -/
theorem Performs.between {notification dump : S} {call : Call S} {calls : List (SystemCall S)}
    (performs : Performs call calls) (between : call.Between notification dump) :
    ∀ made ∈ calls, made.takes = false := by
  intro made member
  cases performs with
  | opened | sent => exact absurd between id
  | received | polled =>
      obtain ⟨_, _, rfl⟩ := List.mem_map.mp member
      rfl
  | instant | elapsed | slept => cases member

/-- In the loop of a dump the system takes nothing. -/
theorem Performed.between {notification dump : S} (performed : Performed log system)
    (between : ∀ call ∈ log, call.Between notification dump) :
    ∀ made ∈ system, made.takes = false := by
  induction performed with
  | nil => exact fun _ member => absurd member List.not_mem_nil
  | cons performs _ ih =>
      obtain ⟨first, rest⟩ := List.forall_mem_cons.mp between
      intro made member
      rcases List.mem_append.mp member with now | before
      · exact performs.between first made (List.mem_reverse.mp now)
      · exact ih rest made before

/-- The answers of a dump that is whole and from the kernel are its messages, in order. -/
theorem Performed.messages {dump : S} (performed : Performed log system)
    (own : ∀ socket answer, .received .dump socket answer ∈ log → socket = dump)
    {datagrams : List Datagram} (answers : Calls.dumpAnswers log = datagrams.map .ok)
    (whole : ∀ found ∈ datagrams, found.truncated = false ∧ found.fromKernel = true) :
    (∀ found ∈ datagrams, found.bytes.length ≤ maxDatagram) ∧
      (datagrams.map fun found => SystemCall.received dump (.ok (found.bytes, 0))).Sublist
        system.reverse := by
  induction performed generalizing datagrams with
  | nil =>
      cases List.map_eq_nil_iff.mp answers.symm
      exact ⟨fun _ member => absurd member List.not_mem_nil, List.nil_sublist _⟩
  | @cons call calls log system performs performed ih =>
      have older (same : Calls.dumpAnswers (call :: log) = Calls.dumpAnswers log) :
          (∀ found ∈ datagrams, found.bytes.length ≤ maxDatagram) ∧
            (datagrams.map fun found => SystemCall.received dump (.ok (found.bytes, 0))).Sublist
              (calls.reverse ++ system).reverse := by
        obtain ⟨fits, inside⟩ := ih
          (fun socket answer member => own socket answer (List.mem_cons_of_mem _ member))
          (same.symm.trans answers) whole
        refine ⟨fits, inside.trans ?_⟩
        rw [List.reverse_append]
        exact List.sublist_append_left _ _
      cases call with
      | received role socket answer =>
          cases role with
          | notification => exact older rfl
          | dump =>
              cases own socket answer List.mem_cons_self
              obtain ⟨earlier, last, rfl, first, final⟩ := List.append_eq_map_iff.mp answers
              obtain ⟨newest, rfl, rfl⟩ := List.map_eq_singleton_iff.mp final
              obtain ⟨rest, newestWhole⟩ := List.forall_mem_append.mp whole
              obtain ⟨fits, inside⟩ := ih
                (fun socket answer member => own socket answer (List.mem_cons_of_mem _ member))
                first.symm rest
              obtain ⟨complete, kernel⟩ := newestWhole newest List.mem_cons_self
              cases performs with
              | received received =>
                  obtain ⟨small, before, made⟩ := receive_whole received complete kernel
                  refine ⟨List.forall_mem_append.mpr
                    ⟨fits, List.forall_mem_singleton.mpr small⟩, ?_⟩
                  rw [List.reverse_append, List.reverse_reverse, made, List.map_append]
                  exact inside.append (List.sublist_append_right _ _)
      | _ => exact older rfl

/-- The system calls of a complete dump of links, in order: a socket is opened that listens
to no group, the one message that the system takes is the request, to its last byte, and what
is received are the messages of the dump, all of them from the kernel and none cut short. -/
def DumpedOver (platform : Platform) (system : List (SystemCall S))
    (links : List ObservedLink) : Prop :=
  ∃ (dump : S) (sequence : UInt32) (messages : List (List UInt8)), opening 0 dump <+: system ∧
    system.filter SystemCall.takes = [.sent dump (dumpRequest platform sequence)
      (.ok (dumpRequest platform sequence).length)] ∧
    (messages.map fun message => SystemCall.received dump (.ok (message, 0))).Sublist system ∧
    (∀ message ∈ messages, message.length ≤ maxDatagram) ∧
    CompleteDump platform sequence (messages.map fun message => .ok ⟨message, true, false⟩) links

/-- A request is made of the calls that open a socket and hand the request over. -/
theorem Performed.request {platform : Platform} {sequence : UInt32} {dump : S}
    (performed : Performed (dumpCalls platform sequence dump) system) :
    ∃ before, (∀ call ∈ before, call.takes = false) ∧ system.reverse =
      opening 0 dump ++ before ++ [.sent dump (dumpRequest platform sequence)
        (.ok (dumpRequest platform sequence).length)] := by
  cases performed with
  | cons sent performed =>
      cases performed with
      | cons opened nothing =>
          cases nothing
          cases sent with
          | sent sent =>
              cases opened with
              | opened opened =>
                  obtain ⟨before, made, failed⟩ := send_whole sent
                  refine ⟨before, ?_, ?_⟩
                  · intro call member
                    obtain ⟨error, rfl⟩ := failed call member
                    rfl
                  · rw [openSocket_ok opened, made]
                    simp

/-- A complete dump, down to the system calls. -/
theorem Performed.dumpedOver {platform : Platform} {notification : S}
    {links : List ObservedLink} (performed : Performed log system)
    (dumped : DumpedIn platform notification log links) :
    DumpedOver platform system.reverse links := by
  obtain ⟨dump, sequence, loop, rfl, between, complete⟩ := dumped
  obtain ⟨datagrams, answers, whole⟩ := complete.whole
  have own : ∀ socket answer, .received .dump socket answer ∈
      loop ++ dumpCalls platform sequence dump → socket = dump := by
    intro socket answer member
    rcases List.mem_append.mp member with inside | request
    · exact between _ inside
    · simp [dumpCalls] at request
  obtain ⟨fits, inside⟩ := performed.messages own answers whole
  obtain ⟨looped, asked, rfl, loops, asks⟩ := performed.split
  obtain ⟨before, failed, requested⟩ := asks.request
  have ordered : (looped ++ asked).reverse = opening 0 dump ++ before ++
      [.sent dump (dumpRequest platform sequence)
        (.ok (dumpRequest platform sequence).length)] ++ looped.reverse := by
    rw [List.reverse_append, requested]
  refine ⟨dump, sequence, datagrams.map Datagram.bytes, ?_, ?_, ?_, ?_, ?_⟩
  · rw [ordered, List.append_assoc, List.append_assoc]
    exact List.prefix_append _ _
  · have quiet : looped.reverse.filter SystemCall.takes = [] :=
      List.filter_eq_nil_iff.mpr fun call member => Bool.eq_false_iff.mp
        (loops.between between call (List.mem_reverse.mp member))
    have refused : before.filter SystemCall.takes = [] :=
      List.filter_eq_nil_iff.mpr fun call member => Bool.eq_false_iff.mp (failed call member)
    rw [ordered]
    simp only [List.filter_append, quiet, refused]
    rfl
  · rw [List.map_map]
    exact inside
  · simpa using fits
  · have same : Calls.dumpAnswers (loop ++ dumpCalls platform sequence dump) =
        (datagrams.map Datagram.bytes).map fun message => .ok ⟨message, true, false⟩ := by
      rw [answers, List.map_map]
      apply List.map_congr_left
      rintro ⟨bytes, fromKernel, truncated⟩ member
      obtain ⟨rfl, rfl⟩ := whole _ member
      rfl
    rw [← same]
    exact complete

end SocketIo

open SocketIo

/-- **Messages.** Over the sockets of the system, a served table is that of the links in a
complete dump, each message of which the kernel sent and was received to the last byte. It was
asked for by one request, on a socket of its own, after the socket of the subscription was
opened for changes of links. -/
theorem Run.served_messages {S ID : Type} [AgentxId ID] {world : World S}
    {reconcile : Duration} {history : List Entry} {monitor : Monitor (NetlinkSource S) ID}
    {system : List (SystemCall S)}
    (run : Run (NetlinkSource.withIo world) reconcile history monitor) {table : Mib ID}
    (served : monitor.actor.publication.snapshot = some table)
    (performed : Performed monitor.source.world.log system) :
    ∃ socket before since asked later links topology,
      monitor.source.notification = some socket ∧
      system.reverse = before ++ opening linkMulticastGroup socket ++ since ++ asked ++ later ∧
      DumpedOver monitor.source.world.platform asked links ∧
      Topology.fromObserved links = .ok topology ∧ table = .fromTopology topology := by
  obtain ⟨socket, topology, recent, subscribed, made, dumped, _⟩ :=
    run.grounded.served table served
  obtain ⟨older, log, since, before, rfl, _⟩ := dumped.intact
  obtain ⟨later, calls, links, rfl, dump, formed⟩ := dumped.dump
  rw [log] at performed
  obtain ⟨_, _, rfl, recently, formerly⟩ := performed.split
  obtain ⟨afterwards, asked, rfl, _, asks⟩ := recently.split
  obtain ⟨meanwhile, _, rfl, _, begins⟩ := formerly.split
  cases begins with
  | @cons _ _ _ begun performs _ =>
      cases performs with
      | opened opened =>
          refine ⟨socket, begun.reverse, meanwhile.reverse, asked.reverse, afterwards.reverse,
            links, topology, subscribed, ?_, asks.dumpedOver dump, formed, made⟩
          rw [openSocket_ok opened]
          simp

/-- The calls of the bonded monitor up to its first table are made of system calls, the sends and
receives of more than one. -/
theorem bonded_performed : ∃ system, Performed Monitor.bondedServed.source.world.log system := by
  have opens (groups : UInt32) (socket : Nat) :
      ∃ calls, Performs (.opened groups (.ok socket)) calls :=
    ⟨_, .opened (show (openSocket groups ⟨.ok socket, .ok (), .ok (), .ok ()⟩).2 = .ok socket from
      rfl)⟩
  have sends (socket : Nat) (bytes : List UInt8) :
      ∃ calls, Performs (.sent socket bytes (.ok ())) calls := by
    have whole : written bytes (.ok bytes.length) = .ok () := if_pos rfl
    exact ⟨_, .sent (show (send socket bytes [.error ⟨.interrupted, []⟩, .ok bytes.length]).2 =
      some (.ok ()) from congrArg some whole)⟩
  have receives (role : Role) (socket : Nat) (found : Datagram)
      (read : datagram (.ok (found.bytes, 0)) = .ok found) :
      ∃ calls, Performs (.received role socket (.ok found)) calls :=
    ⟨_, .received (show (receive socket [.error ⟨.interrupted, []⟩, .ok (found.bytes, 0)]).2 =
      some (.ok found) from congrArg some read)⟩
  have polls (reading : Nat) : ∃ calls, Performs (.polled 2 (some 4)
      (durationSince 3006000000 reading) (.ok ⟨true, true, false, false⟩)) calls :=
    ⟨_, .polled (show (SocketIo.wait 2 (some 4) (durationSince 3006000000 reading) reading
      [⟨reading, .polled 1 1⟩]).2 = some (.ok ⟨true, true, false, false⟩) from rfl)⟩
  have told : datagram (.ok (Datagram.change.bytes, 0)) = .ok .change := by decide +kernel
  have part : datagram (.ok ((Datagram.part 1).bytes, 0)) = .ok (.part 1) := by decide +kernel
  have rest : datagram (.ok ((Datagram.rest 1).bytes, 0)) = .ok (.rest 1) := by decide +kernel
  have changes := receives .notification 2 .change told
  refine performed_of_performs ?_
  refine List.forall_mem_cons.mpr ⟨⟨_, .elapsed _⟩, List.forall_mem_cons.mpr
    ⟨receives .dump 4 (.rest 1) rest, ?_⟩⟩
  refine List.forall_mem_cons.mpr ⟨⟨_, .elapsed _⟩, List.forall_mem_cons.mpr ⟨changes,
    List.forall_mem_cons.mpr ⟨polls 12000000, List.forall_mem_cons.mpr ⟨⟨_, .instant _⟩, ?_⟩⟩⟩⟩
  refine List.forall_mem_cons.mpr ⟨receives .dump 4 (.part 1) part, ?_⟩
  refine List.forall_mem_cons.mpr ⟨⟨_, .elapsed _⟩, List.forall_mem_cons.mpr ⟨changes,
    List.forall_mem_cons.mpr ⟨polls 7000000, List.forall_mem_cons.mpr ⟨⟨_, .instant _⟩, ?_⟩⟩⟩⟩
  refine List.forall_mem_cons.mpr ⟨⟨_, .instant _⟩, List.forall_mem_cons.mpr
    ⟨sends 4 _, List.forall_mem_cons.mpr ⟨opens 0 4, ?_⟩⟩⟩
  refine List.forall_mem_cons.mpr ⟨⟨_, .elapsed _⟩, List.forall_mem_cons.mpr
    ⟨opens linkMulticastGroup 2, List.forall_mem_cons.mpr ⟨⟨_, .elapsed _⟩, ?_⟩⟩⟩
  exact List.forall_mem_singleton.mpr ⟨_, .instant _⟩

/-- The request of the bonded monitor has 32 bytes, and the system takes them all. -/
theorem Run.served_messages_bonded :
    ∃ history, ∃ monitor : Monitor (NetlinkSource Nat) PlainId,
      Run (NetlinkSource.withIo .bonded) (.fromSecs 300) history monitor ∧
      ∃ (socket dump : Nat) (request : List UInt8) (asked : List (SystemCall Nat))
        (links : List ObservedLink), monitor.source.notification = some socket ∧
          DumpedOver monitor.source.world.platform asked links ∧
            .sent dump request (.ok request.length) ∈ asked ∧ request.length = 32 := by
  obtain ⟨system, performed⟩ := bonded_performed
  obtain ⟨socket, _, _, asked, _, links, _, subscribed, _, dumped, _⟩ :=
    Run.served_messages Run.bondedServed rfl performed
  obtain ⟨dump, sequence, _, _, taken, _⟩ := id dumped
  have sent := List.mem_of_mem_filter (taken ▸ List.mem_cons_self)
  exact ⟨_, _, Run.bondedServed, socket, dump, _, asked, links, subscribed, dumped, sent, rfl⟩

end IfStack
