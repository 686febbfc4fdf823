import IfStack.Netlink.Calls

/-! # What the functions of the source do

Each function of the source by the calls that it makes: the inventory before its loop, a pass
of the dump loop, the wait, and the receipt of a notification inside the last two. A function
does nothing but what its cases list, each of them with all calls and the source that they
leave. Conversely, where the world answers the calls of a pass, the pass makes them.
-/

namespace IfStack
namespace NetlinkSource

variable {S : Type}

/-- The source after some more calls, newest first. -/
def extend (source : NetlinkSource S) (calls : List (Call S)) : NetlinkSource S :=
  { source with world := source.world.extend calls }

/-- Two extensions are one by both. -/
theorem extend_extend (source : NetlinkSource S) (newer older : List (Call S)) :
    (source.extend older).extend newer = source.extend (newer ++ older) :=
  congrArg (NetlinkSource.mk · _ _ _) (source.world.extend_extend newer older)

/-- The source without its subscription. -/
def dropped (source : NetlinkSource S) : NetlinkSource S := { source with notification := none }

/-! ## Receipts -/

/-- The calls on the stream of notifications, if there is something to receive, with the time
of the change that is told. -/
inductive Heard (platform : Platform) (origin : Nat) (socket : S) :
    Bool → List (Call S) → Option Duration → Prop
  | nothing : Heard platform origin socket false [] none
  | silent {datagram : Datagram} (sound : ¬ datagram.Defective platform)
      (same : ¬ datagram.ChangesLink platform) :
      Heard platform origin socket true [.received .notification socket (.ok datagram)] none
  | changed {datagram : Datagram} {reading : Nat} (sound : ¬ datagram.Defective platform)
      (changes : datagram.ChangesLink platform) :
      Heard platform origin socket true
        [.elapsed reading, .received .notification socket (.ok datagram)]
        (some (durationSince reading origin))

/-- `receive_notification` of a subscribed source. -/
inductive Receipt (platform : Platform) (origin : Nat) (socket : S) :
    List (Call S) → Except Error (Option Duration) → Prop
  | failed {error : Error} :
      Receipt platform origin socket [.received .notification socket (.error error)]
        (.error error)
  | defective {datagram : Datagram} {error : Error} (broken : datagram.Defective platform) :
      Receipt platform origin socket [.received .notification socket (.ok datagram)]
        (.error error)
  | heard {calls : List (Call S)} {time : Option Duration}
      (hears : Heard platform origin socket true calls time) :
      Receipt platform origin socket calls (.ok time)

/-- Receiving a notification is one receipt. -/
theorem receiveNotification_receipt (source : NetlinkSource S) {socket : S}
    (subscribed : source.notification = some socket) : ∃ calls answer,
      source.world.Answers calls ∧
        Receipt source.world.platform source.origin socket calls answer ∧
          source.receiveNotification = (answer, source.extend calls) := by
  obtain ⟨world, _, origin, sequence⟩ := source
  cases subscribed
  obtain ⟨answer, received⟩ : ∃ answer, world.receive .notification socket =
    (answer, world.record (.received .notification socket answer)) := ⟨_, rfl⟩
  have answers : world.Answers [.received .notification socket answer] :=
    ⟨congrArg Prod.fst received, trivial⟩
  simp only [receiveNotification, received]
  cases answer with
  | error error => exact ⟨_, _, answers, .failed, rfl⟩
  | ok datagram =>
      have judged := notifyDatagram_spec world.platform datagram
      simp only [World.record_platform]
      cases verdict : notifyDatagram world.platform datagram with
      | error error =>
          rw [verdict] at judged
          exact ⟨_, _, answers, .defective judged, rfl⟩
      | ok changed =>
          rw [verdict] at judged
          cases changed with
          | false =>
              have same := mt judged.2.mpr Bool.false_ne_true
              exact ⟨_, _, answers, .heard (.silent judged.1 same), rfl⟩
          | true =>
              exact ⟨[.elapsed _, _], _, ⟨rfl, answers⟩,
                .heard (.changed judged.1 (judged.2.mp rfl)), rfl⟩

/-! ## The subscription and the wait -/

/-- `subscribe`, with what it returns. -/
inductive Subscribed (source : NetlinkSource S) :
    List (Call S) → Except Error Unit × NetlinkSource S → Prop
  | refused {error : Error} :
      Subscribed source [.opened linkMulticastGroup (.error error)]
        (.error error, source.extend [.opened linkMulticastGroup (.error error)])
  | opened {socket : S} :
      Subscribed source [.opened linkMulticastGroup (.ok socket)]
        (.ok (), { source.extend [.opened linkMulticastGroup (.ok socket)] with
          notification := some socket })

/-- `subscribe` makes the calls of a subscription. -/
theorem subscribe_subscribed (source : NetlinkSource S) :
    ∃ calls, Subscribed source calls source.subscribe := by
  obtain ⟨answer, opened⟩ : ∃ answer, source.world.openSocket linkMulticastGroup =
    (answer, source.world.record (.opened linkMulticastGroup answer)) := ⟨_, rfl⟩
  unfold subscribe
  rw [opened]
  cases answer with
  | error error => exact ⟨_, .refused⟩
  | ok socket => exact ⟨_, .opened⟩

/-- The outcome of a wait that has received a notification. -/
def told : Option Duration → WaitOutcome
  | none => .deadline
  | some time => .linkChanged time

/-- `wait`, with what it returns. -/
inductive Waited (source : NetlinkSource S) (timeout : Duration) :
    List (Call S) → Except Error WaitOutcome × NetlinkSource S → Prop
  | slept (missing : source.notification = none) :
      Waited source timeout [.slept timeout] (.ok .deadline, source.extend [.slept timeout])
  | unpolled {socket : S} {error : Error} (subscribed : source.notification = some socket) :
      Waited source timeout [.polled socket none timeout (.error error)]
        (.error error, (source.extend [.polled socket none timeout (.error error)]).dropped)
  | broken {socket : S} {ready : Ready} (subscribed : source.notification = some socket)
      (failed : ready.notificationFailed = true) :
      Waited source timeout [.polled socket none timeout (.ok ready)]
        (.error (.other "link notification socket failed"),
          (source.extend [.polled socket none timeout (.ok ready)]).dropped)
  | unheard {socket : S} {ready : Ready} {received : List (Call S)} {error : Error}
      (subscribed : source.notification = some socket)
      (sound : ready.notificationFailed = false)
      (receipt : Receipt source.world.platform source.origin socket received (.error error)) :
      Waited source timeout (received ++ [.polled socket none timeout (.ok ready)])
        (.error error,
          (source.extend (received ++ [.polled socket none timeout (.ok ready)])).dropped)
  | heard {socket : S} {ready : Ready} {heard : List (Call S)} {time : Option Duration}
      (subscribed : source.notification = some socket)
      (sound : ready.notificationFailed = false)
      (hears : Heard source.world.platform source.origin socket ready.notification heard time) :
      Waited source timeout (heard ++ [.polled socket none timeout (.ok ready)])
        (.ok (told time), source.extend (heard ++ [.polled socket none timeout (.ok ready)]))

/-- `wait` makes the calls of a wait, and no other case is split off it. -/
theorem wait_waited (source : NetlinkSource S) (timeout : Duration) :
    ∃ calls, Waited source timeout calls (source.wait timeout) := by
  obtain ⟨world, subscription, origin, sequence⟩ := source
  cases subscription with
  | none => exact ⟨_, .slept rfl⟩
  | some socket =>
      obtain ⟨answer, poll⟩ : ∃ answer, world.wait socket none timeout =
        (answer, world.record (.polled socket none timeout answer)) := ⟨_, rfl⟩
      simp only [wait, poll]
      cases answer with
      | error error => exact ⟨_, .unpolled rfl⟩
      | ok ready =>
          cases failed : ready.notificationFailed with
          | true =>
              simp only [failed, ↓reduceIte]
              exact ⟨_, .broken rfl failed⟩
          | false =>
              cases heard : ready.notification with
              | false =>
                  simp only [failed, heard, Bool.not_false, Bool.false_eq_true, ↓reduceIte]
                  have hears : Heard world.platform origin socket ready.notification [] none :=
                    heard ▸ .nothing
                  exact ⟨_, @Waited.heard S ⟨world, some socket, origin, sequence⟩ timeout socket
                    ready [] none rfl failed hears⟩
              | true =>
                  simp only [failed, heard, Bool.not_true, Bool.false_eq_true, ↓reduceIte]
                  have spec := receiveNotification_receipt
                    ⟨world.record (.polled socket none timeout (.ok ready)), some socket, origin,
                      sequence⟩ rfl
                  obtain ⟨calls, answer, _, receipt, received⟩ := spec
                  have whole : extend ⟨world.record (.polled socket none timeout (.ok ready)),
                      some socket, origin, sequence⟩ calls =
                        extend ⟨world, some socket, origin, sequence⟩
                          (calls ++ [.polled socket none timeout (.ok ready)]) :=
                    extend_extend ⟨world, some socket, origin, sequence⟩ calls [_]
                  simp only [received, whole]
                  cases receipt with
                  | failed => exact ⟨_, .unheard rfl failed .failed⟩
                  | defective broken => exact ⟨_, .unheard rfl failed (.defective broken)⟩
                  | @heard _ time hears =>
                      rw [← heard, World.record_platform] at hears
                      have waited := @Waited.heard S ⟨world, some socket, origin, sequence⟩ timeout
                        socket ready calls time rfl failed hears
                      cases time with
                      | none => exact ⟨_, waited⟩
                      | some time => exact ⟨_, waited⟩

/-! ## The inventory before its loop -/

/-- The statements of `inventory` before its loop. -/
inductive Begun (start : NetlinkSource S) (attempt : Attempt) :
    List (Call S) → Except (Returned S) (DumpRequest S × DumpState S) → Prop
  | unopened {error : Error} :
      Begun start attempt [.opened 0 (.error error)]
        (.error (.error (.ordinary error ⟨none, none⟩), start.extend [.opened 0 (.error error)]))
  | unsent {dump : S} {error : Error} {calls : List (Call S)}
      (made : calls = [.sent dump (dumpRequest start.world.platform start.nextSequence.1)
        (.error error), .opened 0 (.ok dump)]) :
      Begun start attempt calls (.error (.error (.ordinary error ⟨none, none⟩),
        { start.extend calls with sequence := start.nextSequence.1 }))
  | requested {dump : S} {reading : Nat} {calls : List (Call S)}
      (made : calls =
        .instant reading :: dumpCalls start.world.platform start.nextSequence.1 dump) :
      Begun start attempt calls
        (.ok (⟨dump, start.nextSequence.1, reading + inventoryTimeout.nanos, attempt⟩,
          ⟨{ start.extend calls with sequence := start.nextSequence.1 }, [], 0, ⟨none, none⟩⟩))

/-- The start of a dump makes the calls of one. -/
theorem beginDump_begun (attempt : Attempt) (start : NetlinkSource S) : ∃ calls,
    start.world.Answers calls ∧ Begun start attempt calls (beginDump attempt start) := by
  obtain ⟨answer, opened⟩ : ∃ answer, start.world.openSocket 0 =
    (answer, start.world.record (.opened 0 answer)) := ⟨_, rfl⟩
  have first : start.world.Answers [.opened 0 answer] := ⟨congrArg Prod.fst opened, trivial⟩
  simp only [beginDump, opened]
  cases answer with
  | error error => exact ⟨_, first, .unopened⟩
  | ok dump =>
      have numbered : ({ start with world := start.world.record (.opened 0 (.ok dump)) } :
          NetlinkSource S).nextSequence = (start.nextSequence.1, { start with
            world := start.world.record (.opened 0 (.ok dump))
            sequence := start.nextSequence.1 }) := rfl
      simp only [numbered, World.record_platform]
      obtain ⟨answer, sent⟩ : ∃ answer, (start.world.record (.opened 0 (.ok dump))).send dump
          (dumpRequest start.world.platform start.nextSequence.1) =
            (answer, (start.world.record (.opened 0 (.ok dump))).record
              (.sent dump (dumpRequest start.world.platform start.nextSequence.1) answer)) :=
        ⟨_, rfl⟩
      have second : start.world.Answers
          [.sent dump (dumpRequest start.world.platform start.nextSequence.1) answer,
            .opened 0 (.ok dump)] := ⟨congrArg Prod.fst sent, first⟩
      simp only [sent]
      cases answer with
      | error error => exact ⟨_, second, .unsent rfl⟩
      | ok done => exact ⟨.instant _ :: _, ⟨rfl, second⟩, .requested rfl⟩

/-- Where the world lets it request its dump, an inventory does so. -/
theorem beginDump_requested {attempt : Attempt} {start : NetlinkSource S} {dump : S}
    {reading : Nat} {calls : List (Call S)}
    (made : calls = .instant reading :: dumpCalls start.world.platform start.nextSequence.1 dump)
    (answers : start.world.Answers calls) : beginDump attempt start =
      .ok (⟨dump, start.nextSequence.1, reading + inventoryTimeout.nanos, attempt⟩,
        ⟨{ start.extend calls with sequence := start.nextSequence.1 }, [], 0, ⟨none, none⟩⟩) := by
  subst made
  obtain ⟨clock, sent, opened, _⟩ := answers
  change start.world.behaviour.openSocket start.world.log 0 = .ok dump at opened
  change start.world.behaviour.clock (dumpCalls _ _ dump ++ start.world.log) = reading at clock
  simp only [beginDump, World.openSocket, opened]
  have numbered : ({ start with world := start.world.record (.opened 0 (.ok dump)) } :
      NetlinkSource S).nextSequence = (start.nextSequence.1, { start with
        world := start.world.record (.opened 0 (.ok dump))
        sequence := start.nextSequence.1 }) := rfl
  have sends : (start.world.record (.opened 0 (.ok dump))).send dump
      (dumpRequest start.world.platform start.nextSequence.1) =
        (.ok (), start.world.extend (dumpCalls start.world.platform start.nextSequence.1 dump)) :=
    Prod.ext sent (congrArg (fun answer => World.record _ (.sent _ _ answer)) sent)
  simp only [numbered, World.record_platform, sends, World.instant]
  rw [← clock]
  rfl

/-! ## A pass of the dump loop -/

/-- The poll of a pass before the deadline, for the time that is left. -/
inductive Polled (request : DumpRequest S) (socket : S) :
    List (Call S) → Except Error Ready → Prop
  | early {reading : Nat} {answer : Except Error Ready} (early : reading < request.deadline) :
      Polled request socket [.polled socket (some request.socket)
        (durationSince request.deadline reading) answer, .instant reading] answer

/-- The source after a pass. -/
def left : Except (Returned S) (DumpState S) → NetlinkSource S
  | .ok next => next.source
  | .error returned => returned.2

/-- The answer of an inventory that has exceeded its deadline. -/
def timedOut (events : EventBatch) : Except AcquisitionError Inventory :=
  .error (.ordinary ⟨.timedOut, [.text "interface inventory exceeded its deadline"]⟩ events)

/-- The dump half of a pass, if there is something to receive. -/
inductive Taking (request : DumpRequest S) (before : DumpState S) :
    Bool → List (Call S) → Except (Returned S) (DumpState S) → Prop
  | nothing : Taking request before false [] (.ok before)
  | failed {error : Error} {call : Call S}
      (made : call = .received .dump request.socket (.error error)) :
      Taking request before true [call]
        (.error (.error (.ordinary error before.events), before.source.extend [call]))
  | refused {datagram : Datagram} {error : Error} {call : Call S}
      (made : call = .received .dump request.socket (.ok datagram))
      (refuses : ∀ finished left, ¬ DumpTakes before.source.world.platform request.sequence
        before.links before.total datagram finished left) :
      Taking request before true [call]
        (.error (.error (.ordinary error before.events), before.source.extend [call]))
  | completed {datagram : Datagram} {left : List ObservedLink} {call : Call S}
      (made : call = .received .dump request.socket (.ok datagram))
      (takes : DumpTakes before.source.world.platform request.sequence before.links before.total
        datagram true left) :
      Taking request before true [call]
        (.error (.ok ⟨request.attempt, left, before.events⟩, before.source.extend [call]))
  | continued {datagram : Datagram} {left : List ObservedLink} {call : Call S}
      (made : call = .received .dump request.socket (.ok datagram))
      (takes : DumpTakes before.source.world.platform request.sequence before.links before.total
        datagram false left) :
      Taking request before true [call] (.ok { before with
        source := before.source.extend [call]
        links := left
        total := before.total + datagram.bytes.length })

/-- The body of the dump loop. -/
inductive Passing (request : DumpRequest S) (before : DumpState S) :
    List (Call S) → Except (Returned S) (DumpState S) → Prop
  | expired {reading : Nat} (passed : request.deadline ≤ reading) :
      Passing request before [.instant reading]
        (.error (timedOut before.events, before.source.extend [.instant reading]))
  | absent {reading : Nat} (early : reading < request.deadline)
      (missing : before.source.notification = none) :
      Passing request before [.instant reading]
        (.error (.error (.lost (.other "notification socket absent") before.events),
          before.source.extend [.instant reading]))
  | unpolled {socket : S} {polled : List (Call S)} {error : Error}
      (subscribed : before.source.notification = some socket)
      (polls : Polled request socket polled (.error error)) :
      Passing request before polled
        (.error (.error (.lost error before.events), (before.source.extend polled).dropped))
  | broken {socket : S} {polled : List (Call S)} {ready : Ready}
      (subscribed : before.source.notification = some socket)
      (polls : Polled request socket polled (.ok ready))
      (failed : ready.notificationFailed = true) :
      Passing request before polled
        (.error (.error (.lost (.other "link notification socket failed") before.events),
          (before.source.extend polled).dropped))
  | cut {socket : S} {polled : List (Call S)} {ready : Ready}
      (subscribed : before.source.notification = some socket)
      (polls : Polled request socket polled (.ok ready))
      (sound : ready.notificationFailed = false) (failed : ready.dumpFailed = true) :
      Passing request before polled
        (.error (.error (.ordinary (.other "interface inventory socket failed") before.events),
          before.source.extend polled))
  | unheard {socket : S} {polled received : List (Call S)} {ready : Ready} {error : Error}
      (subscribed : before.source.notification = some socket)
      (polls : Polled request socket polled (.ok ready))
      (sound : ready.notificationFailed = false) (intact : ready.dumpFailed = false)
      (receipt : Receipt before.source.world.platform before.source.origin socket received
        (.error error)) :
      Passing request before (received ++ polled)
        (.error (.error (.lost error before.events),
          (before.source.extend (received ++ polled)).dropped))
  | heard {socket : S} {polled heard taken : List (Call S)} {ready : Ready}
      {time : Option Duration} {outcome : Except (Returned S) (DumpState S)}
      (subscribed : before.source.notification = some socket)
      (polls : Polled request socket polled (.ok ready))
      (sound : ready.notificationFailed = false) (intact : ready.dumpFailed = false)
      (hears : Heard before.source.world.platform before.source.origin socket ready.notification
        heard time)
      (taking : Taking request { before with
          source := before.source.extend (heard ++ polled)
          events := before.events.note time }
        ready.dump taken outcome) :
      Passing request before (taken ++ (heard ++ polled)) outcome

/-- `take_dump` makes the calls of a receipt on the dump socket. -/
theorem takeDump_taking (request : DumpRequest S) (state : DumpState S) : ∃ calls,
    state.source.world.Answers calls ∧
      Taking request state true calls (takeDump request state) := by
  obtain ⟨answer, received⟩ : ∃ answer, state.source.world.receive .dump request.socket =
    (answer, state.source.world.record (.received .dump request.socket answer)) := ⟨_, rfl⟩
  have answers : state.source.world.Answers [.received .dump request.socket answer] :=
    ⟨congrArg Prod.fst received, trivial⟩
  simp only [takeDump, received]
  cases answer with
  | error error => exact ⟨_, answers, .failed rfl⟩
  | ok datagram =>
      have judged := dumpDatagram_spec state.source.world.platform request.sequence state.links
        state.total datagram
      simp only [World.record_platform]
      cases verdict : dumpDatagram state.source.world.platform request.sequence state.links
          state.total datagram with
      | error error =>
          rw [verdict] at judged
          exact ⟨_, answers, .refused rfl judged⟩
      | ok taken =>
          obtain ⟨finished, left, sum⟩ := taken
          rw [verdict] at judged
          obtain ⟨takes, rfl⟩ := judged
          cases finished with
          | true => exact ⟨_, answers, .completed rfl takes⟩
          | false => exact ⟨_, answers, .continued rfl takes⟩

/-- Where the world lets a pass poll, before the deadline and without a failure, it polls. -/
theorem pollDump_polled {request : DumpRequest S} {state : DumpState S} {socket : S}
    {polled : List (Call S)} {ready : Ready}
    (subscribed : state.source.notification = some socket)
    (polls : Polled request socket polled (.ok ready))
    (sound : ready.notificationFailed = false) (intact : ready.dumpFailed = false)
    (answers : state.source.world.Answers polled) : pollDump request state =
      .ok (ready, { state with source := state.source.extend polled }) := by
  obtain ⟨⟨world, _, origin, sequence⟩, links, total, events⟩ := state
  cases subscribed
  cases polls with
  | @early reading _ early =>
      obtain ⟨waits, clock, _⟩ := answers
      change world.behaviour.clock world.log = reading at clock
      change world.behaviour.wait (.instant reading :: world.log) socket (some request.socket)
        (durationSince request.deadline reading) = .ok ready at waits
      have left : durationSince request.deadline reading ≠ .zero :=
        mt durationSince_eq_zero.mp (Nat.not_le.mpr early)
      simp only [pollDump, World.instant, clock, left, ↓reduceIte, World.wait, World.record, waits,
        sound, intact, Bool.false_eq_true]
      rfl

/-- A poll leaves the loop, or it tells what there is to receive. -/
theorem pollDump_cases (request : DumpRequest S) (state : DumpState S) :
    (∃ calls returned, pollDump request state = .error returned ∧
      state.source.world.Answers calls ∧ Passing request state calls (.error returned)) ∨
    ∃ socket polled ready, state.source.notification = some socket ∧
      state.source.world.Answers polled ∧ Polled request socket polled (.ok ready) ∧
        ready.notificationFailed = false ∧ ready.dumpFailed = false ∧ pollDump request state =
          .ok (ready, { state with source := state.source.extend polled }) := by
  obtain ⟨⟨world, subscription, origin, sequence⟩, links, total, events⟩ := state
  obtain ⟨reading, clock⟩ : ∃ reading, world.instant = (reading, world.record
    (.instant reading)) := ⟨_, rfl⟩
  have read : world.Answers [.instant reading] := ⟨congrArg Prod.fst clock, trivial⟩
  simp only [pollDump, clock]
  by_cases expired : durationSince request.deadline reading = .zero
  · simp only [expired, ↓reduceIte]
    exact .inl ⟨_, _, rfl, read, .expired (durationSince_eq_zero.mp expired)⟩
  · have early := lt_of_durationSince expired
    simp only [expired, ↓reduceIte]
    cases subscription with
    | none => exact .inl ⟨_, _, rfl, read, .absent early rfl⟩
    | some socket =>
        obtain ⟨answer, poll⟩ : ∃ answer, (world.record (.instant reading)).wait socket
            (some request.socket) (durationSince request.deadline reading) =
              (answer, (world.record (.instant reading)).record (.polled socket
                (some request.socket) (durationSince request.deadline reading) answer)) :=
          ⟨_, rfl⟩
        have polls : Polled request socket _ answer := .early early
        have answers : world.Answers [.polled socket (some request.socket)
            (durationSince request.deadline reading) answer, .instant reading] :=
          ⟨congrArg Prod.fst poll, read⟩
        simp only [poll]
        cases answer with
        | error error => exact .inl ⟨_, _, rfl, answers, .unpolled rfl polls⟩
        | ok ready =>
            cases failed : ready.notificationFailed with
            | true =>
                simp only [failed, ↓reduceIte]
                exact .inl ⟨_, _, rfl, answers, .broken rfl polls failed⟩
            | false =>
                cases broken : ready.dumpFailed with
                | true =>
                    simp only [failed, broken, Bool.false_eq_true, ↓reduceIte]
                    exact .inl ⟨_, _, rfl, answers, .cut rfl polls failed broken⟩
                | false =>
                    simp only [failed, broken, Bool.false_eq_true, ↓reduceIte]
                    exact .inr ⟨socket, _, ready, rfl, answers, polls, failed, broken, rfl⟩

/-- A pass of the inventory makes the calls of one, and every fact about passes is by its
cases. -/
theorem dumpPass_passing (request : DumpRequest S) (state : DumpState S) : ∃ calls,
    state.source.world.Answers calls ∧ Passing request state calls (dumpPass request state) := by
  rcases pollDump_cases request state with ⟨calls, returned, poll, answers, passing⟩ |
    ⟨socket, polled, ready, subscribed, answers, polls, sound, intact, poll⟩
  · refine ⟨calls, answers, ?_⟩
    unfold dumpPass
    rwa [poll]
  · obtain ⟨notified, dumped, failed, broken⟩ := ready
    have takes (next : DumpState S) : ∃ taken, next.source.world.Answers taken ∧
        Taking request next dumped taken
          (if dumped = true then takeDump request next else pure next) := by
      cases dumped with
      | true => exact takeDump_taking request next
      | false => exact ⟨[], trivial, .nothing⟩
    unfold dumpPass
    rw [poll]
    cases notified with
    | false =>
        obtain ⟨taken, answers', taking⟩ :=
          takes { state with source := state.source.extend polled }
        exact ⟨_, World.answers_append.mpr ⟨answers, answers'⟩,
          .heard subscribed polls sound intact .nothing taking⟩
    | true =>
        obtain ⟨received, answer, answers', receipt, receives⟩ :=
          receiveNotification_receipt (state.source.extend polled) subscribed
        have both : state.source.world.Answers (received ++ polled) :=
          World.answers_append.mpr ⟨answers, answers'⟩
        rw [extend_extend] at receives
        change ∃ calls, _ ∧ Passing request state calls ((takeNotification _).bind _)
        simp only [takeNotification, receives]
        cases receipt with
        | failed => exact ⟨_, both, .unheard subscribed polls sound intact .failed⟩
        | defective broken =>
            exact ⟨_, both, .unheard subscribed polls sound intact (.defective broken)⟩
        | @heard _ time hears =>
            obtain ⟨taken, answers', taking⟩ := takes { state with
              source := state.source.extend (received ++ polled)
              events := state.events.note time }
            exact ⟨_, World.answers_append.mpr ⟨both, answers'⟩,
              .heard subscribed polls sound intact hears taking⟩

/-- A sound notification datagram is judged by whether it reports a change. -/
theorem notifyDatagram_sound {platform : Platform} {datagram : Datagram}
    (sound : ¬ datagram.Defective platform) : ∃ changed,
      notifyDatagram platform datagram = .ok changed ∧
        (changed = true ↔ datagram.ChangesLink platform) := by
  have judged := notifyDatagram_spec platform datagram
  cases verdict : notifyDatagram platform datagram with
  | error error =>
      rw [verdict] at judged
      exact absurd judged sound
  | ok changed =>
      rw [verdict] at judged
      exact ⟨changed, rfl, judged.2⟩

/-- Where the world lets a subscribed source receive what it hears, it hears it. -/
theorem receiveNotification_heard {source : NetlinkSource S} {socket : S}
    {heard : List (Call S)} {time : Option Duration}
    (subscribed : source.notification = some socket)
    (hears : Heard source.world.platform source.origin socket true heard time)
    (answers : source.world.Answers heard) :
    source.receiveNotification = (.ok time, source.extend heard) := by
  obtain ⟨world, _, origin, sequence⟩ := source
  cases subscribed
  cases hears with
  | @silent datagram sound same =>
      obtain ⟨changed, verdict, finds⟩ := notifyDatagram_sound sound
      obtain rfl : changed = false := Bool.eq_false_iff.mpr (mt finds.mp same)
      obtain ⟨receives, _⟩ := answers
      change world.behaviour.receive world.log socket = .ok datagram at receives
      simp only [receiveNotification, World.receive, receives, World.record_platform, verdict]
      rfl
  | @changed datagram reading sound changes =>
      obtain ⟨changed, verdict, finds⟩ := notifyDatagram_sound sound
      obtain rfl : changed = true := finds.mpr changes
      obtain ⟨clock, receives, _⟩ := answers
      change world.behaviour.receive world.log socket = .ok datagram at receives
      simp only [receiveNotification, World.receive, receives, World.record_platform, verdict]
      rw [← clock]
      rfl

/-- A pass that hears and polls without a failure goes on to its dump half. -/
theorem dumpPass_heard {request : DumpRequest S} {state : DumpState S} {socket : S}
    {polled heard : List (Call S)} {ready : Ready} {time : Option Duration}
    (subscribed : state.source.notification = some socket)
    (polls : Polled request socket polled (.ok ready))
    (sound : ready.notificationFailed = false) (intact : ready.dumpFailed = false)
    (hears : Heard state.source.world.platform state.source.origin socket ready.notification
      heard time)
    (answers : state.source.world.Answers (heard ++ polled)) : dumpPass request state =
      if ready.dump then
        takeDump request { state with
          source := state.source.extend (heard ++ polled)
          events := state.events.note time }
      else
        .ok { state with
          source := state.source.extend (heard ++ polled)
          events := state.events.note time } := by
  obtain ⟨first, second⟩ := World.answers_append.mp answers
  unfold dumpPass
  rw [pollDump_polled subscribed polls sound intact first]
  obtain ⟨notified, dumped, failed, broken⟩ := ready
  cases notified with
  | false =>
      cases hears
      rfl
  | true =>
      have receives := @receiveNotification_heard S (state.source.extend polled) socket heard time
        subscribed hears second
      rw [extend_extend] at receives
      change (takeNotification _).bind _ = _
      simp only [takeNotification, receives]
      rfl

/-- A datagram that a dump takes is judged so. -/
theorem dumpDatagram_takes {platform : Platform} {sequence : UInt32}
    {links left : List ObservedLink} {total : Nat} {datagram : Datagram} {finished : Bool}
    (takes : DumpTakes platform sequence links total datagram finished left) :
    dumpDatagram platform sequence links total datagram =
      .ok (finished, left, total + datagram.bytes.length) := by
  have judged := dumpDatagram_spec platform sequence links total datagram
  cases verdict : dumpDatagram platform sequence links total datagram with
  | error error =>
      rw [verdict] at judged
      exact absurd takes (judged finished left)
  | ok taken =>
      obtain ⟨finished', left', sum⟩ := taken
      rw [verdict] at judged
      obtain ⟨takes', rfl⟩ := judged
      cases takes.consumed.symm.trans takes'.consumed
      rfl

/-- Where the world lets it receive a datagram that a dump takes, the dump half takes it. -/
theorem takeDump_takes {request : DumpRequest S} {state : DumpState S} {datagram : Datagram}
    {finished : Bool} {left : List ObservedLink}
    (takes : DumpTakes state.source.world.platform request.sequence state.links state.total
      datagram finished left)
    (answers : state.source.world.Answers [.received .dump request.socket (.ok datagram)]) :
    takeDump request state =
      if finished then
        .error (.ok ⟨request.attempt, left, state.events⟩,
          state.source.extend [.received .dump request.socket (.ok datagram)])
      else
        .ok { state with
          source := state.source.extend [.received .dump request.socket (.ok datagram)]
          links := left
          total := state.total + datagram.bytes.length } := by
  obtain ⟨receives, _⟩ := answers
  change state.source.world.behaviour.receive state.source.world.log request.socket =
    .ok datagram at receives
  simp only [takeDump, World.receive, receives, World.record_platform, dumpDatagram_takes takes]
  cases finished <;> rfl

/-! ## What the calls tell -/

section

variable {platform : Platform} {origin : Nat} {socket : S} {calls older : List (Call S)}
  {time : Option Duration} {some : Bool}

/-- Hearing receives on the notification socket. -/
theorem Heard.receives (hears : Heard platform origin socket some calls time) (dump : S) :
    ∀ call ∈ calls, call.Receives socket dump := by
  cases hears with
  | nothing => exact fun _ member => absurd member List.not_mem_nil
  | silent => exact List.forall_mem_singleton.mpr rfl
  | changed => exact List.forall_mem_cons.mpr ⟨trivial, List.forall_mem_singleton.mpr rfl⟩

/-- A notification that is heard without an error is clean. -/
theorem Heard.clean (hears : Heard platform origin socket some calls time) (deadline : Nat) :
    ∀ call ∈ calls, call.Clean platform deadline := by
  cases hears with
  | nothing => exact fun _ member => absurd member List.not_mem_nil
  | silent sound => exact List.forall_mem_singleton.mpr ⟨_, rfl, fun _ => sound⟩
  | changed sound =>
      exact List.forall_mem_cons.mpr
        ⟨trivial, List.forall_mem_singleton.mpr ⟨_, rfl, fun _ => sound⟩⟩

/-- A notification that is heard without an error is no fault. -/
theorem Heard.calm (hears : Heard platform origin socket some calls time) :
    ∀ call ∈ calls, ¬ call.Fault platform :=
  fun call member => (hears.clean 0 call member).not_fault

/-- Hearing receives nothing on the dump socket. -/
theorem Heard.dumpAnswers (hears : Heard platform origin socket some calls time) :
    Calls.dumpAnswers calls = [] := by
  cases hears <;> rfl

/-- What is heard without a time brings no change. -/
theorem Heard.quiet (hears : Heard platform origin socket some calls none) :
    ∀ call ∈ calls, ¬ call.BringsChange platform := by
  cases hears with
  | nothing => exact fun _ member => absurd member List.not_mem_nil
  | silent _ same => exact List.forall_mem_singleton.mpr fun brings => same brings.2

/-- The time that is heard joins the batch. -/
theorem Heard.summarised {events : EventBatch}
    (hears : Heard platform origin socket some calls time)
    (summarised : Calls.Summarised platform origin older events) :
    Calls.Summarised platform origin (calls ++ older) (events.note time) := by
  cases hears with
  | nothing => exact summarised
  | silent _ same => exact summarised.other fun brings => same brings.2
  | changed sound changes => exact summarised.change ⟨sound, changes⟩

/-- A receipt that fails is one call, and a fault. -/
theorem Receipt.fault {error : Error}
    (receipt : Receipt platform origin socket calls (.error error)) :
    ∃ call, calls = [call] ∧ call.Fault platform ∧ ∀ dump, call.Receives socket dump := by
  cases receipt with
  | failed => exact ⟨_, rfl, trivial, fun _ => rfl⟩
  | defective broken => exact ⟨_, rfl, broken, fun _ => rfl⟩

variable {request : DumpRequest S} {ready : Ready} {answer : Except Error Ready}

/-- A poll is on both sockets. -/
theorem Polled.between (polls : Polled request socket calls answer) :
    ∀ call ∈ calls, call.Between socket request.socket := by
  cases polls with
  | early =>
      exact List.forall_mem_cons.mpr ⟨⟨rfl, rfl⟩, List.forall_mem_singleton.mpr trivial⟩

/-- A poll that finds neither socket failed is clean. -/
theorem Polled.clean (polls : Polled request socket calls (.ok ready))
    (sound : ready.notificationFailed = false) (intact : ready.dumpFailed = false) :
    ∀ call ∈ calls, call.Clean platform request.deadline := by
  cases polls with
  | early early =>
      exact List.forall_mem_cons.mpr
        ⟨⟨ready, rfl, sound, intact⟩, List.forall_mem_singleton.mpr early⟩

/-- A poll that does not find the subscription failed is no fault. -/
theorem Polled.calm (polls : Polled request socket calls (.ok ready))
    (sound : ready.notificationFailed = false) : ∀ call ∈ calls, ¬ call.Fault platform := by
  cases polls with
  | early =>
      exact List.forall_mem_cons.mpr
        ⟨fun fault => Bool.false_ne_true (sound.symm.trans fault), List.forall_mem_singleton.mpr id⟩

/-- A poll brings no change. -/
theorem Polled.quiet (polls : Polled request socket calls answer) :
    ∀ call ∈ calls, ¬ call.BringsChange platform := by
  cases polls with
  | early => exact List.forall_mem_cons.mpr ⟨id, List.forall_mem_singleton.mpr id⟩

/-- A poll receives nothing. -/
theorem Polled.dumpAnswers (polls : Polled request socket calls answer) :
    Calls.dumpAnswers calls = [] := by
  cases polls
  rfl

/-- Only the dump half of a pass brings answers of the dump. -/
theorem Heard.aside {polled : List (Call S)} (hears : Heard platform origin socket some calls time)
    (polls : Polled request socket polled answer) (older : List (Call S)) :
    Calls.dumpAnswers (calls ++ polled ++ older) = Calls.dumpAnswers older := by
  rw [Calls.dumpAnswers_append, Calls.dumpAnswers_append, hears.dumpAnswers, polls.dumpAnswers]
  exact List.append_nil _

/-- The answers of a pass come after those before it. -/
theorem Heard.after {polled : List (Call S)} (hears : Heard platform origin socket some calls time)
    (polls : Polled request socket polled answer) (taken older : List (Call S)) :
    Calls.dumpAnswers (taken ++ (calls ++ polled) ++ older) =
      Calls.dumpAnswers older ++ Calls.dumpAnswers taken := by
  rw [List.append_assoc, Calls.dumpAnswers_append, hears.aside polls]

variable {before : DumpState S} {outcome : Except (Returned S) (DumpState S)}
  {returned : Returned S}

/-- Taking receives on the dump socket. -/
theorem Taking.receives (taking : Taking request before some calls outcome) (notification : S) :
    ∀ call ∈ calls, call.Receives notification request.socket := by
  cases taking with
  | nothing => exact fun _ member => absurd member List.not_mem_nil
  | failed made | refused made | completed made | continued made =>
      exact List.forall_mem_singleton.mpr (made ▸ rfl)

/-- A pass makes its calls on the two sockets only. -/
theorem Passing.between (passing : Passing request before calls outcome)
    (subscribed : before.source.notification = Option.some socket) :
    ∀ call ∈ calls, call.Between socket request.socket := by
  cases passing with
  | expired | absent => exact List.forall_mem_singleton.mpr trivial
  | unpolled same polls | broken same polls | cut same polls =>
      obtain rfl := Option.some.inj (same.symm.trans subscribed)
      exact polls.between
  | unheard same polls _ _ receipt =>
      obtain rfl := Option.some.inj (same.symm.trans subscribed)
      obtain ⟨call, rfl, _, receives⟩ := receipt.fault
      exact List.forall_mem_cons.mpr ⟨(receives _).between, polls.between⟩
  | heard same polls _ _ hears taking =>
      obtain rfl := Option.some.inj (same.symm.trans subscribed)
      refine List.forall_mem_append.mpr ⟨?_, List.forall_mem_append.mpr ⟨?_, polls.between⟩⟩
      · exact fun call member => (taking.receives _ call member).between
      · exact fun call member => (hears.receives _ call member).between

/-- A pass leaves the source where its calls lead, with its subscription or without. -/
theorem Passing.leaves (passing : Passing request before calls outcome) :
    left outcome = before.source.extend calls ∨
      left outcome = (before.source.extend calls).dropped := by
  cases passing with
  | expired | absent | cut => exact .inl rfl
  | unpolled | broken | unheard => exact .inr rfl
  | @heard _ _ _ _ ready _ _ _ _ _ _ _ taking =>
      generalize ready.dump = some at taking
      cases taking with
      | nothing => exact .inl rfl
      | failed | refused | completed | continued => exact .inl (extend_extend _ _ _)

/-- So does a wait. -/
theorem Waited.leaves {source : NetlinkSource S} {timeout : Duration}
    {outcome : Except Error WaitOutcome × NetlinkSource S}
    (waited : Waited source timeout calls outcome) :
    outcome.2 = source.extend calls ∨ outcome.2 = (source.extend calls).dropped := by
  cases waited with
  | slept | heard => exact .inl rfl
  | unpolled | broken | unheard => exact .inr rfl

end

end NetlinkSource
end IfStack
