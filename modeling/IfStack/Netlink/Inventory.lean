import IfStack.Foundation.Loop
import IfStack.Netlink.Moves

/-! # What an inventory call does

One invariant of the dump loop: the source is where the calls of a delivery lead, and the
variables hold what these calls have brought. Every pass keeps it or leaves the loop. So
an inventory that returns has made the calls of a course, which tells its batch and its
outcome. And a delivery that the world answers is received.
-/

namespace IfStack

open Foundation

/-- The batch an inventory returns, whatever its outcome. -/
def returnedEvents : Except AcquisitionError Inventory → EventBatch
  | .ok inventory => inventory.events
  | .error (.ordinary _ events) | .error (.lost _ events) => events

section

variable {S : Type}

/-- The calls fix the deadline: the timeout after their first reading of the clock. -/
def EndsBy (deadline : Nat) (calls : List (Call S)) : Prop :=
  ∀ reading, Calls.firstInstant calls = some reading → deadline = reading + inventoryTimeout.nanos

/-- How an inventory has asked for its dump. Its socket is refused, or its request; or it goes on
with calls between the socket of the subscription and that of the dump. -/
inductive Calls.Asked (platform : Platform) (sequence : UInt32) (notification : S) :
    List (Call S) → Prop
  | unopened {error : Error} :
      Asked platform sequence notification [.opened 0 (.error error)]
  | unsent {dump : S} {error : Error} :
      Asked platform sequence notification
        [.sent dump (dumpRequest platform sequence) (.error error), .opened 0 (.ok dump)]
  | requested {dump : S} {loop : List (Call S)}
      (between : ∀ call ∈ loop, call.Between notification dump) :
      Asked platform sequence notification (loop ++ dumpCalls platform sequence dump)

/-- The calls on the socket of a dump, if there is something to receive. -/
inductive DumpReceipt (dump : S) : Bool → List (Call S) → Prop
  | nothing : DumpReceipt dump false []
  | received (datagram : Datagram) : DumpReceipt dump true [.received .dump dump (.ok datagram)]

/-- The calls of an inventory to which nothing happens that would end it, newest first, and the
batch of the changes that they tell. Its request is sent; and whenever it polls, before its
deadline, no socket has failed, a notification is sound, and what there is to receive of the
dump is received, whatever it is. -/
inductive DumpDelivery (start : NetlinkSource S) (request : DumpRequest S) :
    List (Call S) → EventBatch → Prop
  | begun {reading : Nat} (fixed : request.deadline = reading + inventoryTimeout.nanos) :
      DumpDelivery start request
        (.instant reading :: dumpCalls start.world.platform request.sequence request.socket)
        ⟨none, none⟩
  | pass {socket : S} {older polled heard taken : List (Call S)} {events : EventBatch}
      {ready : Ready} {time : Option Duration} (earlier : DumpDelivery start request older events)
      (subscribed : start.notification = some socket)
      (polls : NetlinkSource.Polled request socket polled (.ok ready))
      (sound : ready.notificationFailed = false) (intact : ready.dumpFailed = false)
      (hears : NetlinkSource.Heard start.world.platform start.origin socket ready.notification
        heard time)
      (takes : DumpReceipt request.socket ready.dump taken) :
      DumpDelivery start request (taken ++ (heard ++ polled) ++ older) (events.note time)

/-- While the dump loop runs: its calls are a delivery, of a dump that is partial. -/
structure DumpRunning (start : NetlinkSource S) (request : DumpRequest S) (state : DumpState S)
    (calls : List (Call S)) : Prop where
  source : state.source = { start.extend calls with sequence := request.sequence }
  delivery : DumpDelivery start request calls state.events
  read : PartialDump start.world.platform request.sequence (Calls.dumpAnswers calls) state.links
  total : state.total = receivedBytes (Calls.dumpAnswers calls)

/-- The calls of an inventory that returns, with what it returns: it fails before its loop, or a
pass of the loop leaves it. -/
inductive Course (start : NetlinkSource S) (attempt : Attempt) :
    List (Call S) → Returned S → Prop
  | failed {calls : List (Call S)} {returned : Returned S}
      (begun : NetlinkSource.Begun start attempt calls (.error returned)) :
      Course start attempt calls returned
  | left {request : DumpRequest S} {state : DumpState S} {calls older : List (Call S)}
      {returned : Returned S} (running : DumpRunning start request state older)
      (tried : request.attempt = attempt) (numbered : request.sequence = start.nextSequence.1)
      (passing : NetlinkSource.Passing request state calls (.error returned)) :
      Course start attempt (calls ++ older) returned

/-- What an inventory concludes from its calls, by its result: it succeeded on a
complete dump; or it failed and kept the stream, which was intact; or it lost it. An
inventory that fails although its calls are clean has received what belongs to no
complete dump. -/
def DumpConcludes (start : NetlinkSource S) (attempt : Attempt) (deadline : Nat)
    (calls : List (Call S)) : Returned S → Prop
  | (.ok inventory, after) =>
      inventory.attempt = attempt ∧
        CompleteDump start.world.platform start.nextSequence.1 (Calls.dumpAnswers calls)
          inventory.links ∧
        (∃ dump last older, calls = .received .dump dump (.ok last) :: older) ∧
        (∀ call ∈ calls, call.Clean start.world.platform deadline) ∧
        after.notification = start.notification ∧ start.notification.isSome
  | (.error (.ordinary ..), after) =>
      (∀ call ∈ calls, ¬ call.Fault start.world.platform) ∧
        after.notification = start.notification ∧
        ((∀ call ∈ calls, call.Clean start.world.platform deadline) → ∀ links,
          ¬ PartialDump start.world.platform start.nextSequence.1 (Calls.dumpAnswers calls)
              links ∧
            ¬ CompleteDump start.world.platform start.nextSequence.1 (Calls.dumpAnswers calls)
              links)
  | (.error (.lost ..), after) =>
      after.notification = none ∧
        (start.notification.isSome → ∃ call ∈ calls, call.Fault start.world.platform)

/-- When the inventory returns: the calls it made, the batch, and the conclusion. -/
structure DumpReturned (start : NetlinkSource S) (attempt : Attempt) (deadline : Nat)
    (returned : Returned S) (calls : List (Call S)) : Prop where
  world : returned.2.world = start.world.extend calls
  origin : returned.2.origin = start.origin
  begun : EndsBy deadline calls
  asked : ∀ notification, start.notification = some notification →
    Calls.Asked start.world.platform start.nextSequence.1 notification calls
  events : Calls.Summarised start.world.platform start.origin calls (returnedEvents returned.1)
  concludes : DumpConcludes start attempt deadline calls returned

namespace DumpReceipt

variable {dump : S} {some : Bool} {calls : List (Call S)}

/-- The calls of a receipt are clean. -/
theorem clean (takes : DumpReceipt dump some calls) (platform : Platform) (deadline : Nat) :
    ∀ call ∈ calls, call.Clean platform deadline := by
  cases takes with
  | nothing => exact fun _ member => absurd member List.not_mem_nil
  | received datagram =>
      exact List.forall_mem_singleton.mpr ⟨datagram, rfl, fun role => nomatch role⟩

/-- The calls of a receipt bring no change. -/
theorem quiet {platform : Platform} (takes : DumpReceipt dump some calls) :
    ∀ call ∈ calls, ¬ call.BringsChange platform := by
  cases takes with
  | nothing => exact fun _ member => absurd member List.not_mem_nil
  | received => exact List.forall_mem_singleton.mpr id

/-- The calls of a receipt are on the dump socket. -/
theorem receives (takes : DumpReceipt dump some calls) (notification : S) :
    ∀ call ∈ calls, call.Receives notification dump := by
  cases takes with
  | nothing => exact fun _ member => absurd member List.not_mem_nil
  | received => exact List.forall_mem_singleton.mpr rfl

/-- The dump half of a pass that goes on receives what there is. -/
theorem of_taking {request : DumpRequest S} {before next : DumpState S}
    (taking : NetlinkSource.Taking request before some calls (.ok next)) :
    DumpReceipt request.socket some calls := by
  cases taking with
  | nothing => exact .nothing
  | continued made => exact made ▸ .received _

end DumpReceipt

namespace DumpDelivery

variable {start : NetlinkSource S} {request : DumpRequest S} {calls : List (Call S)}
  {events : EventBatch}

/-- All calls of a delivery are clean. -/
theorem clean (delivery : DumpDelivery start request calls events) :
    ∀ call ∈ calls, call.Clean start.world.platform request.deadline := by
  induction delivery with
  | @begun reading fixed =>
      have early : reading < request.deadline := by
        rw [fixed]
        exact Nat.lt_add_of_pos_right (by decide)
      exact List.forall_mem_cons.mpr ⟨early, List.forall_mem_cons.mpr
        ⟨rfl, List.forall_mem_singleton.mpr ⟨_, rfl⟩⟩⟩
  | pass _ _ polls sound intact hears takes ih =>
      refine List.forall_mem_append.mpr ⟨List.forall_mem_append.mpr
        ⟨takes.clean _ _, List.forall_mem_append.mpr ⟨hears.clean _, ?_⟩⟩, ih⟩
      exact polls.clean sound intact

/-- The deadline is settled before the loop. -/
theorem begins (delivery : DumpDelivery start request calls events) : ∃ reading,
    Calls.firstInstant calls = some reading ∧
      request.deadline = reading + inventoryTimeout.nanos := by
  induction delivery with
  | begun fixed => exact ⟨_, rfl, fixed⟩
  | pass _ _ _ _ _ _ _ ih =>
      obtain ⟨reading, first, fixed⟩ := ih
      exact ⟨reading, Calls.firstInstant_append first _, fixed⟩

/-- The batch of a delivery summarises the arrivals. -/
theorem summarises (delivery : DumpDelivery start request calls events) :
    Calls.Summarised start.world.platform start.origin calls events := by
  induction delivery with
  | begun => exact (((Calls.Summarised.empty _ _).other id).other id).other id
  | pass _ _ polls _ _ hears takes ih =>
      rw [List.append_assoc, List.append_assoc]
      exact (hears.summarised (ih.others polls.quiet)).others takes.quiet

/-- The loop of a delivery makes its calls between two sockets. -/
theorem between (delivery : DumpDelivery start request calls events) {notification : S}
    (subscribed : start.notification = some notification) : ∃ loop,
    calls = loop ++ dumpCalls start.world.platform request.sequence request.socket ∧
      ∀ call ∈ loop, call.Between notification request.socket := by
  induction delivery with
  | @begun reading _ =>
      exact ⟨[.instant reading], rfl, List.forall_mem_singleton.mpr trivial⟩
  | @pass _ _ polled heard taken _ _ _ _ same polls _ _ hears takes ih =>
      cases same.symm.trans subscribed
      obtain ⟨loop, rfl, between⟩ := ih
      refine ⟨taken ++ (heard ++ polled) ++ loop, (List.append_assoc _ _ _).symm, ?_⟩
      refine List.forall_mem_append.mpr ⟨List.forall_mem_append.mpr
        ⟨fun call member => (takes.receives _ call member).between,
          List.forall_mem_append.mpr
            ⟨fun call member => (hears.receives _ call member).between, polls.between⟩⟩,
        between⟩

end DumpDelivery

namespace DumpRunning

variable {start : NetlinkSource S} {request : DumpRequest S} {state : DumpState S}
  {older calls : List (Call S)}

/-- More calls lead on from the start. -/
theorem extend (running : DumpRunning start request state older) (newer : List (Call S)) :
    state.source.extend newer =
      { start.extend (newer ++ older) with sequence := request.sequence } := by
  rw [running.source]
  exact congrArg (NetlinkSource.mk · _ _ _) (start.world.extend_extend newer older)

/-- The dump runs on the platform of its start. -/
theorem platform (running : DumpRunning start request state older) :
    state.source.world.platform = start.world.platform := by
  rw [running.source]
  rfl

/-- The dump counts its times from the origin of its start. -/
theorem origin (running : DumpRunning start request state older) :
    state.source.origin = start.origin := by
  rw [running.source]
  rfl

/-- The dump keeps the subscription. -/
theorem subscription (running : DumpRunning start request state older) :
    state.source.notification = start.notification := by
  rw [running.source]
  rfl

/-- A pass that goes on keeps what holds while the loop runs. -/
theorem pass (running : DumpRunning start request state older) {next : DumpState S}
    (passing : NetlinkSource.Passing request state calls (.ok next)) :
    DumpRunning start request next (calls ++ older) := by
  cases passing with
  | @heard _ polled heard _ ready _ _ subscribed polls sound intact hears taking =>
      rw [running.platform, running.origin] at hears
      rw [running.subscription] at subscribed
      have aside := hears.aside polls older
      have delivery := DumpDelivery.pass running.delivery subscribed polls sound intact hears
        (.of_taking taking)
      generalize ready.dump = some at taking
      cases taking with
      | nothing =>
          exact ⟨running.extend _, delivery, aside ▸ running.read, aside ▸ running.total⟩
      | @continued datagram left _ made takes =>
          subst made
          have received : Calls.dumpAnswers ([.received .dump request.socket (.ok datagram)] ++
              (heard ++ polled) ++ older) = Calls.dumpAnswers older ++ [.ok datagram] :=
            hears.after polls _ older
          change DumpTakes state.source.world.platform _ _ state.total _ _ _ at takes
          rw [running.platform, running.total] at takes
          refine ⟨?_, delivery, ?_, ?_⟩
          · change (state.source.extend _).extend _ = _
            rw [NetlinkSource.extend_extend]
            exact running.extend _
          · exact received ▸ running.read.more takes
          · rw [received, receivedBytes_append, ← running.total]

/-- A pass that leaves the loop returns the batch of all arrivals. -/
theorem summarises (running : DumpRunning start request state older) {returned : Returned S}
    (passing : NetlinkSource.Passing request state calls (.error returned)) :
    Calls.Summarised start.world.platform start.origin (calls ++ older)
      (returnedEvents returned.1) := by
  have summarised := running.delivery.summarises
  cases passing with
  | expired | absent => exact summarised.other id
  | unpolled _ polls | broken _ polls | cut _ polls => exact summarised.others polls.quiet
  | unheard _ polls _ _ receipt =>
      rw [running.platform] at receipt
      obtain ⟨call, rfl, fault, _⟩ := receipt.fault
      exact (summarised.others polls.quiet).other fault.not_bringsChange
  | @heard _ _ _ _ ready _ _ _ polls _ _ hears taking =>
      rw [running.platform, running.origin] at hears
      have heard := hears.summarised (summarised.others polls.quiet)
      generalize ready.dump = some at taking
      cases taking with
      | failed made | refused made | completed made =>
          subst made
          rw [List.append_assoc, List.append_assoc]
          exact heard.other id

/-- What a pass concludes that leaves the loop. -/
theorem concludes (running : DumpRunning start request state older) {returned : Returned S}
    (numbered : request.sequence = start.nextSequence.1)
    (passing : NetlinkSource.Passing request state calls (.error returned)) :
    DumpConcludes start request.attempt request.deadline (calls ++ older) returned := by
  have calm : ∀ call ∈ older, ¬ call.Fault start.world.platform :=
    fun call member => (running.delivery.clean call member).not_fault
  have subscription := running.subscription
  cases passing with
  | expired passed =>
      refine ⟨List.forall_mem_cons.mpr ⟨id, calm⟩, subscription, fun clean => ?_⟩
      exact absurd (clean _ List.mem_cons_self) (Nat.not_lt.mpr passed)
  | absent _ missing =>
      refine ⟨missing, fun present => ?_⟩
      rw [← subscription, missing] at present
      cases present
  | unpolled _ polls =>
      cases polls
      exact ⟨rfl, fun _ => ⟨_, List.mem_cons_self, trivial⟩⟩
  | broken _ polls failed =>
      cases polls
      exact ⟨rfl, fun _ => ⟨_, List.mem_cons_self, failed⟩⟩
  | cut _ polls sound failed =>
      refine ⟨List.forall_mem_append.mpr ⟨polls.calm sound, calm⟩, subscription, fun clean => ?_⟩
      cases polls
      obtain ⟨_, same, _, intact⟩ := clean _ List.mem_cons_self
      cases same
      cases failed.symm.trans intact
  | unheard _ _ _ _ receipt =>
      rw [running.platform] at receipt
      obtain ⟨call, rfl, fault, _⟩ := receipt.fault
      exact ⟨rfl, fun _ => ⟨call, List.mem_cons_self, fault⟩⟩
  | @heard _ polled heard _ ready _ _ subscribed polls sound intact hears taking =>
      rw [running.platform, running.origin] at hears
      have clean : ∀ call ∈ heard ++ polled ++ older,
          call.Clean start.world.platform request.deadline :=
        List.forall_mem_append.mpr ⟨List.forall_mem_append.mpr
          ⟨hears.clean _, polls.clean sound intact⟩, running.delivery.clean⟩
      have calm (call : Call S) (member : call ∈ heard ++ polled ++ older) :
          ¬ call.Fault start.world.platform := (clean call member).not_fault
      have received (datagram : Datagram) : Calls.dumpAnswers
          ([.received .dump request.socket (.ok datagram)] ++ (heard ++ polled) ++ older) =
            Calls.dumpAnswers older ++ [.ok datagram] := hears.after polls _ older
      generalize ready.dump = some at taking
      cases taking with
      | failed made =>
          subst made
          refine ⟨List.forall_mem_cons.mpr ⟨id, calm⟩, subscription, fun clean => ?_⟩
          obtain ⟨_, same, _⟩ := clean _ List.mem_cons_self
          cases same
      | @refused datagram _ _ made refuses =>
          subst made
          change ∀ finished left, ¬ DumpTakes state.source.world.platform _ _ state.total _ _ _
            at refuses
          rw [running.platform, running.total] at refuses
          refine ⟨List.forall_mem_cons.mpr ⟨id, calm⟩, subscription, fun _ links => ?_⟩
          rw [received, ← numbered]
          exact running.read.refused refuses
      | @completed datagram left _ made takes =>
          subst made
          change DumpTakes state.source.world.platform _ _ state.total _ _ _ at takes
          rw [running.platform, running.total] at takes
          refine ⟨rfl, ?_, ⟨_, _, _, rfl⟩, ?_, subscription, ?_⟩
          · rw [received, ← numbered]
            exact running.read.ends takes
          · exact List.forall_mem_cons.mpr ⟨⟨datagram, rfl, fun role => nomatch role⟩, clean⟩
          · rw [← subscription, subscribed]
            rfl

/-- Where the world answers what a pass hears, the pass hears it. -/
theorem hears {socket : S} {polled heard : List (Call S)} {ready : Ready} {time : Option Duration}
    (running : DumpRunning start request state older)
    (subscribed : start.notification = some socket)
    (polls : NetlinkSource.Polled request socket polled (.ok ready))
    (sound : ready.notificationFailed = false) (intact : ready.dumpFailed = false)
    (hears : NetlinkSource.Heard start.world.platform start.origin socket ready.notification heard
      time)
    (answers : start.world.Answers (heard ++ polled ++ older)) :
    NetlinkSource.dumpPass request state =
      if ready.dump then
        NetlinkSource.takeDump request { state with
          source := state.source.extend (heard ++ polled)
          events := state.events.note time }
      else
        .ok { state with
          source := state.source.extend (heard ++ polled)
          events := state.events.note time } := by
  have world : state.source.world = start.world.extend older :=
    congrArg NetlinkSource.world running.source
  refine NetlinkSource.dumpPass_heard (running.subscription.trans subscribed) polls sound intact
    ?_ ?_
  · rwa [running.platform, running.origin]
  · rw [world]
    exact (World.answers_append.mp answers).2

/-- Where the world answers a pass with a datagram that the dump takes, the pass takes it. -/
theorem takes {socket : S} {polled heard : List (Call S)} {ready : Ready} {time : Option Duration}
    {datagram : Datagram} {finished : Bool} {left : List ObservedLink}
    (running : DumpRunning start request state older)
    (subscribed : start.notification = some socket)
    (polls : NetlinkSource.Polled request socket polled (.ok ready))
    (sound : ready.notificationFailed = false) (intact : ready.dumpFailed = false)
    (hears : NetlinkSource.Heard start.world.platform start.origin socket ready.notification heard
      time) (dumped : ready.dump = true)
    (answers : start.world.Answers
      (.received .dump request.socket (.ok datagram) :: (heard ++ polled ++ older)))
    (takes : DumpTakes start.world.platform request.sequence state.links
      (receivedBytes (Calls.dumpAnswers older)) datagram finished left) :
    NetlinkSource.dumpPass request state =
      if finished then
        .error (.ok ⟨request.attempt, left, state.events.note time⟩, state.source.extend
          (.received .dump request.socket (.ok datagram) :: (heard ++ polled)))
      else
        .ok {
          source := state.source.extend
            (.received .dump request.socket (.ok datagram) :: (heard ++ polled))
          links := left
          total := state.total + datagram.bytes.length
          events := state.events.note time } := by
  obtain ⟨receives, first⟩ := answers
  have pass := running.hears subscribed polls sound intact hears first
  have world : state.source.world = start.world.extend older :=
    congrArg NetlinkSource.world running.source
  rw [← running.platform, ← running.total] at takes
  have received := @NetlinkSource.takeDump_takes S request { state with
    source := state.source.extend (heard ++ polled)
    events := state.events.note time } datagram finished left takes (by
      refine ⟨?_, trivial⟩
      change state.source.world.behaviour.Answers (heard ++ polled ++ state.source.world.log) _
      rw [world]
      change start.world.behaviour.Answers (heard ++ polled ++ (older ++ start.world.log)) _
      rwa [← List.append_assoc])
  rw [pass, dumped, if_pos rfl, received, NetlinkSource.extend_extend]
  rfl

/-- Where the world answers a pass of a dump that stays partial, the pass goes on. -/
theorem delivers {socket : S} {polled heard taken : List (Call S)} {ready : Ready}
    {time : Option Duration} {links : List ObservedLink}
    (running : DumpRunning start request state older)
    (subscribed : start.notification = some socket)
    (polls : NetlinkSource.Polled request socket polled (.ok ready))
    (sound : ready.notificationFailed = false) (intact : ready.dumpFailed = false)
    (hears : NetlinkSource.Heard start.world.platform start.origin socket ready.notification heard
      time)
    (takes : DumpReceipt request.socket ready.dump taken)
    (answers : start.world.Answers (taken ++ (heard ++ polled) ++ older))
    (read : PartialDump start.world.platform request.sequence
      (Calls.dumpAnswers (taken ++ (heard ++ polled) ++ older)) links) :
    ∃ next, NetlinkSource.dumpPass request state = .ok next ∧
      next.events = state.events.note time ∧
        DumpRunning start request next (taken ++ (heard ++ polled) ++ older) := by
  have heard' := hears
  rw [← running.platform, ← running.origin] at heard'
  have passing := @NetlinkSource.Passing.heard S request state socket polled heard taken ready time
  have subscribed' := running.subscription.trans subscribed
  rw [List.append_assoc] at answers read
  generalize dumped : ready.dump = some at takes
  cases takes with
  | nothing =>
      have pass := running.hears subscribed polls sound intact hears answers
      rw [dumped, if_neg Bool.false_ne_true] at pass
      refine ⟨_, pass, rfl, running.pass (passing subscribed' polls sound intact heard' ?_)⟩
      exact dumped ▸ .nothing
  | received datagram =>
      rw [Calls.dumpAnswers_append, hears.aside polls] at read
      obtain ⟨_, same, takes⟩ := running.read.next_of_partial read
      cases same
      have pass := running.takes subscribed polls sound intact hears dumped answers takes
      rw [← running.platform, ← running.total] at takes
      refine ⟨_, pass, rfl, running.pass (passing subscribed' polls sound intact heard' ?_)⟩
      exact dumped ▸ .continued rfl takes

end DumpRunning

/-- The course of an inventory tells what it has made of its calls. -/
theorem Course.returns {start : NetlinkSource S} {attempt : Attempt} {calls : List (Call S)}
    {returned : Returned S} (course : Course start attempt calls returned) :
    ∃ deadline, DumpReturned start attempt deadline returned calls := by
  cases course with
  | failed begun =>
      refine ⟨0, ?_⟩
      cases begun with
      | unopened =>
          refine ⟨rfl, rfl, (fun _ first => nomatch first), fun _ _ => .unopened,
            (Calls.Summarised.empty _ _).other id, ?_⟩
          refine ⟨List.forall_mem_singleton.mpr id, rfl, fun clean => ?_⟩
          obtain ⟨_, same⟩ := clean _ List.mem_cons_self
          cases same
      | unsent made =>
          subst made
          refine ⟨rfl, rfl, (fun _ first => nomatch first), fun _ _ => .unsent,
            ((Calls.Summarised.empty _ _).other id).other id, ?_⟩
          refine ⟨List.forall_mem_cons.mpr ⟨id, List.forall_mem_singleton.mpr id⟩, rfl,
            fun clean => ?_⟩
          cases clean _ List.mem_cons_self
  | @left request state newer older _ running tried numbered passing =>
      have grown := running.extend newer
      refine ⟨request.deadline, ?_, ?_, ?_, ?_, running.summarises passing,
        tried ▸ running.concludes numbered passing⟩
      · rcases passing.leaves with after | after <;>
          exact (congrArg NetlinkSource.world after).trans (congrArg NetlinkSource.world grown)
      · rcases passing.leaves with after | after <;>
          exact (congrArg NetlinkSource.origin after).trans running.origin
      · intro reading first
        obtain ⟨begun, begins, fixed⟩ := running.delivery.begins
        cases (Calls.firstInstant_append begins newer).symm.trans first
        exact fixed
      · intro notification subscribed
        obtain ⟨loop, rfl, between⟩ := running.delivery.between subscribed
        have newly := passing.between (running.subscription.trans subscribed)
        rw [← List.append_assoc, numbered]
        exact .requested (List.forall_mem_append.mpr ⟨newly, between⟩)

namespace NetlinkSource

variable {start : NetlinkSource S} {request : DumpRequest S} {state : DumpState S}
  {older calls : List (Call S)} {attempt : Attempt} {returned : Returned S}

/-- The statements before the loop begin a delivery. -/
theorem Begun.running (begun : Begun start attempt calls (.ok (request, state))) :
    request.attempt = attempt ∧ request.sequence = start.nextSequence.1 ∧
      DumpRunning start request state calls := by
  cases begun with
  | requested made =>
      subst made
      exact ⟨rfl, rfl, rfl, .begun rfl, PartialDump.empty, rfl⟩

/-- What holds while the loop runs holds after any number of passes, and a pass that leaves the
loop ends a course. -/
theorem passes_running (tried : request.attempt = attempt)
    (numbered : request.sequence = start.nextSequence.1)
    (running : DumpRunning start request state older) (count : Nat) :
    match Loop.passes (dumpPass request) count state with
    | .ok next => ∃ calls, DumpRunning start request next calls
    | .error returned => ∃ calls, Course start attempt calls returned := by
  have goes (state next : DumpState S) (running : ∃ calls, DumpRunning start request state calls)
      (moved : dumpPass request state = .ok next) :
      ∃ calls, DumpRunning start request next calls := by
    obtain ⟨calls, running⟩ := running
    obtain ⟨_, _, passing⟩ := dumpPass_passing request state
    rw [moved] at passing
    exact ⟨_, running.pass passing⟩
  have leaves (state : DumpState S) (returned : Returned S)
      (running : ∃ calls, DumpRunning start request state calls)
      (moved : dumpPass request state = .error returned) :
      ∃ calls, Course start attempt calls returned := by
    obtain ⟨calls, running⟩ := running
    obtain ⟨_, _, passing⟩ := dumpPass_passing request state
    rw [moved] at passing
    exact ⟨_, .left running tried numbered passing⟩
  have kept := Loop.passes_invariant (fun state => ∃ calls, DumpRunning start request state calls)
    (fun returned => ∃ calls, Course start attempt calls returned) goes leaves count
    ⟨older, running⟩
  cases outcome : Loop.passes (dumpPass request) count state <;> rwa [outcome] at kept

/-- An inventory that returns has run a course. -/
theorem inventory_course (result : start.inventory attempt = some returned) :
    ∃ calls, Course start attempt calls returned := by
  obtain ⟨calls, _, begun⟩ := beginDump_begun attempt start
  unfold inventory at result
  cases first : beginDump attempt start with
  | error early =>
      simp only [first] at result begun
      cases result
      exact ⟨calls, .failed begun⟩
  | ok begins =>
      obtain ⟨request, state⟩ := begins
      simp only [first] at result begun
      obtain ⟨tried, numbered, running⟩ := begun.running
      obtain ⟨count, left⟩ := Loop.run_eq_some_iff.mp result
      have passed := passes_running tried numbered running count
      rwa [left] at passed

/-- A delivery that the world answers, of a dump that stays partial, is received. -/
theorem delivered_running {events : EventBatch} {links : List ObservedLink}
    (delivery : DumpDelivery start request calls events)
    (numbered : request.sequence = start.nextSequence.1) (answers : start.world.Answers calls)
    (read : PartialDump start.world.platform request.sequence (Calls.dumpAnswers calls) links) :
    ∃ begun count state, beginDump request.attempt start = .ok (request, begun) ∧
      Loop.passes (dumpPass request) count begun = .ok state ∧ state.events = events ∧
        DumpRunning start request state calls := by
  induction delivery generalizing links with
  | @begun reading fixed =>
      have requested := @beginDump_requested S request.attempt start request.socket reading _ rfl
        (numbered ▸ answers)
      rw [← numbered, ← fixed] at requested
      exact ⟨_, 0, _, requested, rfl, rfl, rfl, .begun fixed, PartialDump.empty, rfl⟩
  | @pass _ older polled heard taken _ ready _ earlier subscribed polls sound intact hears takes
      ih =>
      have whole := hears.after polls taken older
      have front : ∃ links, PartialDump start.world.platform request.sequence
          (Calls.dumpAnswers older) links := by
        rw [whole] at read
        generalize ready.dump = some at takes
        cases takes with
        | nothing => exact ⟨links, by rwa [Calls.dumpAnswers, List.append_nil] at read⟩
        | received => exact read.front
      obtain ⟨links', front⟩ := front
      obtain ⟨begun, count, state, begins, passed, same, running⟩ :=
        ih (World.answers_append.mp answers).1 front
      obtain ⟨next, moved, noted, running⟩ := running.delivers subscribed polls sound intact hears
        takes answers read
      refine ⟨begun, count + 1, next, begins, ?_, same ▸ noted, running⟩
      rw [Loop.passes_append passed, Loop.passes, moved]
      rfl

/-- A delivery that the world answers and whose last call completes a dump is the course of the
inventory, which returns the links of the dump. -/
theorem inventory_delivered {events : EventBatch} {links : List ObservedLink} {last : Datagram}
    {older : List (Call S)}
    (delivery : DumpDelivery start request
      (.received .dump request.socket (.ok last) :: older) events)
    (numbered : request.sequence = start.nextSequence.1)
    (answers : start.world.Answers (.received .dump request.socket (.ok last) :: older))
    (complete : CompleteDump start.world.platform request.sequence
      (Calls.dumpAnswers (.received .dump request.socket (.ok last) :: older)) links) :
    start.inventory request.attempt = some (.ok ⟨request.attempt, links, events⟩,
      { start.extend (.received .dump request.socket (.ok last) :: older) with
        sequence := request.sequence }) := by
  generalize made : Call.received .dump request.socket (.ok last) :: older = calls at *
  cases delivery with
  | begun => cases made
  | @pass _ older' polled heard taken _ ready _ earlier subscribed polls sound intact hears takes =>
      generalize dumped : ready.dump = some at takes
      cases takes with
      | nothing =>
          -- without a datagram of the dump the last call is another
          generalize ready.notification = some at hears
          cases hears <;> cases polls <;> cases made
      | received datagram =>
          cases made
          change CompleteDump _ _ (Calls.dumpAnswers (heard ++ polled ++ older') ++ [.ok last]) _
            at complete
          rw [hears.aside polls] at complete
          obtain ⟨_, front⟩ := PartialDump.of_complete complete
          obtain ⟨begun, count, state, begins, passed, noted, running⟩ :=
            delivered_running earlier numbered (World.answers_append.mp answers.2).1 front
          obtain ⟨_, same, takes⟩ := running.read.last_of_complete complete
          cases same
          have pass := running.takes subscribed polls sound intact hears dumped answers takes
          rw [if_pos rfl, running.extend, noted] at pass
          unfold inventory
          rw [begins]
          refine Loop.run_eq_some_iff.mpr ⟨count + 1, ?_⟩
          rw [Loop.passes_append passed, Loop.passes, pass]
          rfl

/-- The whole call meets the specification. -/
theorem inventory_spec (result : start.inventory attempt = some returned) :
    ∃ deadline calls, DumpReturned start attempt deadline returned calls := by
  obtain ⟨calls, course⟩ := inventory_course result
  obtain ⟨deadline, returned⟩ := course.returns
  exact ⟨deadline, calls, returned⟩

end NetlinkSource

end
end IfStack
