import IfStack.Foundation.Action
import IfStack.Session.Frame

/-! # What receiving takes

Receiving takes bytes off the front of the stream, one frame when it succeeds, and
does nothing but listen. The rules compose over the calls of `receive`.
-/

namespace IfStack

open Foundation

/-- Reads alone. -/
def SocketCall.Reads : SocketCall → Prop
  | .read .. => True
  | _ => False

/-- The calls of a loop under a deadline. -/
def SocketCall.Polls : SocketCall → Prop
  | .read .. | .instant _ | .readTimeoutSet .. => True
  | _ => False

/-- The calls before a header is known. -/
def SocketCall.Awaits : SocketCall → Prop
  | .read .. | .instant _ | .readTimeoutSet .. | .readTimeoutGot _ => True
  | _ => False

/-- The calls of receiving: it neither writes nor reports. -/
def SocketCall.Listens : SocketCall → Prop
  | .read .. | .instant _ | .readTimeoutSet .. | .readTimeoutGot _ | .resized _ => True
  | _ => False

/-- A read awaits bytes. -/
theorem SocketCall.Reads.awaits {call : SocketCall} (reads : call.Reads) : call.Awaits := by
  cases call <;> trivial

/-- The calls of a deadline await bytes. -/
theorem SocketCall.Polls.awaits {call : SocketCall} (polls : call.Polls) : call.Awaits := by
  cases call <;> trivial

/-- What awaits bytes listens. -/
theorem SocketCall.Awaits.listens {call : SocketCall} (awaits : call.Awaits) :
    call.Listens := by
  cases call <;> trivial

namespace UnixStream

/-- A loop of reads fills its buffer from the stream, or fails with a part of it. Its
calls are of the kinds allowed. -/
def Fills (polls : SocketCall → Prop) (count : Nat) (stream : UnixStream) :
    EStateM.Result Stop UnixStream (List UInt8) → Prop
  | .ok bytes after => bytes.length = count ∧
      ∃ calls, stream.Advances after bytes calls ∧ ∀ call ∈ calls, polls call
  | .error stop after => (∃ error, stop = .failed error) ∧
      ∃ bytes calls, bytes.length < count ∧ stream.Advances after bytes calls ∧
        ∀ call ∈ calls, polls call

/-- What is filled after some bytes are taken is filled from the start. -/
theorem Fills.after {polls : SocketCall → Prop} {count : Nat} {stream middle : UnixStream}
    {bytes : List UInt8} {calls : List SocketCall}
    {result : EStateM.Result Stop UnixStream (List UInt8)}
    (advances : stream.Advances middle bytes calls) (quiet : ∀ call ∈ calls, polls call)
    (within : bytes.length ≤ count) (fills : Fills polls (count - bytes.length) middle result) :
    Fills polls count stream (match result with
      | .ok rest final => .ok (bytes ++ rest) final
      | .error stop final => .error stop final) := by
  cases result with
  | ok rest final =>
      obtain ⟨length, later, further, quiet'⟩ := fills
      refine ⟨?_, later ++ calls, advances.trans further, ?_⟩
      · rw [List.length_append, length]
        omega
      · exact List.forall_mem_append.mpr ⟨quiet', quiet⟩
  | error stop final =>
      obtain ⟨failed, rest, later, short, further, quiet'⟩ := fills
      refine ⟨failed, bytes ++ rest, later ++ calls, ?_, advances.trans further, ?_⟩
      · rw [List.length_append]
        omega
      · exact List.forall_mem_append.mpr ⟨quiet', quiet⟩

/-- An interrupted read takes nothing. -/
theorem Fills.retry {polls : SocketCall → Prop} {count : Nat} {stream middle : UnixStream}
    {calls : List SocketCall} {result : EStateM.Result Stop UnixStream (List UInt8)}
    (advances : stream.Advances middle [] calls) (quiet : ∀ call ∈ calls, polls call)
    (fills : Fills polls count middle result) : Fills polls count stream result := by
  have filled := Fills.after advances quiet (Nat.zero_le count) fills
  cases result <;> exact filled

/-- `read_exact` fills its buffer or fails. -/
theorem readExact_fills (count : Nat) (stream : UnixStream) :
    Fills SocketCall.Reads count stream (readExact count stream) := by
  fun_induction readExact count stream with
  | case1 stream => exact ⟨rfl, [], .refl stream, fun _ member => absurd member List.not_mem_nil⟩
  | case2 count stream asked after got =>
      have advances := (read_advances got).1
      exact ⟨⟨_, rfl⟩, [], _, Nat.pos_of_ne_zero asked, advances,
        List.forall_mem_singleton.mpr trivial⟩
  | case3 count stream asked byte bytes after got rest final filled ih =>
      obtain ⟨advances, within, _⟩ := read_advances got
      rw [filled] at ih
      exact Fills.after advances (List.forall_mem_singleton.mpr trivial) within ih
  | case4 count stream asked byte bytes after got stop final failed ih =>
      obtain ⟨advances, within, _⟩ := read_advances got
      rw [failed] at ih
      exact Fills.after advances (List.forall_mem_singleton.mpr trivial) within ih
  | case5 count stream asked error after got interrupted ih =>
      exact Fills.retry (read_advances got).1 (List.forall_mem_singleton.mpr trivial) ih
  | case6 count stream asked error after got other =>
      have advances := (read_advances got).1
      exact ⟨⟨_, rfl⟩, [], _, Nat.pos_of_ne_zero asked, advances,
        List.forall_mem_singleton.mpr trivial⟩

/-- A pass of the loop under a deadline, up to its read. -/
theorem timed_advances {stream timed : UnixStream} {remaining : Duration}
    (set : stream.instant.2.setReadTimeout (some remaining) = (.ok (), timed)) :
    stream.Advances timed []
      [.readTimeoutSet (some remaining) (.ok ()), .instant stream.instant.1] :=
  (instant_advances stream).trans (setReadTimeout_advances set)

/-- A pass of the loop under a deadline, with its read. -/
theorem pass_advances {stream timed after : UnixStream} {remaining : Duration} {requested : Nat}
    {answer : Except Error (List UInt8)}
    (set : stream.instant.2.setReadTimeout (some remaining) = (.ok (), timed))
    (got : timed.read requested = (answer, after)) :
    ∃ calls, stream.Advances after (taken answer) calls ∧ ∀ call ∈ calls, call.Polls := by
  have advances := (timed_advances set).trans (read_advances got).1
  refine ⟨_, advances, ?_⟩
  simp [SocketCall.Polls]

/-- `read_before` fills its buffer or fails. -/
theorem readBefore_fills (deadline count : Nat) (stream : UnixStream) :
    Fills SocketCall.Polls count stream (readBefore deadline count stream) := by
  fun_induction readBefore deadline count stream with
  | case1 stream => exact ⟨rfl, [], .refl stream, fun _ member => absurd member List.not_mem_nil⟩
  | case2 count stream asked clocked remaining passed =>
      exact ⟨⟨_, rfl⟩, [], _, Nat.pos_of_ne_zero asked, instant_advances stream,
        List.forall_mem_singleton.mpr trivial⟩
  | case3 count stream asked clocked remaining left error refused set =>
      have advances := (instant_advances stream).trans (setReadTimeout_advances set)
      refine ⟨⟨_, rfl⟩, [], _, Nat.pos_of_ne_zero asked, advances, ?_⟩
      simp [SocketCall.Polls]
  | case4 count stream asked clocked remaining left timed set after got =>
      obtain ⟨calls, advances, quiet⟩ := pass_advances set got
      exact ⟨⟨_, rfl⟩, [], calls, Nat.pos_of_ne_zero asked, advances, quiet⟩
  | case5 count stream asked clocked remaining left timed set byte bytes after got rest final
      filled ih =>
      obtain ⟨calls, advances, quiet⟩ := pass_advances set got
      rw [filled] at ih
      exact Fills.after advances quiet (read_advances got).2.1 ih
  | case6 count stream asked clocked remaining left timed set byte bytes after got stop final
      failed ih =>
      obtain ⟨calls, advances, quiet⟩ := pass_advances set got
      rw [failed] at ih
      exact Fills.after advances quiet (read_advances got).2.1 ih
  | case7 count stream asked clocked remaining left timed set error after got interrupted ih =>
      obtain ⟨calls, advances, quiet⟩ := pass_advances set got
      exact Fills.retry advances quiet ih
  | case8 count stream asked clocked remaining left timed set error after got _ timeout =>
      obtain ⟨calls, advances, quiet⟩ := pass_advances set got
      exact ⟨⟨_, rfl⟩, [], calls, Nat.pos_of_ne_zero asked, advances, quiet⟩
  | case9 count stream asked clocked remaining left timed set error after got _ _ =>
      obtain ⟨calls, advances, quiet⟩ := pass_advances set got
      exact ⟨⟨_, rfl⟩, [], calls, Nat.pos_of_ne_zero asked, advances, quiet⟩

/-- An action takes bytes off the front of the stream by calls of the kinds allowed.
When it succeeds, its value has a property. -/
def Takes {α : Type} (allowed : SocketCall → Prop)
    (gives : List UInt8 → α → UnixStream → Prop) (stream : UnixStream) :
    EStateM.Result Stop UnixStream α → Prop
  | .ok value after => ∃ bytes calls, stream.Advances after bytes calls ∧
      (∀ call ∈ calls, allowed call) ∧ gives bytes value after
  | .error stop after => (∃ error, stop = .failed error) ∧
      ∃ bytes calls, stream.Advances after bytes calls ∧ ∀ call ∈ calls, allowed call

namespace Takes

variable {α β : Type} {allowed : SocketCall → Prop}
  {gives : List UInt8 → α → UnixStream → Prop}
  {gives' : List UInt8 → β → UnixStream → Prop} {stream : UnixStream}

/-- Two actions in sequence take what they take one after the other. -/
theorem bind {action : EStateM Stop UnixStream α} {next : α → EStateM Stop UnixStream β}
    (first : Takes allowed gives stream (action stream))
    (second : ∀ bytes value middle, gives bytes value middle →
      Takes allowed (fun bytes' value' after => gives' (bytes ++ bytes') value' after) middle
        (next value middle)) :
    Takes allowed gives' stream ((action >>= next) stream) := by
  cases moved : action stream with
  | error stop after =>
      rw [bind_error moved]
      rw [moved] at first
      exact first
  | ok value middle =>
      rw [bind_ok moved]
      rw [moved] at first
      obtain ⟨bytes, calls, advances, quiet, given⟩ := first
      have rest := second bytes value middle given
      cases moved' : next value middle with
      | error stop after =>
          rw [moved'] at rest
          obtain ⟨failed, bytes', calls', advances', quiet'⟩ := rest
          exact ⟨failed, _, _, advances.trans advances',
            List.forall_mem_append.mpr ⟨quiet', quiet⟩⟩
      | ok value' after =>
          rw [moved'] at rest
          obtain ⟨bytes', calls', advances', quiet', given'⟩ := rest
          exact ⟨_, _, advances.trans advances',
            List.forall_mem_append.mpr ⟨quiet', quiet⟩, given'⟩

/-- An action that makes one call and takes nothing. -/
theorem call {value : α} {after : UnixStream} {call : SocketCall}
    (advances : stream.Advances after [] [call]) (quiet : allowed call)
    (given : gives [] value after) : Takes allowed gives stream (.ok value after) :=
  ⟨[], [call], advances, List.forall_mem_singleton.mpr quiet, given⟩

/-- An action without a call. -/
theorem pure {value : α} (given : gives [] value stream) :
    Takes allowed gives stream (.ok value stream) :=
  ⟨[], [], .refl stream, fun _ member => absurd member List.not_mem_nil, given⟩

/-- An error takes nothing. -/
theorem throw {error : Error} : Takes allowed gives stream (.error (.failed error) stream) :=
  ⟨⟨error, rfl⟩, [], [], .refl stream, fun _ member => absurd member List.not_mem_nil⟩

/-- The calls that are allowed may be more. -/
theorem mono {allowed' : SocketCall → Prop} {result : EStateM.Result Stop UnixStream α}
    (takes : Takes allowed gives stream result) (weaker : ∀ call, allowed call → allowed' call) :
    Takes allowed' gives stream result := by
  cases result with
  | ok value after =>
      obtain ⟨bytes, calls, advances, quiet, given⟩ := takes
      exact ⟨bytes, calls, advances, fun call member => weaker call (quiet call member), given⟩
  | error stop after =>
      obtain ⟨failed, bytes, calls, advances, quiet⟩ := takes
      exact ⟨failed, bytes, calls, advances, fun call member => weaker call (quiet call member)⟩

end Takes

/-- Filling a buffer takes its bytes. -/
theorem Fills.takes {allowed : SocketCall → Prop} {count : Nat} {stream : UnixStream}
    {result : EStateM.Result Stop UnixStream (List UInt8)}
    (fills : Fills allowed count stream result) :
    Takes allowed (fun bytes value _ => value = bytes ∧ bytes.length = count) stream result := by
  cases result with
  | ok value after =>
      obtain ⟨length, calls, advances, quiet⟩ := fills
      exact ⟨value, calls, advances, quiet, rfl, length⟩
  | error stop after =>
      obtain ⟨failed, bytes, calls, _, advances, quiet⟩ := fills
      exact ⟨failed, bytes, calls, advances, quiet⟩

/-- Filling a buffer does not touch the timeout. -/
theorem readExact_readTimeout {count : Nat} {stream after : UnixStream} {bytes : List UInt8}
    (filled : readExact count stream = .ok bytes after) :
    after.readTimeout = stream.readTimeout := by
  fun_induction readExact count stream generalizing bytes with
  | case1 stream => cases filled; rfl
  | case2 | case4 | case6 => cases filled
  | case3 count stream asked byte bytes middle got rest final more ih =>
      cases filled
      exact (ih more).trans (read_advances got).2.2
  | case5 count stream asked error middle got interrupted ih =>
      exact (ih filled).trans (read_advances got).2.2

/-- `read_exact` takes the bytes it returns, and leaves the read timeout. -/
theorem readExact_takes (count : Nat) (stream : UnixStream) :
    Takes SocketCall.Reads (fun bytes value after => (value = bytes ∧ bytes.length = count) ∧
        after.readTimeout = stream.readTimeout) stream (readExact count stream) := by
  have takes := (readExact_fills count stream).takes
  cases result : readExact count stream with
  | error stop after =>
      rw [result] at takes
      exact takes
  | ok value after =>
      rw [result] at takes
      obtain ⟨bytes, calls, advances, quiet, given⟩ := takes
      exact ⟨bytes, calls, advances, quiet, given, readExact_readTimeout result⟩

/-- `read_before` takes the bytes it returns. -/
theorem readBefore_takes (deadline count : Nat) (stream : UnixStream) :
    Takes SocketCall.Polls (fun bytes value _ => value = bytes ∧ bytes.length = count) stream
      (readBefore deadline count stream) :=
  (readBefore_fills deadline count stream).takes

/-- Looking at the read timeout takes no bytes. -/
theorem getReadTimeout_takes (stream : UnixStream) :
    Takes SocketCall.Awaits (fun bytes timeout _ => bytes = [] ∧ timeout = stream.readTimeout)
      stream (attempt getReadTimeout stream) := by
  unfold attempt
  split <;> rename_i found
  · obtain ⟨advances, known⟩ := getReadTimeout_advances found
    exact Takes.call advances trivial ⟨rfl, known _ rfl⟩
  · exact ⟨⟨_, rfl⟩, [], _, (getReadTimeout_advances found).1,
      List.forall_mem_singleton.mpr trivial⟩

/-- Setting the read timeout takes no bytes. -/
theorem setReadTimeout_takes (timeout : Option Duration) (stream : UnixStream) :
    Takes SocketCall.Awaits
      (fun bytes (_ : Unit) after => bytes = [] ∧ after.readTimeout = timeout) stream
      (attempt (setReadTimeout timeout) stream) := by
  unfold attempt
  split <;> rename_i set
  · exact Takes.call (setReadTimeout_advances set) trivial ⟨rfl, setReadTimeout_ok set⟩
  · exact ⟨⟨_, rfl⟩, [], _, setReadTimeout_advances set, List.forall_mem_singleton.mpr trivial⟩

/-- Raising an error takes no bytes. -/
theorem raise_takes {α : Type} {allowed : SocketCall → Prop} (result : Except Error α)
    (stream : UnixStream) :
    Takes allowed (fun bytes value after => bytes = [] ∧ result = .ok value ∧ after = stream)
      stream (raise result stream) := by
  cases result with
  | ok value => exact Takes.pure ⟨rfl, rfl, rfl⟩
  | error error => exact Takes.throw

/-- Reading the clock takes no bytes. -/
theorem readClock_takes (stream : UnixStream) :
    Takes SocketCall.Awaits
      (fun bytes _ after => bytes = [] ∧ after.readTimeout = stream.readTimeout) stream
      (readClock stream) :=
  Takes.call (instant_advances stream) trivial ⟨rfl, rfl⟩

/-- Making room takes no bytes. -/
theorem resize_takes (length : Nat) (stream : UnixStream) :
    Takes SocketCall.Listens (fun bytes _ _ => bytes = []) stream (resize length stream) :=
  Takes.call ⟨rfl, List.suffix_rfl, List.suffix_rfl, rfl⟩ trivial rfl

/-- The first half of receiving takes 20 bytes. -/
theorem receiveFront_takes (frameBudget : Duration) (stream : UnixStream) :
    Takes SocketCall.Awaits (fun bytes front _ => front.2.2 = bytes ∧ bytes.length = 20 ∧
        front.2.1 = stream.readTimeout) stream (receiveFront frameBudget stream) := by
  unfold receiveFront
  apply ((readExact_takes 1 stream).mono fun _ => SocketCall.Reads.awaits).bind
  intro _ first opened given
  obtain ⟨⟨rfl, length⟩, kept⟩ := given
  apply (getReadTimeout_takes opened).bind
  intro _ idleTimeout known given
  obtain ⟨rfl, same⟩ := given
  apply (readClock_takes known).bind
  intro _ reading timed given
  obtain ⟨rfl, _⟩ := given
  apply ((readBefore_takes _ 19 timed).mono fun _ => SocketCall.Polls.awaits).bind
  intro _ rest full given
  obtain ⟨rfl, length'⟩ := given
  apply Takes.pure
  simp only [List.nil_append, List.append_nil]
  refine ⟨trivial, ?_, same.trans kept⟩
  rw [List.length_append, length, length']

end UnixStream

open UnixStream

/-- The checks of a header. -/
structure Header.Sound (header : Header) : Prop where
  version : header.version = 1
  payload : header.payloadLength ≤ maxPayload
  aligned : header.payloadLength % 4 = 0

/-- The checks as `receive` makes them. -/
theorem Header.sound_iff (header : Header) : header.Sound ↔ ¬ (header.version ≠ 1 ∨
    maxPayload < header.payloadLength ∨ header.payloadLength % 4 ≠ 0) := by
  rw [not_or, not_or, not_not, not_not, UInt32.not_lt]
  constructor
  · intro sound
    exact ⟨sound.version, sound.payload, sound.aligned⟩
  · intro ⟨version, payload, aligned⟩
    exact ⟨version, payload, aligned⟩

/-- A frame: a header that decodes and is sound, and a payload of its length. -/
structure WellFramed {ID : Type} (codec : Codec ID) (header : Header) (bytes : List UInt8) :
    Prop where
  length : bytes.length = 20 + header.payloadLength.toNat
  decodes : codec.headerFromBytes (bytes.take 20) = .ok header
  sound : header.Sound

variable {ID : Type} {codec : Codec ID}

/-- The header of a frame at the front of a stream. -/
theorem WellFramed.front {header : Header} {bytes rest : List UInt8}
    (framed : WellFramed codec header bytes) :
    codec.headerFromBytes ((bytes ++ rest).take 20) = .ok header := by
  have length := framed.length
  rw [List.take_append_of_le_length (by omega)]
  exact framed.decodes

/-- A stream has one frame at its front. -/
theorem WellFramed.unique {header header' : Header} {bytes bytes' rest rest' : List UInt8}
    (first : WellFramed codec header bytes) (second : WellFramed codec header' bytes')
    (same : bytes ++ rest = bytes' ++ rest') :
    header = header' ∧ bytes = bytes' ∧ rest = rest' := by
  have decoded : header = header' := by
    have decodes := @WellFramed.front _ _ _ _ rest first
    rw [same, second.front] at decodes
    exact (Except.ok.inj decodes).symm
  subst decoded
  exact ⟨rfl, List.append_inj same (first.length.trans second.length.symm)⟩

variable (codec)

/-- Behind 20 bytes of header, receiving takes a payload and restores the timeout. -/
theorem receivePayload_takes (deadline : Nat) (idleTimeout : Option Duration)
    {front : List UInt8} (length : front.length = 20) (stream : UnixStream) :
    Takes SocketCall.Listens (fun bytes frame after => frame.2 = front ++ bytes ∧
        WellFramed codec frame.1 (front ++ bytes) ∧ after.readTimeout = idleTimeout) stream
      (receivePayload codec deadline idleTimeout front stream) := by
  unfold receivePayload
  apply (raise_takes (codec.headerFromBytes front) stream).bind
  intro _ header same given
  obtain ⟨rfl, decodes, _⟩ := given
  split
  · exact Takes.throw
  · rename_i sound
    apply (resize_takes _ same).bind
    intro _ _ resized taken
    subst taken
    apply ((readBefore_takes deadline _ resized).mono fun _ polls => polls.awaits.listens).bind
    intro _ payload full given
    obtain ⟨rfl, length'⟩ := given
    apply ((setReadTimeout_takes idleTimeout full).mono fun _ => SocketCall.Awaits.listens).bind
    intro _ _ restored given
    obtain ⟨rfl, kept⟩ := given
    apply Takes.pure
    simp only [List.nil_append, List.append_nil]
    refine ⟨trivial, ⟨?_, ?_, header.sound_iff.mpr sound⟩, kept⟩
    · rw [List.length_append, length, length']
    · rw [← length, List.take_left]
      exact decodes

/-- Receiving takes one frame, restores the timeout and only listens; when it fails it
has taken what it has read. -/
theorem receive_takes (frameBudget : Duration) (stream : UnixStream) :
    Takes SocketCall.Listens (fun bytes frame after => frame.2 = bytes ∧
        WellFramed codec frame.1 bytes ∧ after.readTimeout = stream.readTimeout) stream
      (receive codec frameBudget stream) := by
  unfold receive
  apply ((receiveFront_takes frameBudget stream).mono fun _ => SocketCall.Awaits.listens).bind
  intro _ front headed given
  obtain ⟨deadline, idleTimeout, front⟩ := front
  obtain ⟨rfl, length, rfl⟩ := given
  exact receivePayload_takes codec deadline stream.readTimeout length headed

/-- A frame that is received. -/
theorem receive_ok {frameBudget : Duration} {stream after : UnixStream} {header : Header}
    {bytes : List UInt8} (received : receive codec frameBudget stream = .ok (header, bytes) after) :
    WellFramed codec header bytes ∧ after.readTimeout = stream.readTimeout ∧
      ∃ calls, stream.Advances after bytes calls ∧ ∀ call ∈ calls, call.Listens := by
  have takes := receive_takes codec frameBudget stream
  rw [received] at takes
  obtain ⟨_, calls, advances, listens, rfl, framed, kept⟩ := takes
  exact ⟨framed, kept, calls, advances, listens⟩

/-- Receiving never panics. -/
theorem receive_error {frameBudget : Duration} {stream after : UnixStream} {stop : Stop}
    (failed : receive codec frameBudget stream = .error stop after) :
    (∃ error, stop = .failed error) ∧
      ∃ bytes calls, stream.Advances after bytes calls ∧ ∀ call ∈ calls, call.Listens := by
  have takes := receive_takes codec frameBudget stream
  rw [failed] at takes
  exact takes

end IfStack
