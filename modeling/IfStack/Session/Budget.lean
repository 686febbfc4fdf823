import IfStack.Session.Reassembly
import IfStack.Session.Run
import Mathlib.Data.List.Infix
import Mathlib.Logic.Relation

/-! # The budget of a frame

Before its first byte, receiving waits as long as the caller's timeout lets it. From
then on one deadline bounds the rest of the header and the payload: each read is given
no more time than is left. Where reads keep to that time, none of them returns behind
the deadline; only a reading of the clock can, and it ends the call.
-/

namespace IfStack

open Foundation UnixStream

/-- Calls under a deadline, newest first. A read is made under a timeout that was
computed from a reading of the clock just before, is not zero and does not reach past the
deadline. -/
inductive Polled (deadline : Nat) : List SocketCall → Prop
  | done : Polled deadline []
  | other {call : SocketCall} {calls : List SocketCall} :
      ¬ call.Reads → Polled deadline calls → Polled deadline (call :: calls)
  | turn {reading requested returned : Nat} {remaining : Duration}
      {answer : Except Error (List UInt8)} {calls : List SocketCall} :
      remaining ≠ .zero → reading + remaining.nanos ≤ deadline → Polled deadline calls →
      Polled deadline (.read (some remaining) requested answer returned ::
        .readTimeoutSet (some remaining) (.ok ()) :: .instant reading :: calls)

/-- The newest call is not a read that outlasts its timeout, counted from the reading of
the clock that the timeout was computed from. -/
def Prompt : List SocketCall → Prop
  | .read (some remaining) _ _ returned :: _ :: .instant reading :: _ =>
      returned ≤ reading + remaining.nanos
  | _ => True

instance (calls : List SocketCall) : Decidable (Prompt calls) := by
  unfold Prompt
  split <;> infer_instance

/-- Each read returns within its timeout. -/
def InTime (calls : List SocketCall) : Prop := ∀ rest ∈ calls.tails, Prompt rest

instance (calls : List SocketCall) : Decidable (InTime calls) :=
  inferInstanceAs (Decidable (∀ rest ∈ calls.tails, Prompt rest))

/-- A call on which a frame is given up: the peer has closed or has failed the stream, or
an option of the socket is refused. -/
inductive Breaks : SocketCall → Error → Prop
  | closed {timeout : Option Duration} {requested returned : Nat} {error : Error} :
      Breaks (.read timeout requested (.ok []) returned) error
  | failed {timeout : Option Duration} {requested returned : Nat} {error : Error} :
      error.kind ≠ .interrupted → error.kind ≠ .timedOut → error.kind ≠ .wouldBlock →
      Breaks (.read timeout requested (.error error) returned) error
  | denied {timeout : Option Duration} {error : Error} :
      Breaks (.readTimeoutSet timeout (.error error)) error

/-- How calls under a deadline end: before it, or with a reading of the clock that
finds it passed. -/
inductive EndsUnder {α : Type} (deadline : Nat) (refuses : Error → Prop) :
    List SocketCall → EStateM.Result Stop UnixStream α → Prop
  | done {calls : List SocketCall} {value : α} {after : UnixStream} :
      after.now ≤ deadline → EndsUnder deadline refuses calls (.ok value after)
  | late {calls : List SocketCall} {after : UnixStream} : deadline ≤ after.now →
      EndsUnder deadline refuses (.instant after.now :: calls)
        (.error (.failed frameDeadline) after)
  | timedOut {calls : List SocketCall} {after : UnixStream} : after.now ≤ deadline →
      EndsUnder deadline refuses calls (.error (.failed frameDeadline) after)
  | broken {call : SocketCall} {calls : List SocketCall} {error : Error}
      {after : UnixStream} : after.now ≤ deadline → Breaks call error →
      EndsUnder deadline refuses (call :: calls) (.error (.failed error) after)
  | refused {calls : List SocketCall} {error : Error} {after : UnixStream} :
      after.now ≤ deadline → refuses error →
      EndsUnder deadline refuses calls (.error (.failed error) after)

section

variable {deadline : Nat} {calls later earlier : List SocketCall}

/-- Polls in turn are polls. -/
theorem Polled.append (first : Polled deadline earlier) (second : Polled deadline later) :
    Polled deadline (later ++ earlier) := by
  induction second with
  | done => exact first
  | other quiet _ ih => exact .other quiet ih
  | turn remains within _ ih => exact .turn remains within ih

/-- Calls without a read have no timeout to keep to. -/
theorem Polled.quiet (quiet : ∀ call ∈ calls, ¬ call.Reads) : Polled deadline calls := by
  induction calls with
  | nil => exact .done
  | cons call calls ih =>
      obtain ⟨first, rest⟩ := List.forall_mem_cons.mp quiet
      exact .other first (ih rest)

/-- The later part of prompt calls is prompt. -/
theorem Prompt.of_append (prompt : Prompt (later ++ earlier)) : Prompt later := by
  unfold Prompt
  split
  · exact prompt
  · trivial

/-- The later part of calls in time is in time. -/
theorem InTime.newer (inTime : InTime (later ++ earlier)) : InTime later := by
  intro rest member
  obtain ⟨front, rfl⟩ := (List.mem_tails _ _).mp member
  apply Prompt.of_append
  apply inTime
  rw [List.append_assoc]
  exact (List.mem_tails _ _).mpr (List.suffix_append front _)

/-- The earlier part of calls in time is in time. -/
theorem InTime.older (inTime : InTime (later ++ earlier)) : InTime earlier := by
  intro rest member
  apply inTime
  have suffix := (List.mem_tails _ _).mp member
  exact (List.mem_tails _ _).mpr (suffix.trans (List.suffix_append later earlier))

/-- Where reads keep to their timeouts, none returns behind the deadline. -/
theorem Polled.returned (polled : Polled deadline calls) (inTime : InTime calls)
    {timeout : Option Duration} {requested returned : Nat} {answer : Except Error (List UInt8)}
    (member : .read timeout requested answer returned ∈ calls) : returned ≤ deadline := by
  induction polled with
  | done => cases member
  | @other call calls quiet _ ih =>
      rcases List.mem_cons.mp member with rfl | member
      · exact absurd trivial quiet
      · exact ih (@InTime.older [call] calls inTime) member
  | @turn reading requested' returned' remaining answer' calls _ within _ ih =>
      have prompt := inTime _ ((List.mem_tails _ _).mpr List.suffix_rfl)
      rw [List.mem_cons, List.mem_cons, List.mem_cons] at member
      rcases member with same | same | same | member
      · cases same
        exact le_trans prompt within
      · cases same
      · cases same
      · exact ih (@InTime.older [_, _, _] calls inTime) member

variable {α : Type} {refuses refuses' : Error → Prop} {result : EStateM.Result Stop UnixStream α}

/-- What an ending after some calls is: one after all of them, where more is refused. -/
theorem EndsUnder.mono (ends : EndsUnder deadline refuses later result)
    (weaker : ∀ error, refuses error → refuses' error) :
    EndsUnder deadline refuses' (later ++ earlier) result := by
  cases ends with
  | done early => exact .done early
  | late passed => exact .late passed
  | timedOut early => exact .timedOut early
  | broken early breaks => exact .broken early breaks
  | refused early refused => exact .refused early (weaker _ refused)

end

namespace UnixStream

/-- An action keeps to a deadline: it gives each read no more time than is left, and
where the reads keep to that, it ends by the deadline. -/
def Within {α : Type} (deadline : Nat) (refuses : Error → Prop) (stream : UnixStream)
    (result : EStateM.Result Stop UnixStream α) : Prop :=
  ∃ bytes calls, stream.Advances (reached result) bytes calls ∧ Polled deadline calls ∧
    (stream.now ≤ deadline → InTime calls → EndsUnder deadline refuses calls result)

variable {α β : Type} {deadline : Nat} {refuses refuses' : Error → Prop}
  {stream middle : UnixStream}

/-- An action after some calls. -/
theorem Within.after {bytes : List UInt8} {calls : List SocketCall}
    {result : EStateM.Result Stop UnixStream α} (advances : stream.Advances middle bytes calls)
    (polled : Polled deadline calls)
    (early : stream.now ≤ deadline → InTime calls → middle.now ≤ deadline)
    (within : Within deadline refuses middle result) : Within deadline refuses stream result := by
  obtain ⟨bytes', calls', advances', polled', ends⟩ := within
  refine ⟨_, _, advances.trans advances', polled.append polled', ?_⟩
  intro begun inTime
  exact (ends (early begun inTime.older) inTime.newer).mono fun _ => id

/-- The errors that may end a step may be described more widely. -/
theorem Within.mono {result : EStateM.Result Stop UnixStream α}
    (within : Within deadline refuses stream result)
    (weaker : ∀ error, refuses error → refuses' error) :
    Within deadline refuses' stream result := by
  obtain ⟨bytes, calls, advances, polled, ends⟩ := within
  refine ⟨bytes, calls, advances, polled, ?_⟩
  intro begun inTime
  have weakened := @EndsUnder.mono _ _ [] _ _ _ _ (ends begun inTime) weaker
  rw [List.append_nil] at weakened
  exact weakened

/-- An action without a call that ends with a value. -/
theorem Within.pure {value : α} : Within deadline refuses stream (.ok value stream) :=
  ⟨[], [], .refl stream, .done, fun begun _ => .done begun⟩

/-- An action without a call that refuses what it has. -/
theorem Within.throw {error : Error} (refused : refuses error) :
    Within deadline refuses stream
      (.error (.failed error) stream : EStateM.Result Stop UnixStream α) :=
  ⟨[], [], .refl stream, .done, fun begun _ => .refused begun refused⟩

/-- An action that ends with a value has kept to its deadline. -/
theorem Within.early {value : α} (within : Within deadline refuses stream (.ok value middle)) :
    ∃ bytes calls, stream.Advances middle bytes calls ∧ Polled deadline calls ∧
      (stream.now ≤ deadline → InTime calls → middle.now ≤ deadline) := by
  obtain ⟨bytes, calls, advances, polled, ends⟩ := within
  refine ⟨bytes, calls, advances, polled, ?_⟩
  intro begun inTime
  cases ends begun inTime with
  | done early => exact early

/-- What stops an action stops what it is a part of. -/
theorem Within.error {stop : Stop}
    (within : Within deadline refuses stream
      (.error stop middle : EStateM.Result Stop UnixStream α)) :
    Within deadline refuses stream (.error stop middle : EStateM.Result Stop UnixStream β) := by
  obtain ⟨bytes, calls, advances, polled, ends⟩ := within
  refine ⟨bytes, calls, advances, polled, ?_⟩
  intro begun inTime
  cases ends begun inTime with
  | late passed => exact .late passed
  | timedOut early => exact .timedOut early
  | broken early breaks => exact .broken early breaks
  | refused early refused => exact .refused early refused

/-- Two actions in sequence keep to a deadline that each of them keeps to. -/
theorem Within.bind {action : EStateM Stop UnixStream α}
    {next : α → EStateM Stop UnixStream β}
    (first : Within deadline refuses stream (action stream))
    (second : ∀ value middle, action stream = .ok value middle →
      Within deadline refuses middle (next value middle)) :
    Within deadline refuses stream ((action >>= next) stream) := by
  cases moved : action stream with
  | ok value middle =>
      rw [moved] at first
      obtain ⟨bytes, calls, advances, polled, early⟩ := first.early
      rw [bind_ok moved]
      exact Within.after advances polled early (second value middle moved)
  | error stop after =>
      rw [moved] at first
      rw [bind_error moved]
      exact first.error

/-- The value does not matter to a deadline. -/
theorem Within.value {value : α} {value' : β}
    (within : Within deadline refuses stream (.ok value middle)) :
    Within deadline refuses stream (.ok value' middle) := by
  obtain ⟨bytes, calls, advances, polled, early⟩ := within.early
  exact ⟨bytes, calls, advances, polled, fun begun inTime => .done (early begun inTime)⟩

/-- Setting a timeout takes no time. -/
theorem setReadTimeout_now (timeout : Option Duration) (stream : UnixStream) :
    (stream.setReadTimeout timeout).2.now = stream.now := by
  unfold setReadTimeout answer
  split
  · rfl
  · rcases stream.refusals with _ | ⟨_ | error, refusals⟩ <;> rfl

/-- A pass of the loop under a deadline, with its read, is a turn. -/
theorem pass_turn {stream timed after : UnixStream} {requested : Nat}
    {answer : Except Error (List UInt8)}
    (left : durationSince deadline stream.instant.1 ≠ .zero)
    (set : stream.instant.2.setReadTimeout (some (durationSince deadline stream.instant.1)) =
      (.ok (), timed))
    (got : timed.read requested = (answer, after)) :
    ∃ calls, stream.Advances after (taken answer) (.read
          (some (durationSince deadline stream.instant.1)) requested answer after.now :: calls) ∧
      Polled deadline (.read
          (some (durationSince deadline stream.instant.1)) requested answer after.now :: calls) ∧
      (InTime (.read (some (durationSince deadline stream.instant.1)) requested answer
        after.now :: calls) → after.now ≤ deadline) := by
  have advances := (timed_advances set).trans (read_advances got).1
  rw [setReadTimeout_ok set] at advances
  have before := lt_of_durationSince left
  have within : stream.instant.1 + (durationSince deadline stream.instant.1).nanos ≤ deadline := by
    unfold durationSince
    dsimp only
    omega
  have polled : Polled deadline [.read (some (durationSince deadline stream.instant.1)) requested
      answer after.now, .readTimeoutSet (some (durationSince deadline stream.instant.1)) (.ok ()),
      .instant stream.instant.1] := .turn left within .done
  exact ⟨_, advances, polled, fun inTime => polled.returned inTime List.mem_cons_self⟩

/-- A loop under a deadline keeps to it. -/
theorem readBefore_within (deadline count : Nat) (stream : UnixStream) :
    Within deadline (fun _ => False) stream (readBefore deadline count stream) := by
  fun_induction readBefore deadline count stream with
  | case1 stream => exact Within.pure
  | case2 count stream asked clocked remaining passed =>
      refine ⟨[], _, instant_advances stream, .quiet ?_, ?_⟩
      · exact List.forall_mem_singleton.mpr id
      · intro _ _
        have late : deadline ≤ clocked.now := durationSince_eq_zero.mp passed
        exact .late late
  | case3 count stream asked clocked remaining left error refused set =>
      have advances := (instant_advances stream).trans (setReadTimeout_advances set)
      refine ⟨[], _, advances, .quiet ?_, ?_⟩
      · exact List.forall_mem_cons.mpr ⟨id, List.forall_mem_singleton.mpr id⟩
      · intro _ _
        have early : clocked.now < deadline := lt_of_durationSince left
        have kept := setReadTimeout_now (some remaining) clocked
        rw [set] at kept
        exact .broken (kept.trans_le early.le) .denied
  | case4 count stream asked clocked remaining left timed set after got =>
      obtain ⟨calls, advances, polled, early⟩ := pass_turn left set got
      exact ⟨_, _, advances, polled, fun _ inTime => .broken (early inTime) .closed⟩
  | case5 count stream asked clocked remaining left timed set byte bytes after got rest final
      filled ih =>
      obtain ⟨calls, advances, polled, early⟩ := pass_turn left set got
      rw [filled] at ih
      exact Within.after advances polled (fun _ => early) ih.value
  | case6 count stream asked clocked remaining left timed set byte bytes after got stop final
      failed ih =>
      obtain ⟨calls, advances, polled, early⟩ := pass_turn left set got
      rw [failed] at ih
      exact Within.after advances polled (fun _ => early) ih
  | case7 count stream asked clocked remaining left timed set error after got interrupted ih =>
      obtain ⟨calls, advances, polled, early⟩ := pass_turn left set got
      exact Within.after advances polled (fun _ => early) ih
  | case8 count stream asked clocked remaining left timed set error after got _ timeout =>
      obtain ⟨calls, advances, polled, early⟩ := pass_turn left set got
      exact ⟨_, _, advances, polled, fun _ inTime => .timedOut (early inTime)⟩
  | case9 count stream asked clocked remaining left timed set error after got other timeout =>
      obtain ⟨calls, advances, polled, early⟩ := pass_turn left set got
      obtain ⟨notTimedOut, notBlocked⟩ := not_or.mp timeout
      exact ⟨_, _, advances, polled,
        fun _ inTime => .broken (early inTime) (.failed other notTimedOut notBlocked)⟩

/-- An option of the socket is set in no time, or refused. -/
theorem setReadTimeout_within (deadline : Nat) (refuses : Error → Prop)
    (timeout : Option Duration) (stream : UnixStream) :
    Within deadline refuses stream (attempt (setReadTimeout timeout) stream) := by
  have kept := setReadTimeout_now timeout stream
  unfold attempt
  split <;> rename_i set <;> rw [set] at kept
  · refine ⟨[], _, setReadTimeout_advances set, .quiet ?_, ?_⟩
    · exact List.forall_mem_singleton.mpr id
    · exact fun begun _ => .done (kept.trans_le begun)
  · refine ⟨[], _, setReadTimeout_advances set, .quiet ?_, ?_⟩
    · exact List.forall_mem_singleton.mpr id
    · exact fun begun _ => .broken (kept.trans_le begun) .denied

/-- Making room is within any budget. -/
theorem resize_within (deadline : Nat) (refuses : Error → Prop) (length : Nat)
    (stream : UnixStream) : Within deadline refuses stream (resize length stream) := by
  refine ⟨[], [.resized length], ⟨rfl, List.suffix_rfl, List.suffix_rfl, rfl⟩, .quiet ?_, ?_⟩
  · exact List.forall_mem_singleton.mpr id
  · exact fun begun _ => .done begun

/-- A read for the first byte of a frame, under the caller's own timeout. -/
def Waits (timeout : Option Duration) (call : SocketCall) : Prop :=
  ∃ answer returned, call = .read timeout 1 answer returned

/-- The wait for the first byte of a frame. -/
def Awaited (stream : UnixStream) : EStateM.Result Stop UnixStream (List UInt8) → Prop
  | .ok bytes after => ∃ first returned older, bytes = [first] ∧
      stream.Advances after [first]
        (.read stream.readTimeout 1 (.ok [first]) returned :: older) ∧
      ∀ call ∈ older, Waits stream.readTimeout call
  | .error stop after => (∃ error, stop = .failed error) ∧ ∃ calls,
      stream.Advances after [] calls ∧ ∀ call ∈ calls, Waits stream.readTimeout call

/-- A wait that goes on after an interrupted read. -/
theorem Awaited.retry {stream middle : UnixStream} {error : Error}
    {result : EStateM.Result Stop UnixStream (List UInt8)}
    (got : stream.read 1 = (.error error, middle)) (awaited : Awaited middle result) :
    Awaited stream result := by
  obtain ⟨advances, _, kept⟩ := read_advances got
  have waits : ∀ call ∈ [SocketCall.read stream.readTimeout 1 (.error error) middle.now],
      Waits stream.readTimeout call := List.forall_mem_singleton.mpr ⟨_, _, rfl⟩
  cases result with
  | ok bytes after =>
      obtain ⟨first, returned, older, same, advances', older'⟩ := awaited
      rw [kept] at advances' older'
      exact ⟨first, returned, _, same, advances.trans advances',
        List.forall_mem_append.mpr ⟨older', waits⟩⟩
  | error stop after =>
      obtain ⟨failed, calls, advances', calls'⟩ := awaited
      rw [kept] at calls'
      exact ⟨failed, _, advances.trans advances', List.forall_mem_append.mpr ⟨calls', waits⟩⟩

/-- Reading nothing makes no call. -/
theorem readExact_nothing (stream : UnixStream) : readExact 0 stream = .ok [] stream := by
  unfold readExact
  rfl

/-- The first byte of a frame is waited for under the caller's own timeout alone. -/
theorem readExact_awaited (stream : UnixStream) : Awaited stream (readExact 1 stream) := by
  generalize one : 1 = count
  fun_induction readExact count stream with
  | case1 => cases one
  | case2 count stream asked after got =>
      subst one
      have advances := (read_advances got).1
      exact ⟨⟨_, rfl⟩, _, advances, List.forall_mem_singleton.mpr ⟨_, _, rfl⟩⟩
  | case3 count stream asked byte bytes after got rest final filled ih =>
      subst one
      obtain ⟨advances, short, _⟩ := read_advances got
      have alone : bytes = [] := List.length_eq_zero_iff.mp (by
        rw [taken, List.length_cons] at short
        omega)
      subst alone
      cases (readExact_nothing after).symm.trans filled
      exact ⟨byte, _, [], rfl, advances, fun _ member => absurd member List.not_mem_nil⟩
  | case4 count stream asked byte bytes after got stop final failed ih =>
      subst one
      rw [Nat.sub_eq_zero_of_le (Nat.le_add_left 1 _)] at failed
      cases (readExact_nothing after).symm.trans failed
  | case5 count stream asked error after got interrupted ih =>
      subst one
      exact (ih rfl).retry got
  | case6 count stream asked error after got other =>
      subst one
      have advances := (read_advances got).1
      exact ⟨⟨_, rfl⟩, _, advances, List.forall_mem_singleton.mpr ⟨_, _, rfl⟩⟩

/-- The calls before a deadline is set: a first byte is read, and the caller's timeout
noted. -/
inductive Started (timeout : Option Duration) (first : UInt8) : List SocketCall → Prop
  | read {returned : Nat} {older : List SocketCall} :
      (∀ call ∈ older, Waits timeout call) →
      Started timeout first
        (.readTimeoutGot (.ok timeout) :: .read timeout 1 (.ok [first]) returned :: older)

/-- Without a first byte nothing but the caller's own timeout bounds the wait. The
timeout may be refused to be told. -/
def Unstarted (timeout : Option Duration) (call : SocketCall) : Prop :=
  Waits timeout call ∨ ∃ refusal, call = .readTimeoutGot (.error refusal)

/-- The first half of receiving waits for a first byte, and then sets its deadline. -/
theorem receiveFront_started (frameBudget : Duration) (stream : UnixStream) :
    (∃ error after bytes calls, receiveFront frameBudget stream = .error (.failed error) after ∧
      stream.Advances after bytes calls ∧
      ∀ call ∈ calls, Unstarted stream.readTimeout call) ∨
    ∃ first began earlier timed, Started stream.readTimeout first earlier ∧
      stream.Advances timed [first] (.instant began :: earlier) ∧ timed.now = began ∧
      receiveFront frameBudget stream =
        (do
          let rest ← readBefore (began + frameBudget.nanos) 19
          return (began + frameBudget.nanos, stream.readTimeout, [first] ++ rest) :
          EStateM Stop UnixStream _) timed := by
  have awaited := readExact_awaited stream
  unfold receiveFront
  cases filled : readExact 1 stream with
  | error stop after =>
      rw [filled] at awaited
      obtain ⟨⟨error, rfl⟩, calls, advances, waits⟩ := awaited
      exact .inl ⟨error, after, [], calls, bind_error filled, advances,
        fun call member => .inl (waits call member)⟩
  | ok bytes opened =>
      rw [filled] at awaited
      obtain ⟨first, returned, older, rfl, advances, waits⟩ := awaited
      have kept := readExact_readTimeout filled
      rw [bind_ok filled]
      rcases found : opened.getReadTimeout with ⟨refusal | idleTimeout, known⟩
      · have told := advances.trans (getReadTimeout_advances found).1
        have refused : attempt getReadTimeout opened = .error (.failed refusal) known := by
          rw [attempt, found]
        refine .inl ⟨refusal, known, _, _, bind_error refused, told, ?_⟩
        intro call member
        rcases List.mem_append.mp member with asked | waited
        · exact .inr ⟨refusal, List.mem_singleton.mp asked⟩
        · rcases List.mem_cons.mp waited with rfl | waited
          · exact .inl ⟨_, _, rfl⟩
          · exact .inl (waits call waited)
      · obtain ⟨got, same⟩ := getReadTimeout_advances found
        have idle : idleTimeout = stream.readTimeout := (same _ rfl).trans kept
        subst idle
        have started : Started stream.readTimeout first (.readTimeoutGot (.ok stream.readTimeout) ::
            .read stream.readTimeout 1 (.ok [first]) returned :: older) := .read waits
        have clocked := (advances.trans got).trans (instant_advances known)
        refine .inr ⟨first, _, _, _, started, clocked, rfl, ?_⟩
        rw [bind_ok (attempt_ok found), bind_ok (rfl : readClock _ = .ok _ _)]

end UnixStream

section

variable {ID : Type} (codec : Codec ID)

/-- The header of a frame is refused. -/
def Refuses (front : List UInt8) (error : Error) : Prop :=
  codec.headerFromBytes front = .error error ∨
    ∃ header, codec.headerFromBytes front = .ok header ∧ ¬ header.Sound ∧
      error = .invalid "invalid AgentX version or payload length"

/-- The second half of receiving keeps to the deadline of the first. -/
theorem receivePayload_within (deadline : Nat) (idleTimeout : Option Duration)
    (front : List UInt8) (stream : UnixStream) :
    Within deadline (Refuses codec front) stream
      (receivePayload codec deadline idleTimeout front stream) := by
  unfold receivePayload
  cases decodes : codec.headerFromBytes front with
  | error error =>
      rw [bind_error (raise_error rfl)]
      exact Within.throw (.inl decodes)
  | ok header =>
      rw [bind_ok (raise_ok rfl)]
      split
      · rename_i unsound
        refine Within.throw (.inr ⟨header, decodes, ?_, rfl⟩)
        exact fun sound => header.sound_iff.mp sound unsound
      · apply (resize_within deadline _ _ stream).bind
        intro _ resized _
        apply ((readBefore_within deadline _ resized).mono fun _ => False.elim).bind
        intro payload full _
        apply (setReadTimeout_within deadline _ idleTimeout full).bind
        intro _ restored _
        exact Within.pure

/-- Receiving waits for a first byte under the caller's own timeout, and then keeps to
one deadline. -/
theorem receive_started (frameBudget : Duration) (stream : UnixStream) :
    (∃ error after bytes calls, receive codec frameBudget stream = .error (.failed error) after ∧
      stream.Advances after bytes calls ∧
      ∀ call ∈ calls, Unstarted stream.readTimeout call) ∨
    ∃ first began earlier timed, Started stream.readTimeout first earlier ∧
      stream.Advances timed [first] (.instant began :: earlier) ∧ timed.now = began ∧
      Within (began + frameBudget.nanos) (Refuses codec (stream.incoming.take 20)) timed
        (receive codec frameBudget stream) := by
  unfold receive
  rcases receiveFront_started frameBudget stream with
    ⟨error, after, bytes, calls, failed, advances, unstarted⟩ |
    ⟨first, began, earlier, timed, started, advances, now, same⟩
  · exact .inl ⟨error, after, bytes, calls, bind_error failed, advances, unstarted⟩
  · refine .inr ⟨first, began, earlier, timed, started, advances, now, ?_⟩
    have fills := readBefore_fills (began + frameBudget.nanos) 19 timed
    have within := readBefore_within (began + frameBudget.nanos) 19 timed
    cases rest : readBefore (began + frameBudget.nanos) 19 timed with
    | error stop after =>
        rw [rest] at within
        have failed : receiveFront frameBudget stream = .error stop after :=
          same.trans (bind_error rest)
        rw [bind_error failed]
        exact (within.mono fun _ => False.elim).error
    | ok bytes full =>
        rw [rest] at fills within
        obtain ⟨length, calls, further, _⟩ := fills
        have front : stream.incoming.take 20 = [first] ++ bytes := by
          rw [advances.incoming, further.incoming, ← List.append_assoc]
          exact List.take_left' (by rw [List.length_append, length, List.length_singleton])
        have opened : receiveFront frameBudget stream =
            .ok (began + frameBudget.nanos, stream.readTimeout, [first] ++ bytes) full :=
          same.trans (bind_ok rest)
        rw [bind_ok opened, front]
        obtain ⟨_, _, advances', polled, early⟩ := within.early
        exact Within.after advances' polled early
          (receivePayload_within codec _ stream.readTimeout _ full)

end

section

variable {ID : Type} [AgentxId ID] {α β : Type}

/-- An action that ends leaves the timeout of the stream as it was. -/
def Leaves (action : EStateM Stop (Session ID) α) : Prop :=
  ∀ session value after, action session = .ok value after →
    after.stream.readTimeout = session.stream.readTimeout

/-- A sequence leaves the read timeout as its parts do. -/
theorem Leaves.bind {action : EStateM Stop (Session ID) α}
    {next : α → EStateM Stop (Session ID) β} (first : Leaves action)
    (second : ∀ value, Leaves (next value)) : Leaves (action >>= next) := by
  intro session value after ended
  obtain ⟨value', middle, moved, moved'⟩ := bind_eq_ok ended
  exact (second value' middle value after moved').trans (first session value' middle moved)

theorem Leaves.pure (value : α) :
    Leaves (return value : EStateM Stop (Session ID) α) := by
  intro session value' after ended
  cases ended
  rfl

theorem Leaves.throw (stop : Stop) :
    Leaves (throw stop : EStateM Stop (Session ID) α) := by
  intro session value after ended
  cases ended

theorem Leaves.raise (result : Except Error α) :
    Leaves (raise result : EStateM Stop (Session ID) α) := by
  intro session value after ended
  cases result with
  | ok value' =>
      cases ended
      rfl
  | error error => cases ended

/-- An action on the stream ends where it ends there. -/
theorem onStream_ok {action : EStateM Stop UnixStream α} {session after : Session ID} {value : α}
    (ended : onStream action session = .ok value after) :
    action session.stream = .ok value after.stream := by
  unfold onStream at ended
  split at ended <;> rename_i moved
  · cases ended
    exact moved
  · cases ended

/-- A call that was made without an error gave its value. -/
theorem attempt_eq_ok {σ : Type} {call : σ → Except Error α × σ} {state after : σ} {value : α}
    (ended : attempt call state = .ok value after) : call state = (.ok value, after) := by
  unfold attempt at ended
  split at ended <;> rename_i given
  · cases ended
    exact given
  · cases ended

namespace Codec

variable {codec : Codec ID}

/-- Writing leaves the read timeout. -/
theorem leaves_write (bytes : List UInt8) :
    Leaves (onStream (attempt (writeAll bytes)) : EStateM Stop (Session ID) Unit) := by
  intro session value after ended
  have written := attempt_eq_ok (onStream_ok ended)
  have same : after.stream.readTimeout = session.stream.answer.2.readTimeout :=
    congrArg (fun result : Except Error Unit × UnixStream => result.2.readTimeout) written.symm
  exact same.trans (answer_advances session.stream).2

theorem leaves_patch (order : ByteOrder) (bytes : List UInt8) (error : Option UInt16) :
    Leaves (patch order bytes error : EStateM Stop (Session ID) (List UInt8)) := by
  cases error with
  | none => exact Leaves.pure bytes
  | some error =>
      rw [patch]
      split
      · exact Leaves.pure _
      · exact Leaves.throw _

/-- Writing a response leaves the read timeout. -/
theorem leaves_answer (response : Response ID) (snmpError : Option UInt16) :
    Leaves (codec.answer response snmpError) := by
  apply (Leaves.raise _).bind
  intro encoded
  apply (leaves_patch _ encoded snmpError).bind
  intro bytes
  exact leaves_write bytes

/-- Handling a frame leaves the read timeout. -/
theorem leaves_handle (opened header : Header) (bytes : List UInt8) :
    Leaves (codec.handle opened header bytes) := by
  unfold handle
  split
  · exact (leaves_answer _ none).bind fun _ => Leaves.pure _
  split
  · apply (Leaves.raise _).bind
    intro _
    exact (leaves_answer _ none).bind fun _ => Leaves.pure _
  split
  · split
    · exact Leaves.throw _
    · exact Leaves.pure _
  · apply Leaves.bind
    · intro session result after ended
      cases ended
      rfl
    · intro result
      split
      · exact (leaves_answer _ _).bind fun _ => Leaves.pure _
      · exact (leaves_answer _ none).bind fun _ => Leaves.pure _

/-- A frame is received and handled without a trace in the timeout. -/
theorem leaves_pass (opened : Header) : Leaves (codec.pass opened) := by
  apply Leaves.bind
  · apply Leaves.bind
    · intro session frame after ended
      exact (receive_ok codec (onStream_ok ended)).2.1
    · intro frame
      apply Leaves.bind
      · intro session value after ended
        cases ended
        rfl
      · intro _
        exact Leaves.pure _
  · intro frame
    exact leaves_handle opened frame.1 frame.2

/-- A session that is registered waits without a timeout. -/
theorem handshake_readTimeout {config : Config} {session registered : Session ID}
    {opened : Header} (shaken : codec.handshake config session = .ok opened registered) :
    registered.stream.readTimeout = none := by
  obtain ⟨_, _, _, rest⟩ := bind_eq_ok shaken
  obtain ⟨_, _, registers, same⟩ := bind_eq_ok rest
  cases same
  obtain ⟨_, _, _, rest⟩ := bind_eq_ok registers
  obtain ⟨_, _, _, rest⟩ := bind_eq_ok rest
  obtain ⟨_, timed, set, noted⟩ := bind_eq_ok rest
  have unbounded : timed.stream.readTimeout = none :=
    setReadTimeout_ok (attempt_eq_ok (onStream_ok set))
  cases noted
  exact unbounded

/-- The sessions that the loop of `run` goes through. -/
def Passes (codec : Codec ID) (opened : Header) (first later : Session ID) : Prop :=
  Relation.ReflTransGen (fun before after => codec.pass opened before = .ok .next after) first
    later

/-- A registered session waits for each of its frames without a timeout. -/
theorem Passes.readTimeout {opened : Header} {config : Config}
    {session registered waiting : Session ID}
    (shaken : codec.handshake config session = .ok opened registered)
    (passes : codec.Passes opened registered waiting) : waiting.stream.readTimeout = none := by
  induction passes with
  | refl => exact handshake_readTimeout shaken
  | tail _ passed ih => exact (leaves_pass opened _ _ _ passed).trans ih

end Codec

variable (codec : Codec ID)

/-- How receiving spends a budget. Without a first byte only the caller's own timeout
bounds the wait. A first byte starts the budget: no read is given more time than is left
of it, and where the reads keep to their timeouts, none returns behind the deadline. -/
inductive Budgeted (frameBudget : Duration) (stream : UnixStream) (calls : List SocketCall)
    (result : EStateM.Result Stop UnixStream (Header × List UInt8)) : Prop
  | unstarted : ended result = none →
      (∀ call ∈ calls, Unstarted stream.readTimeout call) →
      Budgeted frameBudget stream calls result
  | started {first : UInt8} {began : Nat} {earlier later : List SocketCall} :
      calls = later ++ .instant began :: earlier → Started stream.readTimeout first earlier →
      Polled (began + frameBudget.nanos) later →
      (InTime later →
        (∀ timeout requested answer returned,
          .read timeout requested answer returned ∈ later →
          returned ≤ began + frameBudget.nanos) ∧
        EndsUnder (began + frameBudget.nanos) (Refuses codec (stream.incoming.take 20)) later
          result) →
      Budgeted frameBudget stream calls result

/-- A frame that has begun is received within its budget or given up. A frame that is
received leaves the timeout as it was, so a registered session waits without one. -/
theorem receive_budgeted (frameBudget : Duration) (stream : UnixStream) :
    Budgeted codec frameBudget stream
      (stream.since (reached (receive codec frameBudget stream)))
      (receive codec frameBudget stream) ∧
    (∀ header bytes after, receive codec frameBudget stream = .ok (header, bytes) after →
      WellFramed codec header bytes ∧ stream.incoming = bytes ++ after.incoming ∧
        after.readTimeout = stream.readTimeout) ∧
    (∀ (config : Config) (session : Session ID) opened registered waiting,
      codec.handshake config session = .ok opened registered →
      codec.Passes opened registered waiting → waiting.stream.readTimeout = none) := by
  refine ⟨?_, ?_, fun _ _ _ _ _ => Codec.Passes.readTimeout⟩
  · rcases receive_started codec frameBudget stream with
      ⟨error, after, bytes, calls, failed, advances, unstarted⟩ |
      ⟨first, began, earlier, timed, started, advances, now, within⟩
    · rw [failed, reached, since_eq advances.log]
      exact .unstarted rfl unstarted
    · obtain ⟨bytes, later, advances', polled, ends⟩ := within
      have calls := since_eq (advances.trans advances').log
      apply Budgeted.started calls started polled
      intro inTime
      refine ⟨fun _ _ _ _ member => polled.returned inTime member, ends ?_ inTime⟩
      rw [now]
      exact Nat.le_add_right began _
  · intro header bytes after received
    obtain ⟨framed, kept, calls, advances, _⟩ := receive_ok codec received
    exact ⟨framed, advances.incoming, kept⟩

end

/-- 100 ns. -/
def shortBudget : Duration := ⟨100, by decide⟩

/-- A Ping that arrives a byte every 25 ns. -/
def drippedStream : UnixStream where
  incoming := Wire.encodeHeader ⟨1, .ping, 0, 7, 0, 3, 0⟩
  arrivals := [⟨500, .chunk 1⟩, ⟨25, .chunk 1⟩, ⟨25, .chunk 1⟩, ⟨25, .chunk 1⟩,
    ⟨25, .failed ⟨.wouldBlock, []⟩⟩]
  lags := []
  refusals := []
  now := 0
  readTimeout := none
  log := []

/-- A frame that drips in is given up at its deadline. -/
theorem receive_budgeted_dripped :
    Budgeted Codec.plain shortBudget drippedStream
      (drippedStream.since (reached (receive Codec.plain shortBudget drippedStream)))
      (receive Codec.plain shortBudget drippedStream) ∧
    stopped (receive Codec.plain shortBudget drippedStream) = some (.failed frameDeadline) ∧
    (reached (receive Codec.plain shortBudget drippedStream)).now = 600 :=
  ⟨(receive_budgeted Codec.plain shortBudget drippedStream).1, by decide +kernel,
    by decide +kernel⟩

/-- The peer has closed or failed the stream. -/
def SocketCall.cuts : SocketCall → Bool
  | .read _ _ (.ok []) _ => true
  | .read _ _ (.error error) _ =>
      error.kind ≠ .interrupted ∧ error.kind ≠ .timedOut ∧ error.kind ≠ .wouldBlock
  | _ => false

/-- With reads that keep to their timeouts, receiving returns by its deadline, and with no
error but that of the deadline unless the peer has closed or failed the stream. -/
def EndsInBudget {ID : Type} (codec : Codec ID) (frameBudget : Duration) (stream : UnixStream) :
    Prop :=
  ∀ began, (readings (stream.since (reached (receive codec frameBudget stream)))).getLast? =
      some began →
    InTime (stream.since (reached (receive codec frameBudget stream))) →
    (reached (receive codec frameBudget stream)).now ≤ began + frameBudget.nanos ∧
    (ended (receive codec frameBudget stream) = none →
      (∀ call ∈ stream.since (reached (receive codec frameBudget stream)), call.cuts = false) →
      stopped (receive codec frameBudget stream) = some (.failed frameDeadline))

/-- A Ping whose second byte comes in time, with a clock that is read late after it. -/
def lateStream : UnixStream where
  incoming := Wire.encodeHeader ⟨1, .ping, 0, 7, 0, 3, 0⟩
  arrivals := [⟨0, .chunk 1⟩, ⟨99, .chunk 1⟩]
  lags := [0, 0, 51]
  refusals := []
  now := 0
  readTimeout := none
  log := []

/-- A header of another version, without the payload it announces. -/
def unsoundStream : UnixStream where
  incoming := Wire.encodeHeader ⟨2, .ping, 0, 7, 0, 3, 4⟩
  arrivals := []
  lags := []
  refusals := []
  now := 0
  readTimeout := none
  log := []

/-- A clock that is read late finds the deadline behind it, and a header that is refused
is another error than the deadline. -/
theorem receive_overruns : ¬ EndsInBudget Codec.plain shortBudget lateStream ∧
    ¬ EndsInBudget Codec.plain shortBudget unsoundStream := by
  constructor
  · intro ends
    have early := (ends 0 (by decide +kernel) (by decide +kernel)).1
    exact absurd early (by decide +kernel)
  · intro ends
    have late := (ends 0 (by decide +kernel) (by decide +kernel)).2 (by decide +kernel)
      (by decide +kernel)
    exact absurd late (by decide +kernel)

end IfStack
