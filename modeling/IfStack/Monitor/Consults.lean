import IfStack.Monitor.Run

/-! # What a step of the monitor asks of its source

A step of the loop seen from its source: a relation with one rule per call and outcome.
Every step follows one of the rules (`Monitor.consults_of_step`), so what the calls of a
source have in common is proved by cases on them, and the loop's own variables are
forgotten.
-/

namespace IfStack

variable {σ ID : Type} [AgentxId ID] [Acquisition σ]

/-- The calls that a step makes where the loop stands, by what its entry tells of them. -/
inductive Consults : Point → σ → Entry → σ → Prop
  | skipped (source : σ) :
      Consults .head source (.skipped (Acquisition.now source).1) (Acquisition.now source).2
  | subscribing (source : σ) :
      Consults .head source (.subscribing (Acquisition.now source).1) (Acquisition.now source).2
  | subscribed {now : Duration} {source after : σ}
      (answer : Acquisition.subscribe source = (.ok (), after)) :
      Consults (.subscribing now) source .subscribed after
  | subscribeFailed {now : Duration} {source after : σ} {error : Error}
      (answer : Acquisition.subscribe source = (.error error, after)) :
      Consults (.subscribing now) source (.subscribeFailed error (Acquisition.now after).1)
        (Acquisition.now after).2
  | started (source : σ) (attempt : Attempt) :
      Consults .ready source (.started (Acquisition.now source).1 attempt)
        (Acquisition.now source).2
  | waiting (source : σ) (timeout : Duration) :
      Consults .ready source (.waiting (Acquisition.now source).1 timeout)
        (Acquisition.now source).2
  | accepted {now : Duration} {attempt : Attempt} {source after : σ} {inventory : Inventory}
      (answer : Acquisition.inventory attempt source = some (.ok inventory, after)) :
      Consults (.inventorying now attempt) source
        (.completed inventory (Acquisition.now after).1 none) (Acquisition.now after).2
  /-- The clock is read once more when the loop fails the inventory. -/
  | rejected {now : Duration} {attempt : Attempt} {source after : σ} {inventory : Inventory}
      (answer : Acquisition.inventory attempt source = some (.ok inventory, after)) :
      Consults (.inventorying now attempt) source
        (.completed inventory (Acquisition.now after).1
          (some (Acquisition.now (Acquisition.now after).2).1))
        (Acquisition.now (Acquisition.now after).2).2
  | ordinary {now : Duration} {attempt : Attempt} {source after : σ} {error : Error}
      {events : EventBatch}
      (answer : Acquisition.inventory attempt source =
        some (.error (.ordinary error events), after)) :
      Consults (.inventorying now attempt) source
        (.ordinary error events (Acquisition.now after).1) (Acquisition.now after).2
  | lost {now : Duration} {attempt : Attempt} {source after : σ} {error : Error}
      {events : EventBatch}
      (answer : Acquisition.inventory attempt source =
        some (.error (.lost error events), after)) :
      Consults (.inventorying now attempt) source
        (.lost error events (Acquisition.now after).1) (Acquisition.now after).2
  | deadline {now timeout : Duration} {source after : σ}
      (answer : Acquisition.wait timeout source = (.ok .deadline, after)) :
      Consults (.waiting now timeout) source .deadline after
  | linkChanged {now timeout time : Duration} {source after : σ}
      (answer : Acquisition.wait timeout source = (.ok (.linkChanged time), after)) :
      Consults (.waiting now timeout) source (.linkChanged time) after
  | waitFailed {now timeout : Duration} {source after : σ} {error : Error}
      (answer : Acquisition.wait timeout source = (.error error, after)) :
      Consults (.waiting now timeout) source (.waitFailed error (Acquisition.now after).1)
        (Acquisition.now after).2

/-- What every call of the source keeps, a step of the loop keeps. -/
theorem Consults.keeps (kept : σ → Prop) {point : Point} {source after : σ} {entry : Entry}
    (reads : ∀ source, kept source → kept (Acquisition.now source).2)
    (subscribes : ∀ source, kept source → kept (Acquisition.subscribe source).2)
    (inventories : ∀ now attempt, point = .inventorying now attempt → ∀ outcome after,
      Acquisition.inventory attempt source = some (outcome, after) → kept after)
    (waits : ∀ timeout source, kept source → kept (Acquisition.wait timeout source).2)
    (consults : Consults point source entry after) (holds : kept source) : kept after := by
  cases consults with
  | skipped | subscribing | started | waiting => exact reads source holds
  | subscribed answer =>
      have subscribed := subscribes source holds
      rwa [answer] at subscribed
  | subscribeFailed answer =>
      have refused := subscribes source holds
      rw [answer] at refused
      exact reads _ refused
  | accepted answer => exact reads _ (inventories _ _ rfl _ _ answer)
  | rejected answer => exact reads _ (reads _ (inventories _ _ rfl _ _ answer))
  | ordinary answer | lost answer => exact reads _ (inventories _ _ rfl _ _ answer)
  | @deadline _ timeout _ _ answer | @linkChanged _ timeout _ _ _ answer =>
      have waited := waits timeout source holds
      rwa [answer] at waited
  | @waitFailed _ timeout _ _ _ answer =>
      have failed := waits timeout source holds
      rw [answer] at failed
      exact reads _ failed

namespace Monitor

variable {source : σ} {state : State} {publication : Publication ID} {entry : Entry}
  {next : Monitor σ ID}

private theorem consults_of_head
    (moved : head ⟨source, ⟨.head, state, publication⟩⟩ = (entry, next)) :
    Consults .head source entry next.source := by
  unfold head at moved
  by_cases due : (!state.subscribed && state.retryReady (Acquisition.now source).1) = true
  · simp only [due, ↓reduceIte] at moved
    cases moved
    exact .subscribing source
  · simp only [due, Bool.false_eq_true, ↓reduceIte] at moved
    cases moved
    exact .skipped source

private theorem consults_of_subscribe {now : Duration}
    (moved : subscribe ⟨source, ⟨.subscribing now, state, publication⟩⟩ = (entry, next)) :
    Consults (.subscribing now) source entry next.source := by
  unfold subscribe at moved
  cases answer : Acquisition.subscribe source with
  | mk outcome after =>
      simp only [answer] at moved
      cases outcome with
      | ok _ =>
          cases moved
          exact .subscribed answer
      | error error =>
          cases moved
          exact .subscribeFailed answer

private theorem consults_of_ready
    (moved : ready ⟨source, ⟨.ready, state, publication⟩⟩ = (entry, next)) :
    Consults .ready source entry next.source := by
  unfold ready at moved
  by_cases due : (state.subscribed && state.acquisitionReady (Acquisition.now source).1) = true
  · simp only [due, ↓reduceIte] at moved
    cases moved
    exact .started source _
  · simp only [due, Bool.false_eq_true, ↓reduceIte] at moved
    cases moved
    exact .waiting source _

private theorem consults_of_inventory {now : Duration} {attempt : Attempt}
    (moved : inventory attempt ⟨source, ⟨.inventorying now attempt, state, publication⟩⟩ =
      some (entry, next)) :
    Consults (.inventorying now attempt) source entry next.source := by
  unfold inventory at moved
  cases answer : Acquisition.inventory attempt source with
  | none =>
      simp only [answer] at moved
      cases moved
  | some returned =>
      obtain ⟨outcome, after⟩ := returned
      simp only [answer] at moved
      match outcome with
      | .ok completed =>
          dsimp only at moved
          split at moved
          · cases moved
            exact .accepted answer
          · cases moved
            exact .rejected answer
      | .error (.ordinary error events) =>
          cases moved
          exact .ordinary answer
      | .error (.lost error events) =>
          cases moved
          exact .lost answer

private theorem consults_of_wait {now timeout : Duration}
    (moved : wait timeout ⟨source, ⟨.waiting now timeout, state, publication⟩⟩ = (entry, next)) :
    Consults (.waiting now timeout) source entry next.source := by
  unfold wait at moved
  cases answer : Acquisition.wait timeout source with
  | mk outcome after =>
      simp only [answer] at moved
      match outcome with
      | .ok .deadline =>
          cases moved
          exact .deadline answer
      | .ok (.linkChanged time) =>
          cases moved
          exact .linkChanged answer
      | .error error =>
          cases moved
          exact .waitFailed answer

/-- Every step makes the calls of one of the rules. -/
theorem consults_of_step {monitor next : Monitor σ ID} {entry : Entry}
    (moved : monitor.step = some (entry, next)) :
    Consults monitor.actor.point monitor.source entry next.source := by
  obtain ⟨source, ⟨point, state, publication⟩⟩ := monitor
  cases point with
  | head => exact consults_of_head (Option.some.inj moved)
  | subscribing now => exact consults_of_subscribe (Option.some.inj moved)
  | ready => exact consults_of_ready (Option.some.inj moved)
  | inventorying now attempt => exact consults_of_inventory moved
  | waiting now timeout => exact consults_of_wait (Option.some.inj moved)

/-- The loop takes a step, unless an inventory never returns. -/
theorem exists_step {monitor : Monitor σ ID}
    (returns : ∀ now attempt, monitor.actor.point = .inventorying now attempt →
      (Acquisition.inventory attempt monitor.source).isSome) :
    ∃ entry next, monitor.step = some (entry, next) := by
  obtain ⟨source, ⟨point, state, publication⟩⟩ := monitor
  cases point with
  | head | subscribing | ready | waiting => exact ⟨_, _, rfl⟩
  | inventorying now attempt =>
      obtain ⟨⟨outcome, after⟩, answer⟩ := Option.isSome_iff_exists.mp (returns now attempt rfl)
      change ∃ entry next, inventory attempt ⟨source, _⟩ = some (entry, next)
      unfold inventory
      dsimp only at answer ⊢
      rw [answer]
      match outcome with
      | .ok completed =>
          dsimp only
          split <;> exact ⟨_, _, rfl⟩
      | .error (.ordinary error events) => exact ⟨_, _, rfl⟩
      | .error (.lost error events) => exact ⟨_, _, rfl⟩

end Monitor
end IfStack
