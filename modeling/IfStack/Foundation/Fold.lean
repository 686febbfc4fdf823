import Mathlib.Data.List.Basic

/-! # Computations that can fail

A computation decides a condition when it succeeds exactly where the condition
holds. Deciding composes: two computations in sequence decide both conditions, and
a fold decides whether every item fits what came before it.
-/

namespace Foundation

universe u

variable {α ε : Type*} {σ τ : Type u}

/-- A computation succeeds exactly when a condition holds, and then its value has a
property. -/
def Decides (condition : Prop) (gives : σ → Prop) : Except ε σ → Prop
  | .ok value => condition ∧ gives value
  | .error _ => ¬ condition

namespace Decides

variable {condition : Prop} {gives : σ → Prop} {result : Except ε σ}

@[simp] theorem ok_iff {value : σ} :
    Decides condition gives (.ok value : Except ε σ) ↔ condition ∧ gives value := Iff.rfl

@[simp] theorem error_iff {error : ε} :
    Decides condition gives (.error error : Except ε σ) ↔ ¬ condition := Iff.rfl

/-- A decided condition holds just when the result is a value. -/
theorem exists_iff (decides : Decides condition gives result) :
    (∃ value, result = .ok value) ↔ condition := by
  cases result with
  | error error =>
      exact ⟨fun ⟨_, succeeds⟩ => (nomatch succeeds), fun holds => (decides holds).elim⟩
  | ok value => exact ⟨fun _ => decides.1, fun _ => ⟨value, rfl⟩⟩

/-- A value that was given meets the condition. -/
theorem of_eq_ok {value : σ} (decides : Decides condition gives result)
    (succeeds : result = .ok value) : condition ∧ gives value := by
  subst succeeds
  exact decides

/-- The condition in other words, and a property that follows. -/
theorem congr {condition' : Prop} {gives' : σ → Prop} (decides : Decides condition gives result)
    (same : condition' ↔ condition)
    (follows : condition → ∀ value, gives value → gives' value) :
    Decides condition' gives' result := by
  cases result with
  | error error => exact mt same.mp decides
  | ok value => exact ⟨same.mpr decides.1, follows decides.1 value decides.2⟩

/-- Two computations in sequence decide both conditions. -/
theorem bind {condition' : Prop} {gives' : τ → Prop} {next : σ → Except ε τ}
    (first : Decides condition gives result)
    (second : condition → ∀ value, gives value → Decides condition' gives' (next value)) :
    Decides (condition ∧ condition') gives' (result >>= next) := by
  cases result with
  | error error => exact fun both => first both.1
  | ok value =>
      apply Decides.congr (second first.1 value first.2)
      · exact and_iff_right first.1
      · exact fun _ _ => id

end Decides

/-- Every item fits the items before it. -/
def AllFit (fits : List α → α → Prop) (taken : List α) : List α → Prop
  | [] => True
  | item :: items => fits taken item ∧ AllFit fits (taken ++ [item]) items

/-- Where fitting does not depend on what came before, the items fit one by one. -/
theorem allFit_const {sound : α → Prop} {taken items : List α} :
    AllFit (fun _ => sound) taken items ↔ ∀ item ∈ items, sound item := by
  induction items generalizing taken with
  | nil => simp [AllFit]
  | cons head items ih => rw [AllFit, ih, List.forall_mem_cons]

/-- Where an item must be sound and apart from the items before it, all items are
sound and pairwise apart. -/
theorem allFit_pairwise {sound : α → Prop} {apart : α → α → Prop} {taken items : List α} :
    AllFit (fun taken item => sound item ∧ ∀ other ∈ taken, apart other item) taken items ↔
      (∀ item ∈ items, sound item) ∧ items.Pairwise apart ∧
        ∀ other ∈ taken, ∀ item ∈ items, apart other item := by
  induction items generalizing taken with
  | nil => simp [AllFit]
  | cons head items ih =>
      rw [AllFit, ih, List.forall_mem_cons, List.pairwise_cons]
      simp only [List.forall_mem_append, List.forall_mem_singleton, List.forall_mem_cons]
      constructor
      · intro ⟨⟨first, fresh⟩, others, spread, before, after⟩
        exact ⟨⟨first, others⟩, ⟨after, spread⟩,
          fun other member => ⟨fresh other member, before other member⟩⟩
      · intro ⟨⟨first, others⟩, ⟨after, spread⟩, before⟩
        exact ⟨⟨first, fun other member => (before other member).1⟩, others, spread,
          fun other member => (before other member).2, after⟩

/-- Where an item fits as long as a property of lists still holds, and a list with the
property has it at its front, the items fit together. -/
theorem allFit_whole {holds : List α → Prop}
    (front : ∀ taken items, holds (taken ++ items) → holds taken) {taken items : List α}
    (begins : holds taken) :
    AllFit (fun taken item => holds (taken ++ [item])) taken items ↔ holds (taken ++ items) := by
  induction items generalizing taken with
  | nil =>
      rw [List.append_nil]
      exact iff_of_true trivial begins
  | cons head items ih =>
      rw [AllFit, List.append_cons taken head items]
      constructor
      · intro ⟨fits, rest⟩
        exact (ih fits).mp rest
      · intro all
        have fits := front _ _ all
        exact ⟨fits, (ih fits).mpr all⟩

/-- A fold over the members of each item is a fold over all members. -/
theorem foldlM_flatMap {β : Type*} {step : σ → β → Except ε σ} {members : α → List β}
    (items : List α) (state : σ) : (items.flatMap members).foldlM step state =
      items.foldlM (fun state item => (members item).foldlM step state) state := by
  induction items generalizing state with
  | nil => rfl
  | cons item items ih =>
      rw [List.flatMap_cons, List.foldlM_append, List.foldlM_cons]
      apply bind_congr
      intro next
      exact ih next

/-- The rule for a fold whose step decides whether an item fits. -/
theorem Decides.foldlM {step : σ → α → Except ε σ} (tracks : List α → σ → Prop)
    (fits : List α → α → Prop) {items : List α}
    (each : ∀ state taken, ∀ item ∈ items, tracks taken state →
      Decides (fits taken item) (tracks (taken ++ [item])) (step state item))
    {state : σ} {taken : List α} (begins : tracks taken state) :
    Decides (AllFit fits taken items) (tracks (taken ++ items)) (items.foldlM step state) := by
  induction items generalizing state taken with
  | nil =>
      rw [List.append_nil]
      exact ⟨trivial, begins⟩
  | cons item items ih =>
      rw [List.foldlM_cons, AllFit, List.append_cons taken item items]
      apply Decides.bind (each state taken item List.mem_cons_self begins)
      intro _ next tracked
      exact ih (fun state taken item member =>
        each state taken item (List.mem_cons_of_mem _ member)) tracked

/-- A check of every item decides whether all meet the condition. -/
theorem Decides.forM {check : α → Except ε PUnit.{u + 1}} {sound : α → Prop} {items : List α}
    (each : ∀ item ∈ items, Decides (sound item) (fun _ => True) (check item)) :
    Decides (∀ item ∈ items, sound item) (fun _ => True) (items.forM check) := by
  induction items with
  | nil => exact ⟨fun _ member => absurd member List.not_mem_nil, trivial⟩
  | cons item items ih =>
      rw [List.forall_mem_cons]
      change Decides _ _ (check item >>= fun _ => items.forM check)
      apply Decides.bind (each item List.mem_cons_self)
      exact fun _ _ _ => ih fun item member => each item (List.mem_cons_of_mem _ member)

end Foundation
