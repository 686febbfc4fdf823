import Mathlib.Data.List.Basic

/-! # Calls that are repeated

A call that is made again while its answer asks for it. What it comes to is the first
answer that does not.
-/

namespace Foundation

variable {α : Type*} {again : α → Bool} {answers : List α} {last : α}

/-- The answers taken of those to come, up to the first that does not ask for another call.
None is final while all of them do. -/
def retry (again : α → Bool) : List α → List α × Option α
  | [] => ([], none)
  | answer :: answers =>
      if again answer then
        let (tried, last) := retry again answers
        (answer :: tried, last)
      else ([answer], some answer)

/-- What a repeated call comes to is its only answer that does not ask for another. -/
theorem retry_spec (final : (retry again answers).2 = some last) :
    ∃ before, (retry again answers).1 = before ++ [last] ∧
      (∀ answer ∈ before, again answer = true) ∧ again last = false := by
  induction answers with
  | nil => cases final
  | cons answer answers ih =>
      by_cases asks : again answer = true
      · rw [retry, if_pos asks] at final ⊢
        obtain ⟨before, tried, all, ends⟩ := ih final
        refine ⟨answer :: before, ?_, List.forall_mem_cons.mpr ⟨asks, all⟩, ends⟩
        dsimp only
        rw [tried, List.cons_append]
      · rw [retry, if_neg asks] at final ⊢
        cases final
        exact ⟨[], rfl, fun _ member => absurd member List.not_mem_nil, Bool.not_eq_true _ ▸ asks⟩

end Foundation
