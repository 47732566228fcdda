import HyperDisk.Foundations.StepRuns

/- How often a run stands in a kind of state, and how many steps it takes to an end, both
   bounded by a budget that the steps draw on. -/
namespace StepBudgets
open StepRuns
variable {S A : Type} {step : S → A → S} {p : S → Prop} [DecidablePred p]

def visits (step : S → A → S) (p : S → Prop) [DecidablePred p] (s : S) : List A → Nat
  | [] => if p s then 1 else 0
  | a :: as => (if p s then 1 else 0) + visits step p (step s a) as

theorem visits_le_budget (budget : S → Nat) (positive : ∀ s, p s → 0 < budget s)
    (spends : ∀ s a, (if p s then 1 else 0) + budget (step s a) ≤ budget s) (s : S) (as : List A) :
    visits step p s as ≤ budget s := by
  induction as generalizing s with
  | nil =>
    rw [visits]
    split
    · rename_i here
      exact positive s here
    · exact Nat.zero_le _
  | cons a as ih =>
    have later := ih (step s a)
    have paid := spends s a
    rw [visits]
    omega

/-- A run with at least as many steps as its budget has come to an end. -/
theorem ended_of_budget (budget : S → Nat) (ended : S → Prop)
    (stays : ∀ s a, ended s → ended (step s a))
    (spends : ∀ s a, ¬ ended s → budget (step s a) < budget s)
    (spent : ∀ s, budget s = 0 → ended s) {s : S} {as : List A} (enough : budget s ≤ as.length) :
    ended (run step s as) := by
  induction as generalizing s with
  | nil => exact spent s (Nat.le_zero.mp enough)
  | cons a as ih =>
    rw [run]
    by_cases now : ended s
    · exact invariant_run as (stays s a now) stays
    · have less := spends s a now
      rw [List.length_cons] at enough
      exact ih (by omega)

end StepBudgets
