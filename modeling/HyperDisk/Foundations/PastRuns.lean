import Mathlib.Data.List.Induction
import HyperDisk.Foundations.StepRuns

/- What has happened in a run so far. `Since hold event` says that the event happened at one of
   the run's steps and that every state from there on satisfies `hold`. An event is about the
   actions before it, so events can refer to earlier ones. -/
namespace PastRuns
open StepRuns
variable {S A : Type} {step : S → A → S} {s : S} {hold : S → Prop} {event : List A → A → Prop}

def Since (step : S → A → S) (s : S) (hold : S → Prop) (event : List A → A → Prop)
    (as : List A) : Prop :=
  ∃ before a after, as = before ++ a :: after ∧ event before a ∧
    ∀ k, hold (run step s (before ++ a :: after.take k))

theorem run_snoc (s : S) (as : List A) (a : A) :
    run step s (as ++ [a]) = step (run step s as) a := by
  rw [run_append]
  rfl

theorem since_now {as : List A} {a : A} (now : event as a) (holds : hold (step (run step s as) a)) :
    Since step s hold event (as ++ [a]) := by
  refine ⟨as, a, [], rfl, now, ?_⟩
  intro k
  rw [List.take_nil, run_snoc]
  exact holds

theorem since_stays {as : List A} {a : A} (past : Since step s hold event as)
    (holds : hold (step (run step s as) a)) : Since step s hold event (as ++ [a]) := by
  obtain ⟨before, b, after, split, happened, kept⟩ := past
  refine ⟨before, b, after ++ [a], by rw [split, List.append_assoc, List.cons_append], happened, ?_⟩
  intro k
  by_cases inside : k ≤ after.length
  · rw [List.take_append_of_le_length inside]
    exact kept k
  · have whole : before ++ b :: (after ++ [a]).take k = as ++ [a] := by
      rw [List.take_of_length_le (by simp; omega), split, List.append_assoc, List.cons_append]
    rw [whole, run_snoc]
    exact holds

theorem history_invariant {I : List A → S → Prop} (start : I [] s)
    (keep : ∀ as a, I as (run step s as) → I (as ++ [a]) (step (run step s as) a)) (as : List A) :
    I as (run step s as) := by
  induction as using List.reverseRecOn with
  | nil => exact start
  | append_singleton as a ih =>
    rw [run_snoc]
    exact keep as a ih

end PastRuns
