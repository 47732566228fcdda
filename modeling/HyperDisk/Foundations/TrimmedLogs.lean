import Mathlib.Data.List.Infix

/- Logs that are cut back by a whole batch of their oldest entries when they outgrow a limit. -/
namespace TrimmedLogs
variable {A : Type} {limit batch : Nat} {log all : List A}

def push (limit batch : Nat) (log : List A) (a : A) : List A :=
  if limit < (log ++ [a]).length then (log ++ [a]).drop batch else log ++ [a]

/-- The log is what is left of all the entries: the latest ones, and all of them until there are
    more than the limit. -/
structure Window (limit batch : Nat) (log all : List A) : Prop where
  suffix : log <:+ all
  short : all.length ≤ limit → log.length = all.length
  long : limit < all.length → limit < log.length + batch ∧ log.length ≤ limit

theorem window_nil : Window limit batch ([] : List A) [] :=
  ⟨List.suffix_refl [], fun _ => rfl, fun long => absurd long (Nat.not_lt_zero limit)⟩

theorem window_le (h : Window limit batch log all) : log.length ≤ limit := by
  by_cases long : limit < all.length
  · exact (h.long long).2
  · rw [h.short (by omega)]
    omega

theorem append_suffix (h : log <:+ all) (a : A) : log ++ [a] <:+ all ++ [a] := by
  obtain ⟨front, same⟩ := h
  exact ⟨front, by rw [← same, List.append_assoc]⟩

theorem push_window (positive : 0 < batch) (h : Window limit batch log all) (a : A) :
    Window limit batch (push limit batch log a) (all ++ [a]) := by
  have kept := append_suffix h.suffix a
  have bound := window_le h
  have grown : (log ++ [a]).length = log.length + 1 := List.length_append
  have more : (all ++ [a]).length = all.length + 1 := List.length_append
  unfold push
  split
  · refine ⟨(List.drop_suffix batch _).trans kept, ?_, ?_⟩
    · intro short
      have same := h.short (by omega)
      omega
    · intro _
      rw [List.length_drop]
      omega
  · refine ⟨kept, ?_, ?_⟩
    · intro short
      have same := h.short (by omega)
      omega
    · intro long
      by_cases before : limit < all.length
      · have low := (h.long before).1
        omega
      · have same := h.short (by omega)
        omega

end TrimmedLogs
