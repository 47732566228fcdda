import Mathlib.Algebra.Ring.Periodic
import Mathlib.Data.Nat.Count
import Mathlib.Order.Interval.Finset.Nat

/- Taking turns: each of n parties is served a fixed number of times in a row, round after
   round. Turns and parties are counted from zero. -/
namespace Rotation
variable {first times n : Nat}

def turn (first times n j : Nat) : Nat := (first + j / times) % n

theorem succ_within {k : Nat} (more : k % times + 1 < times) :
    (k + 1) / times = k / times ∧ (k + 1) % times = k % times + 1 := by
  have split := Nat.mod_add_div k times
  apply (Nat.div_mod_unique (by omega)).mpr
  exact ⟨by omega, more⟩

theorem succ_last {k : Nat} (last : k % times + 1 = times) :
    (k + 1) / times = k / times + 1 ∧ (k + 1) % times = 0 := by
  have split := Nat.mod_add_div k times
  apply (Nat.div_mod_unique (by omega)).mpr
  refine ⟨?_, by omega⟩
  rw [Nat.mul_add]
  omega

theorem turn_periodic (positive : 0 < times) :
    Function.Periodic (turn first times n) (times * n) := by
  intro j
  rw [turn, turn, Nat.add_mul_div_left j n positive, ← Nat.add_assoc, Nat.add_mod_right]

theorem turn_iff {x q j : Nat} (positive : 0 < times) (inside : q < n)
    (served : (first + q) % n = x) (early : j < times * n) :
    turn first times n j = x ↔ times * q ≤ j ∧ j < times * q + times := by
  have round : j / times < n := Nat.div_lt_of_lt_mul early
  have exact : turn first times n j = x ↔ j / times = q := by
    rw [turn, ← served]
    constructor
    · intro same
      have congruent : j / times ≡ q [MOD n] := Nat.ModEq.add_left_cancel' first same
      exact congruent.eq_of_lt_of_lt round inside
    · intro same
      rw [same]
  rw [exact, Nat.div_eq_iff positive, Nat.mul_comm q times]
  omega

theorem round_of (first : Nat) {x : Nat} (inside : x < n) : ∃ q < n, (first + q) % n = x := by
  have below := Nat.mod_lt first (show 0 < n by omega)
  by_cases ahead : first % n ≤ x
  · refine ⟨x - first % n, by omega, ?_⟩
    rw [← Nat.mod_add_mod, show first % n + (x - first % n) = x by omega, Nat.mod_eq_of_lt inside]
  · refine ⟨x + n - first % n, by omega, ?_⟩
    rw [← Nat.mod_add_mod, show first % n + (x + n - first % n) = x + n by omega, Nat.add_mod_right,
      Nat.mod_eq_of_lt inside]

theorem turn_count_first {x : Nat} (positive : 0 < times) (inside : x < n) :
    Nat.count (fun j => turn first times n j = x) (times * n) = times := by
  obtain ⟨q, early, served⟩ := round_of first inside
  have round : (Finset.range (times * n)).filter (fun j => turn first times n j = x) =
      Finset.Ico (times * q) (times * q + times) := by
    have within : times * q + times ≤ times * n := by
      rw [← Nat.mul_succ]
      exact Nat.mul_le_mul_left times early
    ext j
    rw [Finset.mem_filter, Finset.mem_range, Finset.mem_Ico]
    constructor
    · rintro ⟨bound, here⟩
      exact (turn_iff positive early served bound).mp here
    · intro here
      have bound : j < times * n := by omega
      exact ⟨bound, (turn_iff positive early served bound).mpr here⟩
  rw [Nat.count_eq_card_filter_range, round, Nat.card_Ico, Nat.add_sub_cancel_left]

/-- In as many consecutive turns as a round has, wherever they begin, every party is served
    equally often. -/
theorem turn_count (first : Nat) {x : Nat} (positive : 0 < times) (inside : x < n) (start : Nat) :
    Nat.count (fun k => turn first times n (start + k) = x) (times * n) = times := by
  -- moving the window by one turn drops a turn and adds the one a round later, which is alike
  induction start with
  | zero => simpa using turn_count_first positive inside
  | succ start ih =>
    have front := Nat.count_succ' (fun k => turn first times n (start + k) = x) (times * n)
    have back := Nat.count_succ (fun k => turn first times n (start + k) = x) (times * n)
    have alike : turn first times n (start + times * n) = turn first times n (start + 0) :=
      turn_periodic positive start
    simp only [alike] at back
    rw [back, ih] at front
    have moved : (fun k => turn first times n (start + (k + 1)) = x) =
        fun k => turn first times n (start + 1 + k) = x := by
      funext k
      rw [Nat.add_assoc, Nat.add_comm 1 k]
    simp only [moved] at front
    omega

end Rotation
