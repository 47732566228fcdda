import Mathlib.Algebra.BigOperators.Group.Finset.Basic
import Mathlib.Algebra.Order.BigOperators.Group.Finset
import Mathlib.Data.Fintype.Card

/- What each of finitely many threads is doing, of which one changes at a step, and totals over
   the threads. -/
namespace ThreadStates
variable {T L : Type} [DecidableEq T] {locals : T → L} {t : T}

def setLocal (locals : T → L) (t : T) (l : L) : T → L := fun u => if u = t then l else locals u

@[simp] theorem setLocal_self (l : L) : setLocal locals t l t = l := if_pos rfl

@[simp] theorem setLocal_other {u : T} (l : L) (other : u ≠ t) : setLocal locals t l u = locals u :=
  if_neg other

theorem setLocal_cases {u : T} {l x : L} (here : setLocal locals t l u = x) :
    u = t ∧ l = x ∨ locals u = x := by
  by_cases it : u = t
  · rw [it, setLocal_self] at here
    exact .inl ⟨it, here⟩
  · rw [setLocal_other l it] at here
    exact .inr here

section Totals
variable [Fintype T]

theorem total_setLocal (weight : L → Nat) (locals : T → L) (t : T) (l : L) :
    (∑ u, weight (setLocal locals t l u)) + weight (locals t) =
      (∑ u, weight (locals u)) + weight l := by
  have others : ∑ u ∈ Finset.univ.erase t, weight (setLocal locals t l u) =
      ∑ u ∈ Finset.univ.erase t, weight (locals u) := by
    apply Finset.sum_congr rfl
    intro u apart
    rw [setLocal_other l (Finset.ne_of_mem_erase apart)]
  rw [← Finset.add_sum_erase _ _ (Finset.mem_univ t), others, setLocal_self,
    ← Finset.add_sum_erase _ (fun u => weight (locals u)) (Finset.mem_univ t)]
  omega

omit [DecidableEq T] in
theorem card_mul_eq (t : T) (n : Nat) : Fintype.card T * n = (Fintype.card T - 1) * n + n := by
  have threads : 0 < Fintype.card T := Fintype.card_pos_iff.mpr ⟨t⟩
  rw [← Nat.succ_mul, Nat.succ_eq_add_one, Nat.sub_add_cancel threads]

theorem total_le_of_idle {weight : L → Nat} {most : Nat} (bounded : ∀ u, weight (locals u) ≤ most)
    (idle : weight (locals t) = 0) :
    ∑ u, weight (locals u) ≤ (Fintype.card T - 1) * most := by
  rw [← Finset.add_sum_erase _ _ (Finset.mem_univ t), idle, Nat.zero_add]
  calc ∑ u ∈ Finset.univ.erase t, weight (locals u)
      ≤ (Finset.univ.erase t).card • most := Finset.sum_le_card_nsmul _ _ _ fun u _ => bounded u
    _ = (Fintype.card T - 1) * most := by
      rw [Finset.card_erase_of_mem (Finset.mem_univ t), Finset.card_univ]
      rfl

end Totals

end ThreadStates
