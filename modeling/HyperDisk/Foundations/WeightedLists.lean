import HyperDisk.Foundations.WeightedMaps

/- Weights of lists, and the longest front part of a list that stays within a budget. -/
namespace WeightedLists
open WeightedMaps
variable {K V : Type} {w w' : K → Nat} {budget : Nat}

def weigh (w : K → Nat) : List K → Nat
  | [] => 0
  | k :: ks => w k + weigh w ks

theorem weigh_congr {l : List K} (same : ∀ k ∈ l, w k = w' k) : weigh w l = weigh w' l := by
  induction l with
  | nil => rfl
  | cons k ks ih =>
    rw [weigh, weigh, same k List.mem_cons_self,
      ih fun x member => same x (List.mem_cons_of_mem k member)]

theorem weigh_snoc (w : K → Nat) (l : List K) (k : K) : weigh w (l ++ [k]) = weigh w l + w k := by
  induction l with
  | nil => exact Nat.add_comm _ _
  | cons x rest ih => rw [List.cons_append, weigh, weigh, ih, Nat.add_assoc]

theorem weigh_perm {l l' : List K} (same : l.Perm l') : weigh w l = weigh w l' := by
  induction same with
  | nil => rfl
  | cons k _ ih => rw [weigh, weigh, ih]
  | swap x y rest => rw [weigh, weigh, weigh, weigh, Nat.add_left_comm]
  | trans _ _ first second => rw [first, second]

theorem total_eq_weigh [DecidableEq K] {weight : V → Nat} {m : Map K V} {keys : List K}
    (distinct : keys.Nodup) (domain : ∀ k, k ∈ keys ↔ (m.lookup k).isSome) :
    total weight m = weigh (fun k => ((m.lookup k).map weight).getD 0) keys := by
  induction keys generalizing m with
  | nil =>
    have empty : m.keys = [] := by
      apply List.eq_nil_iff_forall_not_mem.mpr
      intro k member
      have present := AList.lookup_isSome.mpr (AList.mem_keys.mpr member)
      exact absurd ((domain k).mpr present) List.not_mem_nil
    rw [total, show m.entries = [] from List.map_eq_nil_iff.mp empty]
    rfl
  | cons k ks ih =>
    obtain ⟨fresh, rest⟩ := List.nodup_cons.mp distinct
    obtain ⟨v, stored⟩ := Option.isSome_iff_exists.mp ((domain k).mp List.mem_cons_self)
    have remaining : ∀ x, x ∈ ks ↔ ((m.erase k).lookup x).isSome := by
      intro x
      rw [lookup_erase_eq]
      by_cases here : x = k
      · simp [here, fresh]
      · rw [if_neg here, ← domain x]
        simp [here]
    rw [total_erase stored, ih rest remaining, weigh, stored, Option.map_some, Option.getD_some]
    congr 1
    apply weigh_congr
    intro x member
    have other : x ≠ k := fun same => fresh (same ▸ member)
    rw [lookup_erase_eq, if_neg other]

def keepWithin (w : K → Nat) : Nat → List K → List K
  | _, [] => []
  | budget, k :: ks => if w k ≤ budget then k :: keepWithin w (budget - w k) ks else []

theorem keepWithin_of_le {l : List K} (fits : weigh w l ≤ budget) : keepWithin w budget l = l := by
  induction l generalizing budget with
  | nil => rfl
  | cons k ks ih =>
    rw [weigh] at fits
    rw [keepWithin, if_pos (by omega), ih (by omega)]

theorem keepWithin_drop {front : List K} {k : K} (heavy : budget < weigh w (front ++ [k])) :
    keepWithin w budget (front ++ [k]) = keepWithin w budget front := by
  induction front generalizing budget with
  | nil =>
    have too_heavy : ¬ w k ≤ budget := by
      simp only [List.nil_append, weigh] at heavy
      omega
    simp [keepWithin, too_heavy]
  | cons x xs ih =>
    rw [List.cons_append, keepWithin, keepWithin]
    split
    · rename_i fits
      rw [List.cons_append, weigh] at heavy
      rw [ih (by omega)]
    · rfl

theorem keepWithin_congr {l : List K} (same : ∀ k ∈ l, w k = w' k) :
    keepWithin w budget l = keepWithin w' budget l := by
  induction l generalizing budget with
  | nil => rfl
  | cons k ks ih =>
    rw [keepWithin, keepWithin, same k List.mem_cons_self,
      ih fun x member => same x (List.mem_cons_of_mem k member)]

/-- What is kept is the longest front part that fits. -/
theorem keepWithin_longest (w : K → Nat) (budget : Nat) (l : List K) :
    ∃ n, n ≤ l.length ∧ keepWithin w budget l = l.take n ∧ weigh w (l.take n) ≤ budget ∧
      ∀ m, n < m → m ≤ l.length → budget < weigh w (l.take m) := by
  induction l generalizing budget with
  | nil => exact ⟨0, Nat.le_refl 0, rfl, Nat.zero_le _, fun m above below =>
      absurd below (by simp; omega)⟩
  | cons k ks ih =>
    by_cases fits : w k ≤ budget
    · obtain ⟨n, bound, kept, light, longest⟩ := ih (budget - w k)
      refine ⟨n + 1, by simpa using bound, ?_, ?_, ?_⟩
      · rw [keepWithin, if_pos fits, kept, List.take_succ_cons]
      · rw [List.take_succ_cons, weigh]
        omega
      · intro m above below
        cases m with
        | zero => omega
        | succ m =>
          have heavy := longest m (by omega) (by simpa using below)
          rw [List.take_succ_cons, weigh]
          omega
    · refine ⟨0, Nat.zero_le _, by rw [keepWithin, if_neg fits, List.take_zero], Nat.zero_le _, ?_⟩
      intro m above below
      cases m with
      | zero => omega
      | succ m =>
        rw [List.take_succ_cons, weigh]
        omega

theorem keepWithin_sublist (w : K → Nat) (budget : Nat) (l : List K) :
    (keepWithin w budget l).Sublist l := by
  obtain ⟨n, _, kept, _⟩ := keepWithin_longest w budget l
  rw [kept]
  exact List.take_sublist n l

end WeightedLists
