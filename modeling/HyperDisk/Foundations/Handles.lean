import Mathlib.Data.Finset.Erase
import Mathlib.Data.Finset.Insert
import Mathlib.Logic.Function.Basic

/- Handles that a system gives out. A live handle can be switched on and off, which the system
   may refuse, and is given back once; `none` is the use of a handle that is not live. The
   handles whose last switch was refused are kept as history. -/
namespace Handles

structure Table where
  next : Nat
  live : Finset Nat
  on : Finset Nat
  refused : Finset Nat
  deriving DecidableEq

def noHandles : Table := ⟨0, ∅, ∅, ∅⟩

def Table.register (t : Table) : Table :=
  { t with next := t.next + 1, live := insert t.next t.live }

/-- Switches a handle if the system answers `ok`. -/
def Table.setState (t : Table) (h : Nat) (state ok : Bool) : Option Table :=
  if h ∉ t.live then none
  else if ok then
    some { t with
      on := if state then insert h t.on else t.on.erase h
      refused := t.refused.erase h }
  else some { t with refused := insert h t.refused }

/-- Gives a handle back, which does not switch it off. -/
def Table.release (t : Table) (h : Nat) : Option Table :=
  if h ∈ t.live then some { t with live := t.live.erase h } else none

structure Holder where
  handle : Nat
  held : Bool
  active : Bool
  deriving DecidableEq

@[grind =] def Holder.holds (x : Holder) (h : Nat) : Prop := x.held = true ∧ x.handle = h

@[grind =] def Holder.enables (x : Holder) (h : Nat) : Prop := x.holds h ∧ x.active = true

section Keeping
variable {ι : Type} {t : Table} {holders : ι → Holder} {i : ι}

/-- Exactly the held handles are live, each is held once, and exactly the active ones are on as
    far as no switch was refused. -/
structure Kept (t : Table) (holders : ι → Holder) : Prop where
  fresh : ∀ h ∈ t.live, h < t.next
  live : ∀ h, h ∈ t.live ↔ ∃ i, (holders i).holds h
  own : ∀ i j h, (holders i).holds h → (holders j).holds h → i = j
  on : ∀ h, h ∉ t.refused → (h ∈ t.on ↔ ∃ i, (holders i).enables h)

def Obeyed (ok : Bool) (t u : Table) : Prop := ok = true → u.refused ⊆ t.refused

theorem obeyed_refl (ok : Bool) (t : Table) : Obeyed ok t t := fun _ => Finset.Subset.refl _

theorem kept_none (nobody : ∀ i, (holders i).held = false) : Kept noHandles holders := by
  constructor
  · simp [noHandles]
  · simp [noHandles, Holder.holds, nobody]
  · simp [Holder.holds, nobody]
  · simp [noHandles, Holder.enables, Holder.holds, nobody]

theorem held_live (h : Kept t holders) (held : (holders i).held = true) :
    (holders i).handle ∈ t.live :=
  (h.live _).mpr ⟨i, held, rfl⟩

theorem others_apart (kept : Kept t holders) (held : (holders i).held = true) :
    ¬ ∃ j, j ≠ i ∧ (holders j).holds (holders i).handle := by
  rintro ⟨j, other, here⟩
  exact other (kept.own j i _ here ⟨held, rfl⟩)

theorem exists_split (R : Holder → Nat → Prop) (i : ι) (h : Nat) :
    (∃ j, R (holders j) h) ↔ R (holders i) h ∨ ∃ j, j ≠ i ∧ R (holders j) h := by
  constructor
  · rintro ⟨j, here⟩
    by_cases it : j = i
    · exact .inl (it ▸ here)
    · exact .inr ⟨j, it, here⟩
  · rintro (here | ⟨j, -, here⟩)
    · exact ⟨i, here⟩
    · exact ⟨j, here⟩

variable [DecidableEq ι]

theorem exists_update (R : Holder → Nat → Prop) (x : Holder) (h : Nat) :
    (∃ j, R (Function.update holders i x j) h) ↔ R x h ∨ ∃ j, j ≠ i ∧ R (holders j) h := by
  rw [exists_split R i, Function.update_self]
  apply or_congr_right
  apply exists_congr
  intro j
  apply and_congr_right
  intro other
  rw [Function.update_of_ne other]

theorem own_update (kept : Kept t holders) {x : Holder}
    (apart : ∀ j h, j ≠ i → x.holds h → ¬ (holders j).holds h) (j k : ι) (h : Nat)
    (atj : (Function.update holders i x j).holds h)
    (atk : (Function.update holders i x k).holds h) : j = k := by
  by_cases jt : j = i
  · by_cases kt : k = i
    · exact jt.trans kt.symm
    · rw [jt, Function.update_self] at atj
      rw [Function.update_of_ne kt] at atk
      exact absurd atk (apart k h kt atj)
  · rw [Function.update_of_ne jt] at atj
    by_cases kt : k = i
    · rw [kt, Function.update_self] at atk
      exact absurd atj (apart j h jt atk)
    · rw [Function.update_of_ne kt] at atk
      exact kept.own j k h atj atk

theorem kept_idle (kept : Kept t holders) (free : (holders i).held = false) {x : Holder}
    (still : x.held = false) : Kept t (Function.update holders i x) := by
  constructor
  · exact kept.fresh
  · intro h
    rw [kept.live, exists_split Holder.holds i, exists_update Holder.holds]
    simp [Holder.holds, free, still]
  · apply own_update kept
    simp [Holder.holds, still]
  · intro h obeyed
    rw [kept.on h obeyed, exists_split Holder.enables i, exists_update Holder.enables]
    simp [Holder.enables, Holder.holds, free, still]

theorem kept_register (kept : Kept t holders) (free : (holders i).held = false) :
    Kept t.register (Function.update holders i ⟨t.next, true, false⟩) := by
  constructor
  · intro h here
    rcases Finset.mem_insert.mp here with rfl | old
    · exact Nat.lt_succ_self _
    · exact Nat.lt_succ_of_lt (kept.fresh h old)
  · intro h
    rw [exists_update Holder.holds, Table.register, Finset.mem_insert, kept.live,
      exists_split Holder.holds i]
    simp only [Holder.holds, free, Bool.false_eq_true, false_and, false_or, true_and, eq_comm]
  · apply own_update kept
    rintro j h - ⟨-, rfl⟩ held
    exact Nat.lt_irrefl _ (kept.fresh _ ((kept.live _).mpr ⟨j, held⟩))
  · intro h obeyed
    rw [exists_update Holder.enables, Table.register, kept.on h obeyed,
      exists_split Holder.enables i]
    simp [Holder.enables, Holder.holds, free]

theorem kept_switch (kept : Kept t holders) (held : (holders i).held = true) (state ok : Bool) :
    ∃ u, t.setState (holders i).handle state ok = some u ∧ Obeyed ok t u ∧
      Kept u (Function.update holders i { holders i with active := state }) := by
  have alone := others_apart kept held
  have here := held_live kept held
  have live : ∀ h, h ∈ t.live ↔
      ∃ j, (Function.update holders i { holders i with active := state } j).holds h := by
    intro h
    rw [exists_update Holder.holds, kept.live, exists_split Holder.holds i]
    rfl
  have own := own_update kept (i := i) (x := { holders i with active := state }) (by
    rintro j h other ⟨-, rfl⟩ there
    exact alone ⟨j, other, there⟩)
  cases ok with
  | true =>
    refine ⟨{ t with
        on := if state then insert (holders i).handle t.on else t.on.erase (holders i).handle
        refused := t.refused.erase (holders i).handle }, ?_, ?_, kept.fresh, live, own, ?_⟩
    · simp [Table.setState, here]
    · exact fun _ => Finset.erase_subset _ _
    · intro h obeyed
      rw [exists_update Holder.enables]
      by_cases it : h = (holders i).handle
      · cases state <;> grind
      · have before := kept.on h (by grind)
        rw [exists_split Holder.enables i] at before
        cases state <;> grind
  | false =>
    refine ⟨{ t with refused := insert (holders i).handle t.refused }, ?_, nofun, kept.fresh, live,
      own, ?_⟩
    · simp [Table.setState, here]
    · intro h obeyed
      have before := kept.on h (by grind)
      rw [exists_update Holder.enables]
      rw [exists_split Holder.enables i] at before
      grind

theorem kept_release (kept : Kept t holders) (held : (holders i).held = true)
    (off : (holders i).active = false) :
    ∃ u, t.release (holders i).handle = some u ∧ u.refused = t.refused ∧
      Kept u (Function.update holders i { holders i with held := false }) := by
  have alone := others_apart kept held
  refine ⟨_, if_pos (held_live kept held), rfl, ?_, ?_, ?_, ?_⟩
  · intro h here
    exact kept.fresh h (Finset.mem_of_mem_erase here)
  · intro h
    rw [exists_update Holder.holds, Finset.mem_erase, kept.live, exists_split Holder.holds i]
    grind
  · apply own_update kept
    simp [Holder.holds]
  · intro h obeyed
    rw [exists_update Holder.enables, kept.on h obeyed, exists_split Holder.enables i]
    simp [Holder.enables, Holder.holds, off]

end Keeping

end Handles
