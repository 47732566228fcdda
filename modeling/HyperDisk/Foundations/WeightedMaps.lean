import Mathlib.Data.List.AList
import Mathlib.Data.List.Perm.Basic

/- Finite maps whose values carry a weight, and what an update does to the total. -/
namespace WeightedMaps
variable {K V : Type}

abbrev Map (K V : Type) := AList fun _ : K => V

def total (weight : V → Nat) (m : Map K V) : Nat :=
  (m.entries.map fun entry => weight entry.2).foldr (· + ·) 0

@[simp] theorem total_empty (weight : V → Nat) : total weight (∅ : Map K V) = 0 := rfl

variable [DecidableEq K] {weight : V → Nat} {m : Map K V} {k : K} {v v' : V}

theorem lookup_insert_eq (m : Map K V) (k x : K) (v : V) :
    (m.insert k v).lookup x = if x = k then some v else m.lookup x := by
  by_cases here : x = k
  · subst here
    rw [if_pos rfl]
    exact AList.lookup_insert m
  · rw [if_neg here]
    exact AList.lookup_insert_ne here

theorem lookup_erase_eq (m : Map K V) (k x : K) :
    (m.erase k).lookup x = if x = k then none else m.lookup x := by
  by_cases here : x = k
  · subst here
    rw [if_pos rfl]
    exact AList.lookup_erase x m
  · rw [if_neg here]
    exact AList.lookup_erase_ne here

theorem keys_length_eq {m m' : Map K V} (same : ∀ x, (m.lookup x).isSome = (m'.lookup x).isSome) :
    m.keys.length = m'.keys.length := by
  have members : ∀ x, x ∈ m.keys ↔ x ∈ m'.keys := by
    intro x
    rw [← AList.mem_keys, ← AList.mem_keys, ← AList.lookup_isSome, ← AList.lookup_isSome, same]
  exact ((List.perm_ext_iff_of_nodup m.keys_nodup m'.keys_nodup).mpr members).length_eq

theorem keys_length_insert (absent : m.lookup k = none) (v : V) :
    (m.insert k v).keys.length = m.keys.length + 1 := by
  have fresh : k ∉ m.keys := fun member =>
    AList.lookup_eq_none.mp absent (AList.mem_keys.mpr member)
  rw [AList.keys_insert, List.length_cons, List.erase_of_not_mem fresh]

theorem keys_length_replace (stored : m.lookup k = some v) (v' : V) :
    (m.insert k v').keys.length = m.keys.length := by
  apply keys_length_eq
  intro x
  rw [lookup_insert_eq]
  split
  · rename_i here
    rw [here, stored]
    rfl
  · rfl

theorem keys_length_erase (stored : m.lookup k = some v) :
    (m.erase k).keys.length + 1 = m.keys.length := by
  have member : k ∈ m.keys := AList.mem_keys.mp (AList.lookup_isSome.mp (by rw [stored]; rfl))
  have positive := List.length_pos_of_mem member
  rw [AList.keys_erase, List.length_erase_of_mem member]
  omega

theorem total_insert (m : Map K V) (k : K) (v : V) :
    total weight (m.insert k v) = weight v + total weight (m.erase k) := rfl

theorem total_erase (stored : m.lookup k = some v) :
    total weight m = weight v + total weight (m.erase k) := by
  rw [← total_insert]
  have same : m.entries.Perm (m.insert k v).entries := by
    apply List.lookup_ext m.nodupKeys (m.insert k v).nodupKeys
    intro x y
    have value : (m.insert k v).entries.dlookup x = if x = k then some v else m.entries.dlookup x :=
      lookup_insert_eq m k x v
    rw [value]
    split
    · rename_i here
      rw [here]
      exact stored ▸ Iff.rfl
    · rfl
  unfold total
  apply List.Perm.foldr_op_eq
  exact same.map _

theorem total_fresh (absent : m.lookup k = none) (v : V) :
    total weight (m.insert k v) = weight v + total weight m := by
  have same : m.erase k = m :=
    AList.ext (List.kerase_of_notMem_keys (AList.lookup_eq_none.mp absent))
  rw [total_insert, same]

theorem total_replace (stored : m.lookup k = some v) (same : weight v' = weight v) :
    total weight (m.insert k v') = total weight m := by
  rw [total_insert, total_erase stored, same]

end WeightedMaps
