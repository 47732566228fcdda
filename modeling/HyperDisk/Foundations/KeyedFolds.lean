import Mathlib.Data.Finset.Card
import Mathlib.Data.List.Induction
import HyperDisk.Foundations.WeightedLists

/- Grouping the rows of a list by a key: a fold that keeps one value per key in a map, begun from
   the key's first row and extended by each of its rows. -/
namespace KeyedFolds
open WeightedMaps WeightedLists
variable {A K V : Type}

def values (m : Map K V) : List V := m.entries.map Sigma.snd

theorem weigh_values (weight : V → Nat) (m : Map K V) :
    weigh weight (values m) = total weight m := by
  unfold values total
  induction m.entries with
  | nil => rfl
  | cons entry rest ih => rw [List.map_cons, weigh, ih, List.map_cons, List.foldr_cons]

variable [DecidableEq K] (key : A → K) (fresh : A → V) (note : V → A → V)

def gather (m : Map K V) (a : A) : Map K V :=
  m.insert (key a) (note ((m.lookup (key a)).getD (fresh a)) a)

def gathered (rows : List A) : Map K V := rows.foldl (gather key fresh note) ∅

/-- The value that the rows of one key add up to. -/
def summary : List A → Option V
  | [] => none
  | a :: rest => some (rest.foldl note (note (fresh a) a))

theorem gathered_snoc (rows : List A) (a : A) :
    gathered key fresh note (rows ++ [a]) =
      gather key fresh note (gathered key fresh note rows) a :=
  List.foldl_append

theorem summary_snoc (rows : List A) (a : A) :
    summary fresh note (rows ++ [a]) =
      some (note ((summary fresh note rows).getD (fresh a)) a) := by
  cases rows with
  | nil => rfl
  | cons b rest =>
    rw [List.cons_append, summary, List.foldl_append]
    rfl

variable {key fresh note}

theorem summary_rule {P : List A → V → Prop} (start : ∀ a, P [a] (note (fresh a) a))
    (step : ∀ rows v a, P rows v → P (rows ++ [a]) (note v a)) {rows : List A} {v : V}
    (sum : summary fresh note rows = some v) : P rows v := by
  induction rows using List.reverseRecOn generalizing v with
  | nil => cases sum
  | append_singleton rows a ih =>
    rw [summary_snoc, Option.some_inj] at sum
    rw [← sum]
    cases rows with
    | nil => exact start a
    | cons b rest => exact step _ _ a (ih rfl)

theorem lookup_gathered (rows : List A) (k : K) :
    (gathered key fresh note rows).lookup k = summary fresh note (rows.filter fun a =>
      key a = k) := by
  induction rows using List.reverseRecOn with
  | nil => rfl
  | append_singleton rows a ih =>
    rw [gathered_snoc, gather, lookup_insert_eq, List.filter_append]
    by_cases here : k = key a
    · rw [if_pos here, ← here, ih, List.filter_singleton, here, decide_eq_true rfl]
      exact (summary_snoc fresh note _ a).symm
    · rw [if_neg here, ih, List.filter_singleton, decide_eq_false fun same => here same.symm]
      simp

theorem mem_keys_gathered (rows : List A) (k : K) :
    k ∈ (gathered key fresh note rows).keys ↔ k ∈ rows.map key := by
  rw [← AList.mem_keys, ← AList.lookup_isSome, lookup_gathered, List.mem_map]
  constructor
  · intro present
    cases own : rows.filter fun a => key a = k with
    | nil =>
      rw [own] at present
      cases present
    | cons a rest =>
      have member : a ∈ rows.filter fun a => key a = k := by
        rw [own]
        exact List.mem_cons_self
      obtain ⟨inside, same⟩ := List.mem_filter.mp member
      exact ⟨a, inside, by simpa using same⟩
  · rintro ⟨a, inside, same⟩
    have member : a ∈ rows.filter fun a => key a = k :=
      List.mem_filter.mpr ⟨inside, by simpa using same⟩
    cases own : rows.filter fun a => key a = k with
    | nil =>
      rw [own] at member
      cases member
    | cons b rest => rfl

theorem values_length (rows : List A) :
    (values (gathered key fresh note rows)).length = (rows.map key).toFinset.card := by
  have keys : (gathered key fresh note rows).keys.toFinset = (rows.map key).toFinset := by
    ext k
    rw [List.mem_toFinset, List.mem_toFinset, mem_keys_gathered]
  rw [← keys, List.toFinset_card_of_nodup (AList.keys_nodup _), values, List.length_map]
  exact (List.length_map _).symm

/-- What each row adds to its own value is what it adds to the total. -/
theorem total_gathered {weight : V → Nat} {gain : A → Nat} (start : ∀ a, weight (fresh a) = 0)
    (adds : ∀ v a, weight (note v a) = weight v + gain a) (rows : List A) :
    total weight (gathered key fresh note rows) = weigh gain rows := by
  induction rows using List.reverseRecOn with
  | nil => rfl
  | append_singleton rows a ih =>
    rw [gathered_snoc, gather, weigh_snoc, ← ih]
    cases found : (gathered key fresh note rows).lookup (key a) with
    | none =>
      rw [total_fresh found, Option.getD_none, adds, start, Nat.zero_add, Nat.add_comm]
    | some v =>
      rw [total_insert, total_erase found, Option.getD_some, adds, Nat.add_right_comm]

theorem mem_values {rows : List A} {v : V} (member : v ∈ values (gathered key fresh note rows)) :
    ∃ k, summary fresh note (rows.filter fun a => key a = k) = some v := by
  obtain ⟨⟨k, w⟩, entry, same⟩ := List.mem_map.mp member
  cases same
  refine ⟨k, ?_⟩
  rw [← lookup_gathered]
  exact AList.mem_lookup_iff.mpr entry

theorem values_nodup {id : V → K} (rows : List A)
    (named : ∀ k v, summary fresh note (rows.filter fun a => key a = k) = some v → id v = k) :
    ((values (gathered key fresh note rows)).map id).Nodup := by
  have same : (values (gathered key fresh note rows)).map id =
      (gathered key fresh note rows).keys := by
    rw [values, List.map_map]
    apply List.map_congr_left
    intro entry member
    apply named entry.1 entry.2
    rw [← lookup_gathered]
    exact AList.mem_lookup_iff.mpr member
  rw [same]
  exact AList.keys_nodup _

end KeyedFolds
