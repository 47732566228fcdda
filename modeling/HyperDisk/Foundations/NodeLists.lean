import Mathlib.Data.List.Nodup
import Mathlib.Data.List.Perm.Basic
import HyperDisk.Foundations.WeightedMaps

/- A linked list whose nodes are reached through stored iterators. A node has an identity that
   it keeps while it moves; an iterator is the identity of a node, and is invalid when no node
   of the list has it. -/
namespace NodeLists
open WeightedMaps
variable {K : Type} [DecidableEq K]

structure Node (K : Type) where
  id : Nat
  key : K
  deriving DecidableEq, Repr

def unlink (nodes : List (Node K)) (iterator : Nat) : Option (Node K × List (Node K)) :=
  match nodes.find? (·.id = iterator) with
  | some n => some (n, nodes.erase n)
  | none => none

/-- Every key stands in one node, and the index holds the iterator of that node. -/
structure Wired (nodes : List (Node K)) (index : Map K Nat) (next : Nat) : Prop where
  ids : (nodes.map Node.id).Nodup
  keys : (nodes.map Node.key).Nodup
  older : ∀ n ∈ nodes, n.id < next
  indexed : ∀ k i, index.lookup k = some i ↔ ⟨i, k⟩ ∈ nodes

variable {nodes nodes' : List (Node K)} {index : Map K Nat} {next : Nat} {n : Node K} {k : K}

theorem wired_nil : Wired ([] : List (Node K)) ∅ next :=
  ⟨List.nodup_nil, List.nodup_nil, fun _ member => absurd member List.not_mem_nil,
    fun k i => by simp⟩

theorem Wired.key_inj (h : Wired nodes index next) {a b : Node K} (ha : a ∈ nodes) (hb : b ∈ nodes)
    (same : a.key = b.key) : a = b :=
  List.inj_on_of_nodup_map h.keys ha hb same

theorem Wired.nodup (h : Wired nodes index next) : nodes.Nodup := h.ids.of_map _

theorem Wired.iterator (h : Wired nodes index next) (member : k ∈ nodes.map Node.key) :
    ∃ i, index.lookup k = some i ∧ ⟨i, k⟩ ∈ nodes := by
  obtain ⟨n, listed, rfl⟩ := List.mem_map.mp member
  exact ⟨n.id, (h.indexed n.key n.id).mpr listed, listed⟩

theorem unlink_eq (h : Wired nodes index next) (member : n ∈ nodes) :
    unlink nodes n.id = some (n, nodes.erase n) := by
  have found : nodes.find? (·.id = n.id) = some n := by
    cases first : nodes.find? (·.id = n.id) with
    | none =>
      rw [List.find?_eq_none] at first
      exact absurd (decide_eq_true rfl) (first n member)
    | some m =>
      have same : m.id = n.id := by simpa using List.find?_some first
      rw [List.inj_on_of_nodup_map h.ids (List.mem_of_find?_eq_some first) member same]
  rw [unlink, found]

theorem keys_erase (h : Wired nodes index next) (member : n ∈ nodes) :
    (nodes.erase n).map Node.key = (nodes.map Node.key).erase n.key := by
  have distinct := h.keys
  clear h
  induction nodes with
  | nil => rfl
  | cons m rest ih =>
    by_cases here : m = n
    · simp [here]
    · have later := (List.mem_cons.mp member).resolve_left (Ne.symm here)
      rw [List.map_cons, List.nodup_cons] at distinct
      have apart : m.key ≠ n.key := fun same => distinct.1 (same ▸ List.mem_map_of_mem later)
      rw [List.erase_cons_tail (by simpa using here), List.map_cons, List.map_cons,
        List.erase_cons_tail (by simpa using apart), ih later distinct.2]

theorem wired_perm (h : Wired nodes index next) (same : nodes.Perm nodes') :
    Wired nodes' index next where
  ids := (same.map Node.id).nodup_iff.mp h.ids
  keys := (same.map Node.key).nodup_iff.mp h.keys
  older n member := h.older n (same.mem_iff.mpr member)
  indexed k i := (h.indexed k i).trans same.mem_iff

theorem wired_front (h : Wired nodes index next) (member : n ∈ nodes) :
    Wired (n :: nodes.erase n) index next :=
  wired_perm h (List.perm_cons_erase member)

theorem wired_push (h : Wired nodes index next) (absent : k ∉ nodes.map Node.key) :
    Wired (⟨next, k⟩ :: nodes) (index.insert k next) (next + 1) where
  ids := by
    rw [List.map_cons, List.nodup_cons]
    refine ⟨fun member => ?_, h.ids⟩
    obtain ⟨n, listed, same⟩ := List.mem_map.mp member
    exact absurd same (Nat.ne_of_lt (h.older n listed))
  keys := by
    rw [List.map_cons, List.nodup_cons]
    exact ⟨absent, h.keys⟩
  older n member := by
    rcases List.mem_cons.mp member with rfl | listed
    · exact Nat.lt_succ_self _
    · exact Nat.lt_succ_of_lt (h.older n listed)
  indexed x i := by
    rw [lookup_insert_eq, List.mem_cons, Node.mk.injEq]
    by_cases here : x = k
    · subst here
      have new : (⟨i, x⟩ : Node K) ∉ nodes := fun listed =>
        absent (List.mem_map.mpr ⟨_, listed, rfl⟩)
      simp [new, eq_comm]
    · simp [here, h.indexed]

theorem wired_erase (h : Wired nodes index next) (member : n ∈ nodes) :
    Wired (nodes.erase n) (index.erase n.key) next where
  ids := (List.erase_sublist.map Node.id).nodup h.ids
  keys := (List.erase_sublist.map Node.key).nodup h.keys
  older m listed := h.older m (List.mem_of_mem_erase listed)
  indexed x i := by
    rw [lookup_erase_eq, h.nodup.mem_erase_iff]
    by_cases here : x = n.key
    · subst here
      have only : (⟨i, n.key⟩ : Node K) ∈ nodes → ⟨i, n.key⟩ = n := fun listed =>
        h.key_inj listed member rfl
      simp only [if_true, reduceCtorEq, false_iff, not_and]
      exact fun other listed => other (only listed)
    · have other : (⟨i, x⟩ : Node K) ≠ n := fun same => here (by rw [← same])
      simp [here, other, h.indexed]

end NodeLists
