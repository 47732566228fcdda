import Mathlib.Data.List.Dedup
import Mathlib.Data.List.Induction
import Mathlib.Logic.Function.Iterate

/- Counting by search or append: a list holds one value for each key, in the order in which the
   keys first come up. -/
namespace Tallies
variable {K V : Type} [DecidableEq K] (key : V → K) (fresh : K → V) (note : V → V)

def upsert : List V → K → List V
  | [], k => [fresh k]
  | v :: rest, k => if key v = k then note v :: rest else v :: upsert rest k

def tally (ks : List K) : List V := ks.foldl (upsert key fresh note) []

structure Lawful : Prop where
  fresh_key : ∀ k, key (fresh k) = k
  note_key : ∀ v, key (note v) = key v

theorem tally_snoc (ks : List K) (k : K) :
    tally key fresh note (ks ++ [k]) = upsert key fresh note (tally key fresh note ks) k :=
  List.foldl_append

variable {key fresh note}

theorem mem_upsert {values : List V} {k : K} {v : V} (distinct : (values.map key).Nodup)
    (mem : v ∈ upsert key fresh note values k) :
    v ∈ values ∧ key v ≠ k ∨ k ∉ values.map key ∧ v = fresh k ∨
      ∃ w ∈ values, key w = k ∧ v = note w := by
  induction values with
  | nil => exact .inr (.inl ⟨List.not_mem_nil, List.mem_singleton.mp mem⟩)
  | cons u rest ih =>
    rw [List.map_cons, List.nodup_cons] at distinct
    rw [upsert] at mem
    split at mem
    · rename_i here
      rcases List.mem_cons.mp mem with rfl | later
      · exact .inr (.inr ⟨u, List.mem_cons_self, here, rfl⟩)
      · refine .inl ⟨List.mem_cons_of_mem u later, ?_⟩
        intro again
        exact distinct.1 (here.trans again.symm ▸ List.mem_map_of_mem later)
    · rename_i other
      rcases List.mem_cons.mp mem with rfl | later
      · exact .inl ⟨List.mem_cons_self, other⟩
      · rcases ih distinct.2 later with ⟨kept, differs⟩ | ⟨absent, same⟩ | ⟨w, inside, same, noted⟩
        · exact .inl ⟨List.mem_cons_of_mem u kept, differs⟩
        · refine .inr (.inl ⟨?_, same⟩)
          rw [List.map_cons, List.mem_cons, not_or]
          exact ⟨Ne.symm other, absent⟩
        · exact .inr (.inr ⟨w, List.mem_cons_of_mem u inside, same, noted⟩)

variable (lawful : Lawful key fresh note)
include lawful

theorem upsert_keys (values : List V) (k : K) :
    (upsert key fresh note values k).map key =
      if k ∈ values.map key then values.map key else values.map key ++ [k] := by
  induction values with
  | nil => simp [upsert, lawful.fresh_key]
  | cons v rest ih =>
    rw [upsert]
    by_cases here : key v = k
    · simp [here, lawful.note_key]
    · have other : ¬ k = key v := Ne.symm here
      rw [if_neg here, List.map_cons, ih, List.map_cons]
      simp only [List.mem_cons, other, false_or]
      split
      · rfl
      · rfl

theorem tally_keys (ks : List K) :
    ((tally key fresh note ks).map key).Nodup ∧
      ∀ k, k ∈ (tally key fresh note ks).map key ↔ k ∈ ks := by
  induction ks using List.reverseRecOn with
  | nil => simp [tally]
  | append_singleton ks k ih =>
    obtain ⟨distinct, same⟩ := ih
    rw [tally_snoc, upsert_keys lawful]
    split
    · rename_i known
      refine ⟨distinct, ?_⟩
      intro j
      rw [same, List.mem_append, List.mem_singleton]
      constructor
      · exact .inl
      · rintro (old | rfl)
        · exact old
        · exact (same _).mp known
    · rename_i unknown
      refine ⟨List.nodup_append.mpr ⟨distinct, List.nodup_singleton k, ?_⟩, ?_⟩
      · rintro j inside _ last rfl
        rw [List.mem_singleton.mp last] at inside
        exact unknown inside
      · intro j
        rw [List.mem_append, same, List.mem_append]

theorem tally_length (ks : List K) : (tally key fresh note ks).length = ks.dedup.length := by
  obtain ⟨distinct, same⟩ := tally_keys lawful ks
  have perm : ((tally key fresh note ks).map key).Perm ks.dedup := by
    apply (List.perm_ext_iff_of_nodup distinct (List.nodup_dedup ks)).mpr
    intro k
    rw [same, List.mem_dedup]
  rw [← perm.length_eq, List.length_map]

/-- A value has been noted once for every further time its key came up. -/
theorem tally_value (ks : List K) {v : V} (mem : v ∈ tally key fresh note ks) :
    v = note^[ks.count (key v) - 1] (fresh (key v)) := by
  induction ks using List.reverseRecOn generalizing v with
  | nil => cases mem
  | append_singleton ks k ih =>
    obtain ⟨distinct, same⟩ := tally_keys lawful ks
    rw [tally_snoc] at mem
    rw [List.count_append]
    rcases mem_upsert distinct mem with ⟨kept, differs⟩ | ⟨absent, rfl⟩ | ⟨w, inside, here, rfl⟩
    · have none_more : [k].count (key v) = 0 := List.count_eq_zero.mpr (by simpa using differs)
      rw [none_more]
      exact ih kept
    · have none_yet : ks.count k = 0 := List.count_eq_zero.mpr (mt (same k).mpr absent)
      rw [lawful.fresh_key, none_yet, List.count_singleton_self]
      rfl
    · have some_yet : 0 < ks.count k :=
        List.count_pos_iff.mpr ((same k).mp (here ▸ List.mem_map_of_mem inside))
      have before := ih inside
      rw [here] at before
      rw [lawful.note_key, here, List.count_singleton_self,
        show ks.count k + 1 - 1 = ks.count k - 1 + 1 by omega, Function.iterate_succ_apply',
          ← before]

end Tallies
