import Mathlib.Algebra.Group.Nat.Defs
import HyperDisk.Foundations.WordCounters
import HyperDisk.SmartCache.TinyLfu

/- The counters of the frequency sketch stay at or below the number of accesses since the last
   reset, and the threshold keeps that below UINT32_MAX. -/
namespace SketchBounds
open TinyLfu

def AtMost (cm : CountMinSketch) (n : Nat) : Prop := ∀ row ∈ cm.table, ∀ c ∈ row, c.toNat ≤ n

/-- A sketch with at least one row, as the cache uses it, whose counters are bounded by the
    access count; that count is zero or below the threshold. -/
structure Bounded (t : TinyLFU) : Prop where
  rows : t.cm.depth ≠ 0
  counters : AtMost t.cm t.totalAccess.toNat
  below : t.totalAccess = 0 ∨ t.totalAccess.toNat < t.resetThreshold.toNat

theorem newTinyLFU_bounded (capacity : UInt32) : Bounded (newTinyLFU capacity 256 4) := by
  constructor
  · show (4 : UInt32) ≠ 0
    decide
  · intro row member c counter
    rw [List.eq_of_mem_replicate member] at counter
    rw [List.eq_of_mem_replicate counter]
    exact Nat.zero_le _
  · exact Or.inl rfl

theorem add_atMost {cm : CountMinSketch} {n : Nat} (key : UInt64) (h : AtMost cm n)
    (small : n + 1 < 2 ^ 32) : AtMost (cm.add key 1) (n + 1) := by
  intro row member c counter
  obtain ⟨i, inside, rfl⟩ := List.mem_iff_getElem.mp member
  simp only [CountMinSketch.add, List.getElem_zipWith] at counter
  obtain ⟨j, column, rfl⟩ := List.mem_iff_getElem.mp counter
  rw [List.getElem_modify]
  rw [List.length_modify] at column
  have old := h _ (List.getElem_mem _) _ (List.getElem_mem column)
  split
  · rw [WordCounters.succ_of_room (by omega)]
    omega
  · omega

theorem reset_atMost (cm : CountMinSketch) (n : Nat) : AtMost cm.reset n := by
  intro row member c counter
  obtain ⟨old, _, rfl⟩ := List.mem_map.mp member
  obtain ⟨_, _, rfl⟩ := List.mem_map.mp counter
  exact Nat.zero_le n

theorem access_bounded {t : TinyLFU} (key : UInt64) (h : Bounded t) : Bounded (t.access key) := by
  have limit := t.resetThreshold.toNat_lt
  have count : t.totalAccess.toNat + 1 < 2 ^ 32 := by
    rcases h.below with zero | below
    · rw [zero]
      decide
    · omega
  have next : (t.totalAccess + 1).toNat = t.totalAccess.toNat + 1 :=
    WordCounters.succ64_of_room (by omega)
  unfold TinyLFU.access
  dsimp only
  split
  · exact ⟨h.rows, reset_atMost _ _, Or.inl rfl⟩
  · rename_i under
    refine ⟨h.rows, ?_, Or.inr ?_⟩
    · dsimp only
      rw [next]
      exact add_atMost key h.counters count
    · rw [UInt64.le_iff_toNat_le, UInt32.toNat_toUInt64] at under
      exact Nat.lt_of_not_le under

theorem foldl_min_le (cs : List UInt32) (start : UInt32) :
    cs.foldl min start ≤ start ∧ ∀ c ∈ cs, cs.foldl min start ≤ c := by
  have least : ∀ a b : UInt32, min a b ≤ a ∧ min a b ≤ b := by
    intro a b
    change (if a ≤ b then a else b) ≤ a ∧ (if a ≤ b then a else b) ≤ b
    split
    · rename_i le
      exact ⟨UInt32.le_refl a, le⟩
    · rename_i gt
      exact ⟨(UInt32.le_total a b).resolve_left gt, UInt32.le_refl b⟩
  induction cs generalizing start with
  | nil => exact ⟨UInt32.le_refl start, fun c none => by cases none⟩
  | cons c cs ih =>
    obtain ⟨first, rest⟩ := ih (min start c)
    refine ⟨UInt32.le_trans first (least start c).1, fun d member => ?_⟩
    rcases List.mem_cons.mp member with rfl | later
    · exact UInt32.le_trans first (least start d).2
    · exact rest d later

/-- No estimate reaches the UINT32_MAX that EvictOne starts its search from. -/
theorem estimate_lt {t : TinyLFU} (key : UInt64) (h : Bounded t) :
    t.estimate key < 0xFFFFFFFF := by
  have limit := t.resetThreshold.toNat_lt
  have some : 0 < t.cm.depth.toNat :=
    Nat.pos_of_ne_zero fun zero => h.rows (UInt32.toNat_inj.mp zero)
  have rows := t.cm.rows
  have seeds := t.cm.seeded
  have first : 0 < t.cm.table.length := by omega
  have seed : 0 < t.cm.seeds.length := by omega
  have row : t.cm.table[0] ∈ t.cm.table := List.getElem_mem first
  have counter : (t.cm.table[0].getD (hash t.cm.width key t.cm.seeds[0]).toNat 0).toNat ≤
      t.totalAccess.toNat := by
    rw [List.getD_eq_getElem?_getD]
    cases found : t.cm.table[0][(hash t.cm.width key t.cm.seeds[0]).toNat]? with
    | none => exact Nat.zero_le _
    | some c => exact h.counters _ row c (List.mem_of_getElem? found)
  have least := (foldl_min_le (t.cm.table.zipWith (fun row seed =>
    row.getD (hash t.cm.width key seed).toNat 0) t.cm.seeds) 0xFFFFFFFF).2 _
    (List.mem_iff_getElem.mpr ⟨0, by rw [List.length_zipWith]; omega, List.getElem_zipWith⟩)
  have bound := UInt32.le_iff_toNat_le.mp least
  rw [UInt32.lt_iff_toNat_lt]
  show (t.cm.estimate key).toNat < 4294967295
  unfold CountMinSketch.estimate
  rcases h.below with zero | below
  · rw [zero] at counter
    have none : (0 : UInt64).toNat = 0 := rfl
    omega
  · omega

end SketchBounds
