import Mathlib.Algebra.Group.Nat.Defs
import HyperDisk.Foundations.StepRuns
import HyperDisk.Foundations.WordCounters
import HyperDisk.SmartCache.SketchBounds
import HyperDisk.SmartCache.TinyLfu

/- What the frequency sketch knows. Every counter is the number of the accesses since the last
   reset that fell on it, so the least counter of a key lies between its own accesses and all
   of them. -/
namespace SketchSoundness
open StepRuns WordCounters TinyLfu SketchBounds

inductive Call where
  | access (key : UInt64)
  | reset
  deriving DecidableEq, Repr

def callStep (t : TinyLFU) : Call → TinyLFU
  | .access key => t.access key
  | .reset => t.reset

/-- The keys accessed since the last reset; an access that makes them as many as the threshold
    is itself followed by a reset. -/
def sinceReset (threshold : Nat) (keys : List UInt64) : Call → List UInt64
  | .access key => if threshold ≤ keys.length + 1 then [] else key :: keys
  | .reset => []

def hits (width seed : UInt32) (keys : List UInt64) (j : Nat) : Nat :=
  keys.countP fun key => (hash width key seed).toNat = j

def Exact (cm : CountMinSketch) (keys : List UInt64) : Prop :=
  ∀ (i : Nat) (row : List UInt32) (seed : UInt32), cm.table[i]? = some row →
    cm.seeds[i]? = some seed → ∀ (j : Nat) (c : UInt32), row[j]? = some c →
      c.toNat = hits cm.width seed keys j

structure Tracks (threshold : Nat) (t : TinyLFU) (keys : List UInt64) : Prop where
  columns : 1 ≤ t.cm.width.toNat
  rows : 1 ≤ t.cm.depth.toNat
  counters : Exact t.cm keys
  total : t.totalAccess.toNat = keys.length
  limit : t.resetThreshold.toNat = threshold
  below : keys.length < threshold

variable {threshold : Nat} {t : TinyLFU} {cm : CountMinSketch} {keys : List UInt64}

theorem hits_le (width seed : UInt32) (keys : List UInt64) (j : Nat) :
    hits width seed keys j ≤ keys.length := List.countP_le_length

theorem count_le_hits (width seed : UInt32) (keys : List UInt64) (key : UInt64) :
    keys.count key ≤ hits width seed keys (hash width key seed).toNat := by
  apply List.countP_mono_left
  intro k _ same
  rw [beq_iff_eq.mp same]
  exact decide_eq_true rfl

theorem newSketch_exact (width depth : UInt32) : Exact (newSketch width depth) [] := by
  intro i row seed table _ j c counter
  rw [List.eq_of_mem_replicate (List.mem_of_getElem? table)] at counter
  rw [List.eq_of_mem_replicate (List.mem_of_getElem? counter)]
  rfl

theorem reset_exact (cm : CountMinSketch) : Exact cm.reset [] := by
  intro i row seed table _ j c counter
  obtain ⟨old, _, rfl⟩ := List.mem_map.mp (List.mem_of_getElem? table)
  obtain ⟨_, _, rfl⟩ := List.mem_map.mp (List.mem_of_getElem? counter)
  rfl

theorem add_exact (key : UInt64) (h : Exact cm keys) (room : keys.length + 1 < 2 ^ 32) :
    Exact (cm.add key 1) (key :: keys) := by
  intro i row seed table seeded j c counter
  obtain ⟨old, seed', found, at_i, rfl⟩ := List.getElem?_zipWith_eq_some.mp table
  have same : seed' = seed := Option.some.inj (at_i.symm.trans seeded)
  subst same
  rw [List.getElem?_modify] at counter
  obtain ⟨before, stood, rfl⟩ := Option.map_eq_some_iff.mp counter
  have count := h i old seed' found at_i j before stood
  have bound := hits_le cm.width seed' keys j
  show _ = hits cm.width seed' (key :: keys) j
  rw [hits, List.countP_cons, ← hits, ← count]
  split
  · rename_i here
    rw [succ_of_room (by omega), if_pos (decide_eq_true here)]
  · rename_i elsewhere
    rw [if_neg (by simpa using elsewhere), Nat.add_zero]

theorem newTinyLFU_tracks {capacity width depth : UInt32} (some : 1 ≤ capacity.toNat)
    (small : 10 * capacity.toNat < 2 ^ 32) (columns : 1 ≤ width.toNat) (rows : 1 ≤ depth.toNat) :
    Tracks (10 * capacity.toNat) (newTinyLFU capacity width depth) [] := by
  constructor
  · exact columns
  · exact rows
  · exact newSketch_exact width depth
  · rfl
  · have product : (capacity * 10).toNat = capacity.toNat * 10 % 2 ^ 32 :=
      UInt32.toNat_mul capacity 10
    rw [newTinyLFU, product]
    omega
  · exact Nat.mul_pos (by decide) some

theorem reset_tracks (h : Tracks threshold t keys) : Tracks threshold t.reset [] := by
  constructor
  · exact h.columns
  · exact h.rows
  · exact reset_exact t.cm
  · rfl
  · exact h.limit
  · exact Nat.zero_lt_of_lt h.below

theorem access_tracks (key : UInt64) (h : Tracks threshold t keys) :
    Tracks threshold (t.access key) (sinceReset threshold keys (.access key)) := by
  have word := t.resetThreshold.toNat_lt
  have limit := h.limit
  have below := h.below
  have next : (t.totalAccess + 1).toNat = keys.length + 1 := by
    rw [succ64_of_room (by rw [h.total]; omega), h.total]
  have test : t.resetThreshold.toUInt64 ≤ t.totalAccess + 1 ↔ threshold ≤ keys.length + 1 := by
    rw [UInt64.le_iff_toNat_le, UInt32.toNat_toUInt64, next, limit]
  unfold TinyLFU.access
  rw [sinceReset]
  by_cases reached : threshold ≤ keys.length + 1
  · rw [if_pos (test.mpr reached), if_pos reached]
    exact ⟨h.columns, h.rows, reset_exact _, rfl, limit, Nat.zero_lt_of_lt below⟩
  · rw [if_neg (mt test.mp reached), if_neg reached]
    exact ⟨h.columns, h.rows, add_exact key h.counters (by omega), next, limit,
      Nat.lt_of_not_le reached⟩

theorem callStep_tracks (call : Call) (h : Tracks threshold t keys) :
    Tracks threshold (callStep t call) (sinceReset threshold keys call) := by
  cases call with
  | access key => exact access_tracks key h
  | reset => exact reset_tracks h

theorem calls_track (calls : List Call) (h : Tracks threshold t keys) :
    Tracks threshold (run callStep t calls) (run (sinceReset threshold) keys calls) := by
  induction calls generalizing t keys with
  | nil => exact h
  | cons call calls ih => exact ih (callStep_tracks call h)

theorem hash_lt {width : UInt32} (columns : 1 ≤ width.toNat) (key : UInt64) (seed : UInt32) :
    (TinyLfu.hash width key seed).toNat < width.toNat := by
  unfold TinyLfu.hash
  dsimp only
  rw [UInt64.toNat_toUInt32, UInt64.toNat_mod, UInt32.toNat_toUInt64]
  exact Nat.lt_of_le_of_lt (Nat.mod_le _ _) (Nat.mod_lt _ columns)

theorem le_foldl_min {m : Nat} (cs : List UInt32) (start : UInt32) (first : m ≤ start.toNat)
    (every : ∀ c ∈ cs, m ≤ c.toNat) : m ≤ (cs.foldl min start).toNat := by
  induction cs generalizing start with
  | nil => exact first
  | cons c cs ih =>
    apply ih
    · change m ≤ (if start ≤ c then start else c).toNat
      split
      · exact first
      · exact every c (by simp)
    · intro d member
      exact every d (by simp [member])

theorem counter_between (h : Exact cm keys) (columns : 1 ≤ cm.width.toNat) (key : UInt64)
    (c : UInt32)
    (read : c ∈ cm.table.zipWith (fun row seed =>
      row.getD (hash cm.width key seed).toNat 0) cm.seeds) :
    keys.count key ≤ c.toNat ∧ c.toNat ≤ keys.length := by
  obtain ⟨i, found⟩ := List.mem_iff_getElem?.mp read
  obtain ⟨row, seed, table, seeded, rfl⟩ := List.getElem?_zipWith_eq_some.mp found
  have size := cm.columns row (List.mem_of_getElem? table)
  have inside : (hash cm.width key seed).toNat < row.length := by
    rw [size]
    exact hash_lt columns key seed
  have counter := List.getElem?_eq_getElem inside
  have count := h i row seed table seeded _ _ counter
  rw [List.getD_eq_getElem?_getD, counter, Option.getD_some, count]
  exact ⟨count_le_hits _ _ _ _, hits_le _ _ _ _⟩

theorem estimate_between (h : Exact cm keys) (few : keys.length < 2 ^ 32)
    (columns : 1 ≤ cm.width.toNat) (rows : 1 ≤ cm.depth.toNat) (key : UInt64) :
    keys.count key ≤ (cm.estimate key).toNat ∧ (cm.estimate key).toNat ≤ keys.length := by
  have between := counter_between h columns key
  unfold CountMinSketch.estimate
  generalize counters : cm.table.zipWith _ cm.seeds = cs at between ⊢
  have some : 0 < cs.length := by
    rw [← counters, List.length_zipWith, cm.rows, cm.seeded]
    omega
  constructor
  · apply le_foldl_min
    · have most : keys.count key ≤ keys.length := List.count_le_length
      show _ ≤ 4294967295
      omega
    · intro c member
      exact (between c member).1
  · have least := (foldl_min_le cs 0xFFFFFFFF).2 _ (List.getElem_mem some)
    exact Nat.le_trans (UInt32.le_iff_toNat_le.mp least) (between _ (List.getElem_mem some)).2

/-- Between the resets, an estimate is at least the accesses of its key and at most all of them,
    which stay below the threshold, and no counter wraps. -/
theorem estimate_sound (capacity width depth : UInt32) (calls : List Call) (key : UInt64)
    (some : 1 ≤ capacity.toNat) (small : 10 * capacity.toNat < 2 ^ 32) (columns : 1 ≤ width.toNat)
    (rows : 1 ≤ depth.toNat) :
    let t := run callStep (newTinyLFU capacity width depth) calls
    let keys := run (sinceReset (10 * capacity.toNat)) [] calls
    keys.count key ≤ (t.estimate key).toNat ∧ (t.estimate key).toNat ≤ keys.length ∧
      keys.length < t.resetThreshold.toNat ∧ Exact t.cm keys := by
  have tracks := calls_track calls (newTinyLFU_tracks some small columns rows)
  have few := Nat.lt_trans tracks.below small
  obtain ⟨least, most⟩ := estimate_between tracks.counters few tracks.columns tracks.rows key
  refine ⟨least, most, ?_, tracks.counters⟩
  rw [tracks.limit]
  exact tracks.below

theorem estimate_sound_colliding :
    let t := run callStep (newTinyLFU 1 1 2) [.access 5, .reset, .access 7, .access 5]
    1 ≤ (t.estimate 5).toNat ∧ (t.estimate 5).toNat ≤ 2 ∧ 2 < t.resetThreshold.toNat := by
  obtain ⟨least, most, below, _⟩ := estimate_sound 1 1 2 [.access 5, .reset, .access 7, .access 5] 5
    (by decide) (by decide) (by decide) (by decide)
  exact ⟨least, most, below⟩

end SketchSoundness
