import Mathlib.Data.List.Basic

/- CountMinSketch and TinyLFU of the smart cache: a table of 32-bit counters, one row per
   seed, and the access counter that clears it. -/
namespace TinyLfu

/-- Rows and seeds come in step, and every row has `width` counters, so that the column a
    hash names exists as long as there are columns at all. -/
structure CountMinSketch where
  width : UInt32
  depth : UInt32
  table : List (List UInt32)
  seeds : List UInt32
  rows : table.length = depth.toNat
  columns : ∀ row ∈ table, row.length = width.toNat
  seeded : seeds.length = depth.toNat

def newSketch (width depth : UInt32) : CountMinSketch where
  width := width
  depth := depth
  table := List.replicate depth.toNat (List.replicate width.toNat 0)
  seeds := (List.range depth.toNat).map fun i => 2654435761 * (UInt32.ofNat i + 1)
  rows := by simp
  columns := by
    intro row member
    rw [List.eq_of_mem_replicate member]
    simp
  seeded := by simp

def hash (width : UInt32) (key : UInt64) (seed : UInt32) : UInt32 :=
  let h := key ^^^ seed.toUInt64
  let h := ((h >>> 16) ^^^ h) * 0x45d9f3b
  let h := ((h >>> 16) ^^^ h) * 0x45d9f3b
  let h := (h >>> 16) ^^^ h
  (h % width.toUInt64).toUInt32

def CountMinSketch.add (cm : CountMinSketch) (key : UInt64) (count : UInt32) : CountMinSketch :=
  { cm with
    table := cm.table.zipWith
      (fun row seed => row.modify (hash cm.width key seed).toNat (· + count)) cm.seeds
    rows := by simp [cm.rows, cm.seeded]
    columns := by
      intro row member
      obtain ⟨i, inside, rfl⟩ := List.mem_iff_getElem.mp member
      rw [List.getElem_zipWith, List.length_modify]
      exact cm.columns _ (List.getElem_mem _) }

/-- CountMinSketch::Estimate. The default of `getD` stands for a column that does not
    exist, which takes a width of zero. -/
def CountMinSketch.estimate (cm : CountMinSketch) (key : UInt64) : UInt32 :=
  (cm.table.zipWith (fun row seed => row.getD (hash cm.width key seed).toNat 0) cm.seeds).foldl
    min 0xFFFFFFFF

def CountMinSketch.reset (cm : CountMinSketch) : CountMinSketch :=
  { cm with
    table := cm.table.map fun row => row.map fun _ => 0
    rows := by simp [cm.rows]
    columns := by
      intro row member
      obtain ⟨old, inside, rfl⟩ := List.mem_map.mp member
      rw [List.length_map]
      exact cm.columns old inside }

structure TinyLFU where
  capacity : UInt32
  cm : CountMinSketch
  totalAccess : UInt64
  resetThreshold : UInt32

def newTinyLFU (capacity cmWidth cmDepth : UInt32) : TinyLFU :=
  ⟨capacity, newSketch cmWidth cmDepth, 0, capacity * 10⟩

def TinyLFU.access (t : TinyLFU) (key : UInt64) : TinyLFU :=
  let cm := t.cm.add key 1
  let totalAccess := t.totalAccess + 1
  if t.resetThreshold.toUInt64 ≤ totalAccess then { t with cm := cm.reset, totalAccess := 0 }
  else { t with cm := cm, totalAccess := totalAccess }

def TinyLFU.estimate (t : TinyLFU) (key : UInt64) : UInt32 := t.cm.estimate key

def TinyLFU.reset (t : TinyLFU) : TinyLFU := { t with cm := t.cm.reset, totalAccess := 0 }

end TinyLfu
