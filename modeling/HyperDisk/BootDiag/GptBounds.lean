import HyperDisk.BootDiag.GptCheck

/- Which disks make the first check read outside its partition buffer. The size of the buffer, the
   length of the checksummed bytes and the number of entries come from one count of the header,
   the first two modulo 2^32. -/
namespace GptBounds
open LittleEndian DiagChecks GptCheck

def numEntries (header : Bytes) : Nat := (le32 header 80).toNat

def arrayLength (header : Bytes) : UInt32 := le32 header 80 * le32 header 84

def arraySectors (header : Bytes) : Nat := ((arrayLength header + 511) / 512).toNat

def arrayCrc (partBuf header : Bytes) : UInt32 :=
  Checksums.bootdiagComputeCrc32c (partBuf.take (arrayLength header).toNat) (arrayLength header)

theorem arrayLength_eq {header : Bytes} (entrySize : le32 header 84 = 128) :
    (arrayLength header).toNat = 128 * (numEntries header % 2 ^ 25) := by
  rw [arrayLength, entrySize, UInt32.toNat_mul]
  change (le32 header 80).toNat * 128 % 2 ^ 32 = 128 * ((le32 header 80).toNat % 2 ^ 25)
  omega

theorem arraySectors_eq {header : Bytes} (entrySize : le32 header 84 = 128) :
    arraySectors header = (128 * (numEntries header % 2 ^ 25) + 511) % 2 ^ 32 / 512 := by
  rw [arraySectors, UInt32.toNat_div, UInt32.toNat_add, arrayLength_eq entrySize]
  rfl

theorem readEntries_length {d : Device} {left : Nat} {s : UInt32} {start partBuf : Bytes}
    (read : readEntries d left s start = .ok partBuf) :
    partBuf.length = start.length + 512 * left := by
  induction left generalizing s start with
  | zero =>
    cases read
    rfl
  | succ left ih =>
    rw [readEntries] at read
    split at read
    · cases read
    · rename_i sector found
      have size := d.sized _ _ _ found
      have rest := ih read
      rw [List.length_append, size] at rest
      change partBuf.length = start.length + 512 + 512 * left at rest
      omega

theorem scanEntries_isSome (partBuf : Bytes) (entrySize : UInt32) (left : Nat) (i : UInt32)
    (s : Scan) :
    (scanEntries partBuf entrySize left i s).isSome ↔
      ∀ k < left, ((i + UInt32.ofNat k) * entrySize).toNat + 16 ≤ partBuf.length := by
  induction left generalizing i s with
  | zero => simp [scanEntries]
  | succ left ih =>
    have next : ∀ k, i + UInt32.ofNat (k + 1) = i + 1 + UInt32.ofNat k := by
      intro k
      rw [UInt32.ofNat_add, UInt32.add_comm (UInt32.ofNat k), ← UInt32.add_assoc]
      rfl
    have here : i + UInt32.ofNat 0 = i := UInt32.add_zero i
    rw [scanEntries, slice]
    split
    · rename_i inside
      simp only [Option.bind_eq_bind, Option.bind_some, ih]
      constructor
      · intro later k below
        cases k with
        | zero => rw [here]; exact inside
        | succ k => rw [next]; exact later k (Nat.lt_of_succ_lt_succ below)
      · intro all k below
        rw [← next]
        exact all (k + 1) (Nat.succ_lt_succ below)
    · rename_i outside
      simp only [Option.bind_eq_bind, Option.bind_none, Option.isSome_none, Bool.false_eq_true,
        false_iff]
      intro all
      have first := all 0 (Nat.succ_pos _)
      rw [here] at first
      exact outside first

section Array
variable {d : Device} {r : BootdiagResult} {header partBuf : Bytes}
  (entrySize : le32 header 84 = 128)
  (read : readEntries d (arraySectors header) 0 [] = .ok partBuf)
include entrySize read

theorem array_inside_iff :
    0 + (arrayLength header).toNat ≤ partBuf.length ↔ numEntries header % 2 ^ 25 < 2 ^ 25 - 3 := by
  rw [readEntries_length read, arraySectors_eq entrySize, arrayLength_eq entrySize, List.length_nil]
  omega

theorem entries_inside_iff (inside : numEntries header % 2 ^ 25 < 2 ^ 25 - 3) (s : Scan) :
    (scanEntries partBuf (le32 header 84) (le32 header 80).toNat 0 s).isSome ↔
      numEntries header < 2 ^ 25 := by
  have size : partBuf.length =
      512 * ((128 * (numEntries header % 2 ^ 25) + 511) % 2 ^ 32 / 512) := by
    rw [readEntries_length read, arraySectors_eq entrySize, List.length_nil, Nat.zero_add]
  have offset : ∀ k, ((0 + UInt32.ofNat k) * le32 header 84).toNat = k * 128 % 2 ^ 32 := by
    intro k
    rw [entrySize, UInt32.zero_add, UInt32.toNat_mul, UInt32.toNat_ofNat']
    change k % 2 ^ 32 * 128 % 2 ^ 32 = _
    omega
  rw [scanEntries_isSome]
  simp only [offset, size]
  change (∀ k < numEntries header, _) ↔ _
  constructor
  · intro all
    by_contra many
    have last := all (2 ^ 25 - 1) (by omega)
    omega
  · intro few k below
    omega

theorem checkArray_isSome_iff (mallocs : Bool) :
    (checkArray d mallocs r header).isSome ↔ mallocs = true →
      numEntries header % 2 ^ 25 < 2 ^ 25 - 3 ∧
        (numEntries header < 2 ^ 25 ∨
          arrayCrc partBuf header ≠ le32 header 88) := by
  cases mallocs with
  | false => simp [checkArray]
  | true =>
    have found : readEntries d ((le32 header 80 * le32 header 84 + 511) / 512).toNat 0 [] =
        .ok partBuf := read
    unfold checkArray
    dsimp only
    rw [found]
    change ((slice partBuf 0 (arrayLength header).toNat).bind fun array => _).isSome = true ↔ _
    rw [slice]
    by_cases inside : numEntries header % 2 ^ 25 < 2 ^ 25 - 3
    · rw [if_pos ((array_inside_iff entrySize read).mpr inside), Option.bind_some, List.drop_zero]
      change (if arrayCrc partBuf header ≠ le32 header 88 then _
        else (scanEntries partBuf (le32 header 84) (le32 header 80).toNat 0 _).bind _ :
          Option (UInt32 × BootdiagResult)).isSome = true ↔ _
      simp only [inside, true_and, true_implies]
      split
      · rename_i differs
        simp only [Option.isSome_some, differs, not_false_eq_true, or_true, ne_eq]
      · rename_i same
        rw [← entries_inside_iff entrySize read inside ⟨0, false, false, false⟩]
        simp only [same, or_false]
        cases scanEntries partBuf (le32 header 84) (le32 header 80).toNat 0 ⟨0, false,
          false, false⟩ with
        | none => rfl
        | some s => rfl
    · rw [if_neg (mt (array_inside_iff entrySize read).mp inside)]
      constructor
      · intro done
        cases done
      · intro bounds
        exact absurd (bounds rfl).1 inside

end Array

/-- The check stays inside its buffer for every disk but those whose array it reaches with a count
    that leaves nothing allocated, or with a count of 2^25 or more and the checksum of what the
    count wraps to. -/
theorem reads_inside_iff (d : Device) (mallocs : Bool) (r : BootdiagResult) :
    (bootdiagV1Gpt d mallocs r).isSome ↔
      ∀ header partBuf, Reaches d header → mallocs = true →
        readEntries d (arraySectors header) 0 [] = .ok partBuf →
        numEntries header % 2 ^ 25 < 2 ^ 25 - 3 ∧
          (numEntries header < 2 ^ 25 ∨ arrayCrc partBuf header ≠ le32 header 88) := by
  rcases gpt_cases d mallocs r with ⟨header, reaches, checked⟩ | ⟨never, code, detail, failed⟩
  · have only : ∀ other, Reaches d other → other = header := by
      intro other reaches'
      exact Except.ok.inj (reaches'.read.symm.trans reaches.read)
    rw [checked]
    constructor
    · intro inside other partBuf reaches' allocated read
      rw [only other reaches'] at read ⊢
      exact (checkArray_isSome_iff reaches.entrySize read mallocs).mp inside allocated
    · intro bounds
      cases read : readEntries d (arraySectors header) 0 [] with
      | ok partBuf =>
        apply (checkArray_isSome_iff reaches.entrySize read mallocs).mpr
        intro allocated
        exact bounds header partBuf reaches allocated read
      | error lba =>
        have failed : readEntries d ((le32 header 80 * le32 header 84 + 511) / 512).toNat 0 [] =
            .error lba :=
          read
        unfold checkArray
        dsimp only
        rw [failed]
        cases mallocs with
        | false => rfl
        | true => rfl
  · rw [failed]
    apply iff_of_true rfl
    intro header _ reaches
    exact absurd reaches (never header)

def wrapMbr : Bytes := List.replicate 446 0 ++ (0xEE :: (List.replicate 63 0 ++ [0xAA, 0x55]))

def wrapHeader (count crc : Nat) : Bytes :=
  text "EFI PART" ++ (store 4 0x10000 ++ (store 4 92 ++ (store 4 crc ++ (store 4 0 ++ (store 8 1 ++
    (store 8 2 ++ (store 8 34 ++ (store 8 2014 ++ (List.replicate 16 7 ++ (store 8 2 ++
      (store 4 count ++ (store 4 128 ++ (store 4 0 ++ List.replicate 420 0)))))))))))))

def wrapDisk (count crc : Nat) : Bytes := wrapMbr ++ wrapHeader count crc

/-- A count of 2^25 is an empty array of 2^25 entries; with 2^25 - 1 nothing is allocated for
    2^32 - 128 bytes. -/
theorem wrapped_count_outside :
    bootdiagV1Gpt (imageDevice (wrapDisk 0x2000000 0xDADA4D98)) true freshResult = none ∧
      bootdiagV1Gpt (imageDevice (wrapDisk 0x1FFFFFF 0x804FBF99)) true freshResult = none := by
  decide +kernel

end GptBounds
