import Mathlib.Data.Nat.ModEq
import HyperDisk.Driver.BlkDispatch

/- Which bytes of the disk a transfer reaches: the block requests that blk_io.c derives from
   an offset and a length, and the range check of the two stand-alone disk drivers
   (wdm_disk_driver.c, pnp_disk_driver.c). -/
namespace TransferRanges
open BlkDispatch

theorem toUInt64_eq (x : Int64) :
    (x.toUInt64.toNat : Int) = if x.toInt < 0 then x.toInt + 2 ^ 64 else x.toInt := by
  have word : x.toInt = if 2 * x.toUInt64.toNat < 2 ^ 64 then (x.toUInt64.toNat : Int)
      else (x.toUInt64.toNat : Int) - (2 ^ 64 : Nat) := BitVec.toInt_eq_toNat_cond x.toBitVec
  have small := x.toUInt64.toNat_lt
  split at word <;> split <;> omega

theorem toInt64_eq {x : UInt64} (small : x.toNat < 2 ^ 63) : x.toInt64.toInt = x.toNat := by
  have word := toUInt64_eq x.toInt64
  have low := x.toInt64.le_toInt
  rw [UInt64.toUInt64_toInt64] at word
  split at word <;> omega

theorem divideOffset_eq {offset : Int64} {blockSize : UInt32} (nonneg : 0 ≤ offset.toInt)
    (nonzero : blockSize ≠ 0) :
    ∃ quotient, divideOffset offset blockSize = some quotient ∧
      quotient.toNat = offset.toInt.toNat / blockSize.toNat := by
  have small := blockSize.toNat_lt
  have divisor : blockSize.toUInt64.toInt64.toInt = blockSize.toNat := by
    rw [toInt64_eq (by rw [UInt32.toNat_toUInt64]; omega), UInt32.toNat_toUInt64]
  have regular : offset ≠ Int64.minValue := by
    rintro rfl
    exact absurd nonneg (by decide)
  have quotient : (offset / blockSize.toUInt64.toInt64).toInt =
      ((offset.toInt.toNat / blockSize.toNat : Nat) : Int) := by
    rw [Int64.toInt_div_of_ne_left _ _ regular, divisor, Int.tdiv_eq_ediv_of_nonneg nonneg,
      Int.natCast_ediv, Int.toNat_of_nonneg nonneg]
  refine ⟨_, if_neg nonzero, ?_⟩
  have word := toUInt64_eq (offset / blockSize.toUInt64.toInt64)
  rw [quotient, if_neg (Int.not_lt.mpr (Int.natCast_nonneg _))] at word
  exact Int.ofNat.inj word

structure Covers (blockSize : UInt32) (byteOffset : Int64) (length : UInt32)
    (request : BlockRequest) : Prop where
  starts : (request.blockOffset.toNat * blockSize.toNat : Nat) ≤ byteOffset.toInt
  ends : byteOffset.toInt + length.toNat ≤
    ((request.blockOffset.toNat + request.blockCount.toNat) * blockSize.toNat : Nat)

theorem rounded_covers_iff (offset length size : Nat) :
    offset + length ≤ (offset / size + length / size) * size ↔ size ∣ offset ∧ size ∣ length := by
  have first := Nat.div_add_mod' offset size
  have second := Nat.div_add_mod' length size
  rw [Nat.dvd_iff_mod_eq_zero, Nat.dvd_iff_mod_eq_zero, Nat.add_mul]
  omega

theorem transfer_covers_iff {ext : BlkExtension} (nonzero : ext.blockSize ≠ 0) {byteOffset : Int64}
    (nonneg : 0 ≤ byteOffset.toInt) (length : UInt32) (isWrite : UInt8) :
    ∃ reply request, transfer isWrite ext byteOffset length = some (reply, ext) ∧
      reply.submitted = some request ∧
      (Covers ext.blockSize byteOffset length request ↔
        ext.blockSize.toNat ∣ byteOffset.toInt.toNat ∧ ext.blockSize.toNat ∣ length.toNat) := by
  obtain ⟨quotient, divided, value⟩ := divideOffset_eq nonneg nonzero
  have counted : divideLength length ext.blockSize = some (length / ext.blockSize) := if_neg nonzero
  let request : BlockRequest := ⟨ext.imageId, quotient, length / ext.blockSize,
    ext.layerId, isWrite⟩
  refine ⟨⟨.pending, none, some request, none⟩, request, ?_, rfl, ?_⟩
  · simp only [transfer, divided, counted, submitBlockRequest, ntSuccess]
    rfl
  · have place : byteOffset.toInt = (byteOffset.toInt.toNat : Int) :=
      (Int.toNat_of_nonneg nonneg).symm
    have below := Nat.div_mul_le_self byteOffset.toInt.toNat ext.blockSize.toNat
    rw [← rounded_covers_iff]
    constructor
    · intro covers
      have ends := covers.ends
      rw [place, value, UInt32.toNat_div] at ends
      exact_mod_cast ends
    · intro fits
      constructor
      · rw [place, value]
        exact_mod_cast below
      · rw [place, value, UInt32.toNat_div]
        exact_mod_cast fits

/-- Both dispatch routines round the offset and the length down separately, so the blocks hold
    the bytes exactly when both are multiples of the block size. -/
theorem request_covers_iff (ext : BlkExtension) (byteOffset : Int64) (length : UInt32)
    (nonzero : 0 < ext.blockSize) (nonneg : 0 ≤ byteOffset.toInt) :
    ∀ dispatch ∈ [dispatchRead, dispatchWrite], ∃ reply request,
      dispatch ext byteOffset length = some (reply, ext) ∧ reply.submitted = some request ∧
      (Covers ext.blockSize byteOffset length request ↔
        ext.blockSize.toNat ∣ byteOffset.toInt.toNat ∧ ext.blockSize.toNat ∣ length.toNat) := by
  have positive : ext.blockSize ≠ 0 := (UInt32.ne_of_lt nonzero).symm
  intro dispatch member
  simp only [List.mem_cons, List.not_mem_nil, or_false] at member
  rcases member with rfl | rfl
  · exact transfer_covers_iff positive nonneg length 0
  · exact transfer_covers_iff positive nonneg length 1

theorem aligned_request_covers :
    ∃ reply request,
      dispatchRead { zeroExtension with blockSize := 4096 } 8192 4096 =
        some (reply, { zeroExtension with blockSize := 4096 }) ∧
      reply.submitted = some request ∧ Covers 4096 8192 4096 request := by
  obtain ⟨reply, request, done, submitted, covers⟩ :=
    request_covers_iff { zeroExtension with blockSize := 4096 } 8192 4096 (by decide) (by decide)
      dispatchRead List.mem_cons_self
  exact ⟨reply, request, done, submitted, covers.mpr (by decide)⟩

theorem unaligned_request_short :
    (∃ reply request, dispatchRead { zeroExtension with blockSize := 4096 } 0 512 =
        some (reply, { zeroExtension with blockSize := 4096 }) ∧
      reply.submitted = some request ∧ ¬ Covers 4096 0 512 request) ∧
    ∃ reply request, dispatchWrite { zeroExtension with blockSize := 4096 } 512 4096 =
        some (reply, { zeroExtension with blockSize := 4096 }) ∧
      reply.submitted = some request ∧ ¬ Covers 4096 512 4096 request := by
  constructor
  · refine ⟨⟨.pending, none, some ⟨0, 0, 0, 0, 0⟩, none⟩, ⟨0, 0, 0, 0, 0⟩, by decide, rfl, ?_⟩
    intro covers
    exact absurd covers.ends (by decide)
  · refine ⟨⟨.pending, none, some ⟨0, 0, 1, 0, 1⟩, none⟩, ⟨0, 0, 1, 0, 1⟩, by decide, rfl, ?_⟩
    intro covers
    exact absurd covers.ends (by decide)

inductive DiskStatus where
  | success
  | invalidParameter
  deriving DecidableEq, Repr

structure Completion where
  status : DiskStatus
  information : UInt32
  deriving DecidableEq, Repr

/-- The sum is a ULONGLONG, so it wraps and both sides are compared unsigned. -/
def completeWithin (limit : UInt64) (byteOffset : Int64) (length : UInt32) : Completion :=
  if limit < byteOffset.toUInt64 + length.toUInt64 then ⟨.invalidParameter, 0⟩
  else ⟨.success, length⟩

-- The WDM driver casts DiskSize to LONGLONG, which the comparison undoes.
def wdmDispatchRead (diskSize : UInt64) : Int64 → UInt32 → Completion :=
  completeWithin diskSize.toInt64.toUInt64

def wdmDispatchWrite (diskSize : UInt64) : Int64 → UInt32 → Completion :=
  completeWithin diskSize.toInt64.toUInt64

def pnpDispatchRead (diskSize : UInt64) : Int64 → UInt32 → Completion := completeWithin diskSize
def pnpDispatchWrite (diskSize : UInt64) : Int64 → UInt32 → Completion := completeWithin diskSize

def Straddles (diskSize : UInt64) (byteOffset : Int64) (length : UInt32) : Prop :=
  byteOffset.toInt < 0 ∧ 0 ≤ byteOffset.toInt + length.toNat ∧
    byteOffset.toInt + length.toNat ≤ diskSize.toNat

theorem completeWithin_success_iff {diskSize : UInt64} (small : diskSize.toNat < 2 ^ 63)
    (byteOffset : Int64) (length : UInt32) :
    (completeWithin diskSize byteOffset length).status = .success ↔
      0 ≤ byteOffset.toInt ∧ byteOffset.toInt + length.toNat ≤ diskSize.toNat ∨
        Straddles diskSize byteOffset length := by
  have low := byteOffset.le_toInt
  have high := byteOffset.toInt_lt
  have short := length.toNat_lt
  have start := toUInt64_eq byteOffset
  have stop : (byteOffset.toUInt64 + length.toUInt64).toNat =
      (byteOffset.toUInt64.toNat + length.toNat) % 2 ^ 64 := by
    rw [UInt64.toNat_add, UInt32.toNat_toUInt64]
  have fits : (completeWithin diskSize byteOffset length).status = .success ↔
      (byteOffset.toUInt64 + length.toUInt64).toNat ≤ diskSize.toNat := by
    unfold completeWithin
    split
    · rename_i beyond
      exact iff_of_false (by decide) (Nat.not_le.mpr (UInt64.lt_iff_toNat_lt.mp beyond))
    · rename_i inside
      exact iff_of_true rfl (Nat.not_lt.mp (mt UInt64.lt_iff_toNat_lt.mpr inside))
  rw [fits, stop, Straddles]
  split at start <;> omega

/-- The four routines agree, and their verdict is the exact one unless the transfer begins before
    the disk and ends inside it: then the unsigned sum has wrapped and they report success. -/
theorem range_check_iff (diskSize : UInt64) (byteOffset : Int64) (length : UInt32)
    (small : diskSize.toNat < 2 ^ 63) :
    ∀ dispatch ∈ [wdmDispatchRead, wdmDispatchWrite, pnpDispatchRead, pnpDispatchWrite],
      dispatch diskSize byteOffset length = pnpDispatchRead diskSize byteOffset length ∧
      (((dispatch diskSize byteOffset length).status = .success ↔
          0 ≤ byteOffset.toInt ∧ byteOffset.toInt + length.toNat ≤ diskSize.toNat) ↔
        ¬ Straddles diskSize byteOffset length) := by
  have exact_iff : ((completeWithin diskSize byteOffset length).status = .success ↔
      0 ≤ byteOffset.toInt ∧ byteOffset.toInt + length.toNat ≤ diskSize.toNat) ↔
      ¬ Straddles diskSize byteOffset length := by
    rw [completeWithin_success_iff small]
    constructor
    · intro same straddles
      have inside := same.mp (Or.inr straddles)
      exact absurd inside.1 (Int.not_le.mpr straddles.1)
    · intro regular
      exact or_iff_left regular
  intro dispatch member
  have same : dispatch diskSize byteOffset length = completeWithin diskSize byteOffset length := by
    simp only [List.mem_cons, List.not_mem_nil, or_false] at member
    rcases member with rfl | rfl | rfl | rfl
    · rw [wdmDispatchRead, UInt64.toUInt64_toInt64]
    · rw [wdmDispatchWrite, UInt64.toUInt64_toInt64]
    · rfl
    · rfl
  rw [same]
  exact ⟨rfl, exact_iff⟩

theorem last_sector_in_range :
    (wdmDispatchWrite 1048576 1048064 512).status = .success ↔
      0 ≤ (1048064 : Int64).toInt ∧ (1048064 : Int64).toInt + (512 : UInt32).toNat ≤
        (1048576 : UInt64).toNat :=
  (range_check_iff 1048576 1048064 512 (by decide) wdmDispatchWrite (by simp)).2.mpr
    (by unfold Straddles; decide)

theorem negative_offset_accepted :
    wdmDispatchRead 1048576 (-256) 512 = ⟨.success, 512⟩ ∧
      pnpDispatchWrite 1048576 (-256) 512 = ⟨.success, 512⟩ ∧ (-256 : Int64).toInt < 0 := by
  decide

end TransferRanges
