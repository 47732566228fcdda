import HyperDisk.BootDiag.DiagChecks
import Mathlib.Data.Nat.ModEq
import Mathlib.Data.Nat.Prime.Basic
import Mathlib.Tactic.IntervalCases

/- The seventh check of bootdiag: the boot sector of an NTFS volume and the first record of its
   MFT. `none` is an int that overflows. -/
namespace NtfsCheck
open LittleEndian DecimalText DiagChecks

def clusterSize (bytesPerSector : UInt16) (sectorsPerCluster : UInt8) : Option UInt32 :=
  if bytesPerSector.toNat * 2 ^ sectorsPerCluster.toNat < 2 ^ 31 then
    some (UInt32.ofNat (bytesPerSector.toNat * 2 ^ sectorsPerCluster.toNat))
  else none

def mftLba (sector : Bytes) (size : UInt32) : UInt64 :=
  2048 + le64 sector 48 * size.toUInt64 / (le16 sector 11).toUInt64

def checkMft (d : Device) (r : BootdiagResult) (sector : Bytes) (size : UInt32) :
    UInt32 × BootdiagResult :=
  match readDeviceSector d (mftLba sector size) 512 with
  | .error _ =>
    failWith r 7004 (text "$MFT record read failed at LBA " ++ decimal (mftLba sector size).toNat)
  | .ok record =>
    if record.take 4 ≠ text "FILE" then
      -- %.4s stops at a NUL
      failWith r 7005 (text "$MFT signature mismatch: " ++ (record.take 4).takeWhile (· ≠ 0))
    else passWith r (text "$MFT:1024B/rec, ClusterSize:" ++ decimal (size / 1024).toNat ++
      text "KB, MFT_LCN:" ++ decimal (le64 sector 48).toNat)

def checkBootSector (d : Device) (r : BootdiagResult) (sector : Bytes) :
    Option (UInt32 × BootdiagResult) :=
  let oem := (sector.drop 3).take 8
  let bytesPerSector := le16 sector 11
  if oem ≠ text "NTFS    " then
    some (failWith r 7002 (text "NTFS BPB OEM mismatch: '" ++ oem.takeWhile (· ≠ 0) ++ text "'"))
  else if bytesPerSector ≠ 512 ∧ bytesPerSector ≠ 4096 then
    some (failWith r 7003 (text "BytesPerSector=" ++ decimal bytesPerSector.toNat ++
      text " (expected 512 or 4096)"))
  else do
    let size ← clusterSize bytesPerSector (byteAt sector 13)
    some (checkMft d r sector size)

def bootdiagV7Ntfs (d : Device) (r : BootdiagResult) : Option (UInt32 × BootdiagResult) :=
  match readDeviceSector d 2048 512 with
  | .ok sector => checkBootSector d r sector
  | .error _ =>
    match readDeviceSector d 0 512 with
    | .ok sector => checkBootSector d r sector
    | .error e =>
      some (failWith r 7001 (text "Cannot read OS partition boot sector: error " ++
        signedDecimal e.code))

/-- Where NTFS puts the MFT of a volume at LBA 2048, in bytes. -/
def mftOffset (sector : Bytes) : Nat :=
  2048 * 512 + (le64 sector 48).toNat * (byteAt sector 13).toNat * (le16 sector 11).toNat

structure Volume (sector : Bytes) : Prop where
  oem : (sector.drop 3).take 8 = text "NTFS    "
  sectorSize : le16 sector 11 = 512 ∨ le16 sector 11 = 4096
  clusterSectors : ∃ k ≤ 7, (byteAt sector 13).toNat = 2 ^ k
  addressable : mftOffset sector < 2 ^ 63

/-- The check reads the record where the MFT is, and passes if that is a record of it. -/
def FindsMft (d : Device) (r : BootdiagResult) (sector : Bytes) : Prop :=
  (∃ size, clusterSize (le16 sector 11) (byteAt sector 13) = some size ∧
    bootdiagV7Ntfs d r = some (checkMft d r sector size) ∧
    (mftLba sector size * 512).toNat = mftOffset sector) ∧
  ∀ record, d.read (UInt64.ofNat (mftOffset sector)) 512 = .ok record →
    record.take 4 = text "FILE" → ∃ r', bootdiagV7Ntfs d r = some (resultPass, r')

theorem volume_checked {d : Device} {sector : Bytes}
    (read : readDeviceSector d 2048 512 = .ok sector) (volume : Volume sector)
    (r : BootdiagResult) :
    bootdiagV7Ntfs d r =
      (clusterSize (le16 sector 11) (byteAt sector 13)).map (checkMft d r sector) := by
  have sizes : ¬ (le16 sector 11 ≠ 512 ∧ le16 sector 11 ≠ 4096) := by
    rw [not_and_or, not_not, not_not]
    exact volume.sectorSize
  unfold bootdiagV7Ntfs
  rw [read]
  dsimp only
  unfold checkBootSector
  dsimp only
  rw [if_neg (not_not.mpr volume.oem), if_neg sizes]
  cases clusterSize (le16 sector 11) (byteAt sector 13) with
  | none => rfl
  | some size => rfl

theorem checkMft_passes {d : Device} {sector record : Bytes} {size : UInt32} (r : BootdiagResult)
    (read : readDeviceSector d (mftLba sector size) 512 = .ok record)
    (signature : record.take 4 = text "FILE") :
    ∃ r', checkMft d r sector size = (resultPass, r') := by
  unfold checkMft
  rw [read]
  dsimp only
  rw [if_neg (not_not.mpr signature)]
  exact ⟨_, rfl⟩

theorem mftLba_offset {sector : Bytes} {size : UInt32}
    (cluster : clusterSize (le16 sector 11) (byteAt sector 13) = some size) :
    (mftLba sector size * 512).toNat =
      (2048 + (le64 sector 48).toNat * ((le16 sector 11).toNat * 2 ^ (byteAt
        sector 13).toNat) % 2 ^ 64 / (le16 sector 11).toNat) % 2 ^ 64 * 512 % 2 ^ 64 := by
  unfold clusterSize at cluster
  split at cluster
  · rename_i fits
    cases cluster
    have size :
        (UInt32.ofNat ((le16 sector 11).toNat * 2 ^ (byteAt sector 13).toNat)).toUInt64.toNat =
        (le16 sector 11).toNat * 2 ^ (byteAt sector 13).toNat := by
      rw [UInt32.toNat_toUInt64, UInt32.toNat_ofNat_of_lt' (Nat.lt_trans fits (by decide))]
    rw [mftLba, UInt64.toNat_mul, UInt64.toNat_add, UInt64.toNat_div, UInt64.toNat_mul, size,
      UInt16.toNat_toUInt64]
    rfl
  · cases cluster

theorem fixed_zero {n e m : Nat} (grows : 0 < e) (fixed : n * 2 ^ e % 2 ^ m = n) : n = 0 := by
  have smaller : n < 2 ^ m := fixed ▸ Nat.mod_lt _ (Nat.two_pow_pos m)
  have same : n * 2 ^ e ≡ n [MOD 2 ^ m] := by
    rw [Nat.ModEq, Nat.mod_eq_of_lt smaller]
    exact fixed
  have divides : 2 ^ m ∣ n * (2 ^ e - 1) := by
    rw [Nat.mul_sub, Nat.mul_one]
    exact (Nat.modEq_iff_dvd' (Nat.le_mul_of_pos_right n (Nat.two_pow_pos e))).mp same.symm
  have odd : Nat.Coprime (2 ^ m) (2 ^ e - 1) := by
    obtain ⟨f, rfl⟩ := Nat.exists_eq_succ_of_ne_zero grows.ne'
    have positive := Nat.two_pow_pos f
    apply Nat.Coprime.pow_left
    apply Nat.coprime_two_left.mpr
    rw [Nat.odd_iff, Nat.pow_succ]
    omega
  exact Nat.eq_zero_of_dvd_of_lt (odd.dvd_of_dvd_mul_right divides) smaller

theorem small_sector_zero {c k : Nat} (fixed : c * 2 ^ 2 ^ k % 2 ^ 55 = c * 2 ^ k) : c = 0 := by
  have larger : k < 2 ^ k := Nat.lt_two_pow_self
  have split : 2 ^ 2 ^ k = 2 ^ k * 2 ^ (2 ^ k - k) := by
    rw [← Nat.pow_add, Nat.add_sub_cancel' larger.le]
  rw [split, ← Nat.mul_assoc] at fixed
  have none_left := fixed_zero (Nat.sub_pos_of_lt larger) fixed
  exact (Nat.mul_eq_zero.mp none_left).resolve_right (Nat.two_pow_pos k).ne'

theorem large_sector_zero {c k : Nat} (few : k ≤ 4)
    (fixed : c * 2 ^ 2 ^ k % 2 ^ 52 = 8 * (c * 2 ^ k)) : c = 0 := by
  have none_left : c * 2 ^ k = 0 := by
    by_cases short : k ≤ 2
    · have shift : 2 ^ 2 ^ k ≤ 2 ^ k * 4 := by
        interval_cases k
        all_goals decide
      have bound := Nat.mod_le (c * 2 ^ 2 ^ k) (2 ^ 52)
      have larger := Nat.mul_le_mul_left c shift
      rw [fixed] at bound
      rw [← Nat.mul_assoc] at larger
      omega
    · have split : 2 ^ 2 ^ k = 8 * 2 ^ k * 2 ^ (2 ^ k - k - 3) := by
        interval_cases k
        all_goals decide
      rw [split, ← Nat.mul_assoc, Nat.mul_left_comm c 8] at fixed
      have eight := fixed_zero (show 0 < 2 ^ k - k - 3 by interval_cases k; all_goals decide) fixed
      omega
  exact (Nat.mul_eq_zero.mp none_left).resolve_right (Nat.two_pow_pos k).ne'

theorem quotient_mod {b m c p : Nat} (positive : 0 < b) :
    c * (b * p) % (b * m) / b = c * p % m := by
  rw [Nat.mul_left_comm, Nat.mul_mod_mul_left, Nat.mul_div_cancel_left _ positive]

theorem placed_iff {q w : Nat} (small : 512 * q < 2 ^ 64) (addressable : 2048 * 512 + w < 2 ^ 63) :
    (2048 + q) % 2 ^ 64 * 512 % 2 ^ 64 = 2048 * 512 + w ↔ 512 * q = w := by
  omega

theorem offset_right_iff {b c k : Nat} (sector : b = 512 ∨ b = 4096) (few : k ≤ 4)
    (addressable : 2048 * 512 + c * 2 ^ k * b < 2 ^ 63) :
    (2048 + c * (b * 2 ^ 2 ^ k) % 2 ^ 64 / b) % 2 ^ 64 * 512 % 2 ^ 64 = 2048 * 512 + c * 2 ^ k * b ↔
      c = 0 := by
  rcases sector with rfl | rfl
  · have quotient : c * (512 * 2 ^ 2 ^ k) % 2 ^ 64 / 512 = c * 2 ^ 2 ^ k % 2 ^ 55 :=
      quotient_mod (b := 512) (m := 2 ^ 55) (by decide)
    have small := Nat.mod_lt (c * 2 ^ 2 ^ k) (show 0 < 2 ^ 55 by decide)
    rw [quotient, placed_iff (by omega) addressable]
    constructor
    · intro placed
      exact small_sector_zero (k := k) (by omega)
    · rintro rfl
      simp
  · have quotient : c * (4096 * 2 ^ 2 ^ k) % 2 ^ 64 / 4096 = c * 2 ^ 2 ^ k % 2 ^ 52 :=
      quotient_mod (b := 4096) (m := 2 ^ 52) (by decide)
    have small := Nat.mod_lt (c * 2 ^ 2 ^ k) (show 0 < 2 ^ 52 by decide)
    rw [quotient, placed_iff (by omega) addressable]
    constructor
    · intro placed
      exact large_sector_zero few (by omega)
    · rintro rfl
      simp

theorem clusterSize_isSome_iff {b : UInt16} {s : UInt8} {k : Nat} (sector : b = 512 ∨ b = 4096)
    (small : k ≤ 7) (power : s.toNat = 2 ^ k) : (clusterSize b s).isSome ↔ k ≤ 4 := by
  unfold clusterSize
  rw [power]
  rcases sector with rfl | rfl
  all_goals
    interval_cases k
    all_goals decide

/-- The MFT is found exactly when it begins with the volume and a cluster has no more than 16
    sectors. -/
theorem mft_found_iff {d : Device} {r : BootdiagResult} {sector : Bytes}
    (read : readDeviceSector d 2048 512 = .ok sector) (volume : Volume sector) :
    FindsMft d r sector ↔ le64 sector 48 = 0 ∧ (byteAt sector 13).toNat ≤ 16 := by
  obtain ⟨k, small, power⟩ := volume.clusterSectors
  have sixteen : (byteAt sector 13).toNat ≤ 16 ↔ k ≤ 4 := by
    rw [power, show 16 = 2 ^ 4 from rfl]
    exact Nat.pow_le_pow_iff_right (by decide)
  have sector' : (le16 sector 11).toNat = 512 ∨ (le16 sector 11).toNat = 4096 := by
    rcases volume.sectorSize with size | size
    · exact .inl (congrArg UInt16.toNat size)
    · exact .inr (congrArg UInt16.toNat size)
  have addressable := volume.addressable
  unfold mftOffset at addressable
  rw [power] at addressable
  have zero : le64 sector 48 = 0 ↔ (le64 sector 48).toNat = 0 := UInt64.toNat_inj.symm
  have right : ∀ size, clusterSize (le16 sector 11) (byteAt sector 13) = some size → k ≤ 4 →
      ((mftLba sector size * 512).toNat = mftOffset sector ↔ le64 sector 48 = 0) := by
    intro size cluster few
    rw [mftLba_offset cluster, mftOffset, power, zero]
    exact offset_right_iff sector' few addressable
  rw [sixteen]
  constructor
  · rintro ⟨⟨size, cluster, -, placed⟩, -⟩
    have few : k ≤ 4 :=
      (clusterSize_isSome_iff volume.sectorSize small power).mp (by rw [cluster]; rfl)
    exact ⟨(right size cluster few).mp placed, few⟩
  · rintro ⟨first, few⟩
    obtain ⟨size, cluster⟩ := Option.isSome_iff_exists.mp
      ((clusterSize_isSome_iff volume.sectorSize small power).mpr few)
    have placed := (right size cluster few).mpr first
    have checked : bootdiagV7Ntfs d r = some (checkMft d r sector size) := by
      rw [volume_checked read volume, cluster]
      rfl
    refine ⟨⟨size, cluster, checked, placed⟩, ?_⟩
    intro record found signature
    have there : readDeviceSector d (mftLba sector size) 512 = .ok record := by
      rw [readDeviceSector, ← found, ← placed, UInt64.ofNat_toNat]
      rfl
    obtain ⟨r', passes⟩ := checkMft_passes r there signature
    exact ⟨r', checked.trans (congrArg some passes)⟩

def bootSector (clusterSectors : UInt8) (lcn : Nat) : Bytes :=
  [0xEB, 0x52, 0x90] ++ (text "NTFS    " ++
    (store 2 512 ++ (clusterSectors :: (List.replicate 34 0 ++
    (store 8 lcn ++ List.replicate 456 0)))))

def mftRecord : Bytes := text "FILE" ++ List.replicate 508 0

def volumeRead (sector : Bytes) (lba : Nat) (offset : UInt64) (size : UInt32) :
    Except ReadError Bytes :=
  if size ≠ 512 then .error .shortRead
  else if offset = 2048 * 512 then .ok (sector.takeD 512 0)
  else if offset.toNat = lba * 512 then .ok (mftRecord.takeD 512 0)
  else .ok (List.replicate 512 0)

theorem volumeRead_sized (sector : Bytes) (lba : Nat) (offset : UInt64) (size : UInt32)
    (bytes : Bytes) (read : volumeRead sector lba offset size = .ok bytes) :
    bytes.length = size.toNat := by
  unfold volumeRead at read
  split at read
  · cases read
  · rename_i whole
    rw [not_not.mp whole]
    split at read
    · cases read
      exact List.takeD_length 512 sector 0
    · split at read
      · cases read
        exact List.takeD_length 512 mftRecord 0
      · cases read
        exact List.length_replicate

def volumeDevice (sector : Bytes) (lba : Nat) : Device :=
  ⟨volumeRead sector lba, volumeRead_sized sector lba⟩

def ntfsResult : BootdiagResult := ⟨7, text "NTFS Metadata", 0, 0, [], 0⟩

theorem bootSector_volume {lcn : Nat} (near : lcn = 0 ∨ lcn = 4) : Volume (bootSector 8 lcn) := by
  rcases near with rfl | rfl
  all_goals
    constructor
    · decide +kernel
    · exact .inl (by decide +kernel)
    · exact ⟨3, by decide, by decide +kernel⟩
    · decide +kernel

theorem volume_at_start_found :
    readDeviceSector (volumeDevice (bootSector 8 0) 2048) 2048 512 = .ok (bootSector 8 0) ∧
      Volume (bootSector 8 0) ∧
      FindsMft (volumeDevice (bootSector 8 0) 2048) ntfsResult (bootSector 8 0) :=
  ⟨by decide +kernel, bootSector_volume (.inl rfl),
    (mft_found_iff (by decide +kernel) (bootSector_volume (.inl rfl))).mpr (by decide +kernel)⟩

theorem mft_not_found :
    readDeviceSector (volumeDevice (bootSector 8 4) 2080) 2048 512 = .ok (bootSector 8 4) ∧
      Volume (bootSector 8 4) ∧ mftOffset (bootSector 8 4) = 2080 * 512 ∧
      (volumeDevice (bootSector 8 4) 2080).read (2080 * 512) 512 = .ok mftRecord ∧
      bootdiagV7Ntfs (volumeDevice (bootSector 8 4) 2080) ntfsResult =
        some (failWith ntfsResult 7005 (text "$MFT signature mismatch: ")) :=
  ⟨by decide +kernel, bootSector_volume (.inr rfl), by decide +kernel, by decide +kernel,
    by decide +kernel⟩

end NtfsCheck
