import HyperDisk.BootDiag.DiagChecks
import HyperDisk.Common.Checksums

/- The first check of bootdiag: the protective MBR, the GPT header and the partition array. `none`
   is a read outside the partition buffer; a byte shifted into the sign of an int is taken as the
   bit it becomes in the uint32_t. -/
namespace GptCheck
open LittleEndian DecimalText DiagChecks

def efiSpGuid : Bytes :=
  [0x28, 0x73, 0x2A, 0xC1, 0x1F, 0xF8, 0xD2, 0x11, 0xBA, 0x4B, 0x00, 0xA0, 0xC9, 0x3E, 0xC9, 0x3B]

def winGuid : Bytes :=
  [0xA2, 0xA0, 0xD0, 0xEB, 0xE5, 0xB9, 0x33, 0x44, 0x87, 0xC0, 0x68, 0xB6, 0xB7, 0x26, 0x99, 0xC7]

def msrGuid : Bytes :=
  [0x16, 0xE3, 0xC9, 0xE3, 0x5C, 0x0B, 0x78, 0x42, 0x81, 0x9D, 0x9A, 0x0C, 0x4E, 0xFC, 0x7E, 0x7C]

structure Scan where
  partitionCount : UInt32
  hasEfi : Bool
  hasOs : Bool
  hasMsr : Bool
  deriving DecidableEq, Repr

def Scan.note (s : Scan) (guid : Bytes) : Scan :=
  if guid = List.replicate 16 0 then s
  else
    let s := { s with partitionCount := s.partitionCount + 1 }
    if guid = efiSpGuid then { s with hasEfi := true }
    else if guid = winGuid then { s with hasOs := true }
    else if guid = msrGuid then { s with hasMsr := true }
    else s

def scanEntries (partBuf : Bytes) (entrySize : UInt32) : Nat → UInt32 → Scan → Option Scan
  | 0, _, s => some s
  | left + 1, i, s => do
    let guid ← slice partBuf (i * entrySize).toNat 16
    scanEntries partBuf entrySize left (i + 1) (s.note guid)

def readEntries (d : Device) : Nat → UInt32 → Bytes → Except UInt32 Bytes
  | 0, _, partBuf => .ok partBuf
  | left + 1, s, partBuf =>
    match readDeviceSector d (2 + s).toUInt64 512 with
    | .error _ => .error (2 + s)
    | .ok sector => readEntries d left (s + 1) (partBuf ++ sector)

def judge (r : BootdiagResult) (s : Scan) : UInt32 × BootdiagResult :=
  let found := text "EFI=" ++ flag s.hasEfi ++ text " OS=" ++ flag s.hasOs ++ text " MSR=" ++
    flag s.hasMsr
  if !s.hasEfi || !s.hasOs then failWith r 1017 (text "Required partition missing: " ++ found)
  else passWith r (decimal s.partitionCount.toNat ++ text " partitions: " ++ found)

def checkArray (d : Device) (mallocs : Bool) (r : BootdiagResult) (sector : Bytes) :
    Option (UInt32 × BootdiagResult) :=
  let numEntries := le32 sector 80
  let entrySize := le32 sector 84
  let partitionArraySectors := (numEntries * entrySize + 511) / 512
  if !mallocs then some (failWith r 1015 (text "Out of memory for partition entries"))
  else
    match readEntries d partitionArraySectors.toNat 0 [] with
    | .error lba => some (failWith r 1016 (text "Cannot read partition entry LBA " ++
        decimal lba.toNat))
    | .ok partBuf => do
      let array ← slice partBuf 0 (numEntries * entrySize).toNat
      let stored := le32 sector 88
      let computed := Checksums.bootdiagComputeCrc32c array (numEntries * entrySize)
      if computed ≠ stored then
        some (failWith r 1020 (text "Partition table CRC mismatch: computed=0x" ++
          hex 8 computed.toNat ++
          text ", stored=0x" ++ hex 8 stored.toNat))
      else
        let s ← scanEntries partBuf entrySize numEntries.toNat 0 ⟨0, false, false, false⟩
        some (judge r s)

def headerCopy (sector : Bytes) : Bytes :=
  sector.take 16 ++ List.replicate 4 0 ++ (sector.take 92).drop 20

def checkHeader (d : Device) (mallocs : Bool) (r : BootdiagResult) :
    Option (UInt32 × BootdiagResult) :=
  match readDeviceSector d 1 512 with
  | .error e => some (failWith r 1010 (text "Cannot read LBA 1 (GPT header): error " ++
      signedDecimal e.code))
  | .ok sector =>
    let headerSize := le32 sector 12
    let myLba := le64 sector 24
    let alternateLba := le64 sector 32
    let storedCrc := le32 sector 16
    let computedCrc := Checksums.bootdiagComputeCrc32c (headerCopy sector) 92
    let entrySize := le32 sector 84
    if sector.take 8 ≠ text "EFI PART" then
      -- %.8s stops at a NUL
      some (failWith r 1011 (text "GPT signature mismatch: " ++ (sector.take 8).takeWhile (· ≠ 0)))
    else if headerSize ≠ 92 then
      some (failWith r 1012 (text "HeaderSize=" ++ decimal headerSize.toNat ++
        text " (expected 92)"))
    else if myLba ≠ 1 then
      some (failWith r 1018 (text "MyLBA=" ++ decimal myLba.toNat ++ text " (expected 1)"))
    else if alternateLba = 0 then
      some (failWith r 1019 (text "AlternateLBA=0 (invalid, backup GPT missing)"))
    else if computedCrc ≠ storedCrc then
      some (failWith r 1013 (text "Header CRC mismatch: computed=0x" ++ hex 8 computedCrc.toNat ++
        text ", stored=0x" ++ hex 8 storedCrc.toNat))
    else if entrySize ≠ 128 then
      some (failWith r 1014 (text "PartitionEntrySize=" ++ decimal entrySize.toNat ++
        text " (expected 128)"))
    else checkArray d mallocs r sector

def bootdiagV1Gpt (d : Device) (mallocs : Bool) (r : BootdiagResult) :
    Option (UInt32 × BootdiagResult) :=
  match readDeviceSector d 0 512 with
  | .error e =>
    some (failWith r 1001 (text "Cannot read LBA 0 (protective MBR): error " ++
      signedDecimal e.code))
  | .ok sector =>
    let mbrSig := le16 sector 510
    if mbrSig ≠ 0x55AA then
      some (failWith r 1002 (text "MBR signature invalid: 0x" ++ hex 4 mbrSig.toNat ++
        text " (expected 0x55AA)"))
    else if byteAt sector 446 ≠ 0xEE then
      some (failWith r 1003 (text "Partition type=0x" ++ hex 2 (byteAt sector 446).toNat ++
        text " (expected 0xEE GPT protective)"))
    else checkHeader d mallocs r

/-- The CRC-32 of the UEFI specification: reflected polynomial 0xEDB88320, initial value and final
    xor 0xFFFFFFFF. -/
def crc32 (data : Bytes) : UInt32 :=
  ⟨ReflectedCrc.crc 0xEDB88320#32 0xFFFFFFFF#32 0xFFFFFFFF#32 (data.map UInt8.toBitVec)⟩

def headerSector (image : Bytes) : Bytes := (image.drop 512).take 512

def entryCount (image : Bytes) : Nat := (le32 (headerSector image) 80).toNat

def typeGuid (image : Bytes) (i : Nat) : Bytes := (image.drop (1024 + 128 * i)).take 16

/-- A disk with whole sectors that follows the UEFI specification and holds an EFI system partition
    and a Windows basic-data partition. -/
structure Healthy (image : Bytes) : Prop where
  whole : image.length % 512 = 0
  bootSignature : (image.drop 510).take 2 = [0x55, 0xAA]
  protective : image[450]? = some 0xEE
  signature : (headerSector image).take 8 = text "EFI PART"
  headerSize : le32 (headerSector image) 12 = 92
  headerCrc : le32 (headerSector image) 16 = crc32 (headerCopy (headerSector image))
  myLba : le64 (headerSector image) 24 = 1
  alternateLba : le64 (headerSector image) 32 ≠ 0
  arrayLba : le64 (headerSector image) 72 = 2
  entrySize : le32 (headerSector image) 84 = 128
  entries : entryCount image ≤ 1024 ∧ 1024 + 128 * entryCount image ≤ image.length
  arrayCrc : le32 (headerSector image) 88 = crc32 ((image.drop 1024).take (128 * entryCount image))
  system : ∃ i < entryCount image, typeGuid image i = efiSpGuid
  windows : ∃ i < entryCount image, typeGuid image i = winGuid

theorem headerCopy_length {sector : Bytes} (long : 92 ≤ sector.length) :
    (headerCopy sector).length = 92 := by
  simp only [headerCopy, List.length_append, List.length_take, List.length_replicate,
    List.length_drop]
  omega

theorem failWith_not_pass {r r' : BootdiagResult} {code : UInt32} {detail : Bytes}
    (same : some (failWith r code detail) = some (resultPass, r')) : False := by
  have codes : resultFail = resultPass := congrArg Prod.fst (Option.some.inj same)
  exact absurd codes (by decide)

structure Reaches (d : Device) (header : Bytes) : Prop where
  mbr : ∃ mbr, readDeviceSector d 0 512 = .ok mbr ∧ le16 mbr 510 = 0x55AA ∧ byteAt mbr 446 = 0xEE
  read : readDeviceSector d 1 512 = .ok header
  signature : header.take 8 = text "EFI PART"
  headerSize : le32 header 12 = 92
  myLba : le64 header 24 = 1
  alternateLba : le64 header 32 ≠ 0
  headerCrc : Checksums.bootdiagComputeCrc32c (headerCopy header) 92 = le32 header 16
  entrySize : le32 header 84 = 128

theorem reached_eq {d : Device} {header : Bytes} (reaches : Reaches d header) (mallocs : Bool)
    (r : BootdiagResult) : bootdiagV1Gpt d mallocs r = checkArray d mallocs r header := by
  obtain ⟨mbr, mbrRead, mbrSignature, kind⟩ := reaches.mbr
  unfold bootdiagV1Gpt
  rw [mbrRead]
  dsimp only
  rw [if_neg (not_not.mpr mbrSignature), if_neg (not_not.mpr kind)]
  unfold checkHeader
  rw [reaches.read]
  dsimp only
  rw [if_neg (not_not.mpr reaches.signature), if_neg (not_not.mpr reaches.headerSize),
    if_neg (not_not.mpr reaches.myLba), if_neg reaches.alternateLba,
    if_neg (not_not.mpr reaches.headerCrc), if_neg (not_not.mpr reaches.entrySize)]

theorem gpt_cases (d : Device) (mallocs : Bool) (r : BootdiagResult) :
    (∃ header, Reaches d header ∧ bootdiagV1Gpt d mallocs r = checkArray d mallocs r header) ∨
      (∀ header, ¬ Reaches d header) ∧ Fails r (bootdiagV1Gpt d mallocs r) := by
  by_cases reached : ∃ header, Reaches d header
  · obtain ⟨header, reaches⟩ := reached
    exact .inl ⟨header, reaches, reached_eq reaches mallocs r⟩
  · have never := not_exists.mp reached
    refine .inr ⟨never, ?_⟩
    unfold bootdiagV1Gpt
    split
    · exact ⟨_, _, rfl⟩
    · rename_i mbr mbrRead
      apply guard_fails
      intro mbrSignature
      apply guard_fails
      intro kind
      unfold checkHeader
      split
      · exact ⟨_, _, rfl⟩
      · rename_i header read
        apply guard_fails
        intro signature
        apply guard_fails
        intro headerSize
        apply guard_fails
        intro myLba
        apply guard_fails
        intro alternateLba
        apply guard_fails
        intro headerCrc
        apply guard_fails
        intro entrySize
        exact absurd ⟨⟨mbr, mbrRead, not_not.mp mbrSignature, not_not.mp kind⟩, read,
          not_not.mp signature, not_not.mp headerSize, not_not.mp myLba, alternateLba,
          not_not.mp headerCrc,
          not_not.mp entrySize⟩ (never header)

theorem Reaches.crc {d : Device} {header : Bytes} (reaches : Reaches d header) :
    Crc32c.crc32c (headerCopy header) = le32 header 16 := by
  have size := d.sized _ _ _ reaches.read
  have whole : (headerCopy header).take 92 = headerCopy header :=
    List.take_of_length_le (headerCopy_length (by rw [size]; decide)).le
  rw [← reaches.headerCrc, Checksums.bootdiagComputeCrc32c, show (92 : UInt32).toNat = 92 from rfl,
    whole, Checksums.loop_branch_table]

/-- A disk passes only with the signature bytes the wrong way round, the type in the place of the
    boot indicator, and a CRC-32C where the specification has a CRC-32. -/
theorem passed_needs {d : Device} {mallocs : Bool} {r r' : BootdiagResult}
    (passed : bootdiagV1Gpt d mallocs r = some (resultPass, r')) :
    (∃ mbr, readDeviceSector d 0 512 = .ok mbr ∧ le16 mbr 510 = 0x55AA ∧ byteAt mbr 446 = 0xEE) ∧
      ∃ header, readDeviceSector d 1 512 = .ok header ∧
        Crc32c.crc32c (headerCopy header) = le32 header 16 := by
  rcases gpt_cases d mallocs r with ⟨header, reaches, -⟩ | ⟨-, code, detail, failed⟩
  · exact ⟨reaches.mbr, header, reaches.read, reaches.crc⟩
  · rw [failed] at passed
    exact (failWith_not_pass passed).elim

theorem read_mbr {image : Bytes} (long : 512 ≤ image.length) :
    readDeviceSector (imageDevice image) 0 512 = .ok (image.take 512) := by
  change readImage image 0 512 = _
  unfold readImage
  rw [if_neg (by decide), if_pos (by simpa using long)]
  rfl

theorem healthy_signature {image : Bytes} (healthy : Healthy image) :
    le16 (image.take 512) 510 = 0xAA55 := by
  have stored : ((image.take 512).drop 510).take 2 = [0x55, 0xAA] := by
    rw [List.drop_take, List.take_take]
    exact healthy.bootSignature
  rw [le16, stored]
  decide

/-- Every healthy disk is turned away at its boot signature. -/
theorem healthy_disk_rejected {image : Bytes} (healthy : Healthy image) (mallocs : Bool)
    (r : BootdiagResult) :
    bootdiagV1Gpt (imageDevice image) mallocs r =
      some (failWith r 1002 (text "MBR signature invalid: 0xAA55 (expected 0x55AA)")) := by
  have long := healthy.entries.2
  have shown : text "MBR signature invalid: 0x" ++ hex 4 (0xAA55 : UInt16).toNat ++
      text " (expected 0x55AA)" = text "MBR signature invalid: 0xAA55 (expected 0x55AA)" := by
    decide +kernel
  unfold bootdiagV1Gpt
  rw [read_mbr (by omega)]
  dsimp only
  rw [healthy_signature healthy, if_pos (by decide), shown]

def smallMbr : Bytes := List.replicate 450 0 ++ (0xEE :: (List.replicate 59 0 ++ [0x55, 0xAA]))

def smallHeader : Bytes :=
  text "EFI PART" ++ (store 4 0x10000 ++
    (store 4 92 ++ (store 4 0xFF71A8CE ++ (store 4 0 ++ (store 8 1 ++
    (store 8 2 ++ (store 8 34 ++ (store 8 2014 ++
      (List.replicate 16 7 ++ (store 8 2 ++ (store 4 2 ++
      (store 4 128 ++ (store 4 0xDBC11313 ++ List.replicate 420 0)))))))))))))

def smallArray : Bytes :=
  efiSpGuid ++ (List.replicate 112 0 ++ (winGuid ++ List.replicate 368 0))

def smallDisk : Bytes := smallMbr ++ (smallHeader ++ smallArray)

theorem smallMbr_length : smallMbr.length = 512 := by
  simp only [smallMbr, List.length_append, List.length_cons, List.length_replicate]
  decide

theorem smallHeader_length : smallHeader.length = 512 := by
  simp only [smallHeader, List.length_append, store_length, List.length_replicate]
  decide

theorem smallArray_length : smallArray.length = 512 := by
  simp only [smallArray, List.length_append, List.length_replicate]
  decide

theorem smallDisk_header : headerSector smallDisk = smallHeader :=
  field_of_append smallMbr smallHeader smallArray smallMbr_length smallHeader_length

theorem smallDisk_array (off : Nat) : smallDisk.drop (1024 + off) = smallArray.drop off := by
  have front : (smallMbr ++ smallHeader).length = 1024 := by
    rw [List.length_append, smallMbr_length, smallHeader_length]
  rw [smallDisk, ← List.append_assoc, ← front, ← List.drop_drop, List.drop_left]

theorem smallDisk_length : smallDisk.length = 1536 := by
  rw [smallDisk, List.length_append, List.length_append, smallMbr_length, smallHeader_length,
    smallArray_length]

theorem smallDisk_entries : entryCount smallDisk = 2 := by
  rw [entryCount, smallDisk_header]
  decide +kernel

theorem smallDisk_guid (i : Nat) : typeGuid smallDisk i = (smallArray.drop (128 * i)).take 16 := by
  rw [typeGuid, smallDisk_array]

theorem smallDisk_healthy : Healthy smallDisk where
  whole := by rw [smallDisk_length]
  bootSignature := by decide +kernel
  protective := by decide +kernel
  signature := by rw [smallDisk_header]; decide +kernel
  headerSize := by rw [smallDisk_header]; decide +kernel
  headerCrc := by rw [smallDisk_header]; decide +kernel
  myLba := by rw [smallDisk_header]; decide +kernel
  alternateLba := by rw [smallDisk_header]; decide +kernel
  arrayLba := by rw [smallDisk_header]; decide +kernel
  entrySize := by rw [smallDisk_header]; decide +kernel
  entries := by rw [smallDisk_entries, smallDisk_length]; decide
  arrayCrc := by
    have array : smallDisk.drop 1024 = smallArray := smallDisk_array 0
    rw [smallDisk_header, smallDisk_entries, array]
    decide +kernel
  system := ⟨0, by rw [smallDisk_entries]; decide, by rw [smallDisk_guid]; decide +kernel⟩
  windows := ⟨1, by rw [smallDisk_entries]; decide, by rw [smallDisk_guid]; decide +kernel⟩

def freshResult : BootdiagResult := ⟨1, text "GPT Partition Table", 0, 0, [], 0⟩

theorem smallDisk_turned_away :
    Healthy smallDisk ∧ bootdiagV1Gpt (imageDevice smallDisk) true freshResult =
      some (failWith freshResult 1002 (text "MBR signature invalid: 0xAA55 (expected 0x55AA)")) :=
  ⟨smallDisk_healthy, healthy_disk_rejected smallDisk_healthy true freshResult⟩

theorem smallDisk_fails :
    Healthy smallDisk ∧
      (bootdiagV1Gpt (imageDevice smallDisk) true freshResult).map (fun o => (o.1, o.2.errorCode)) =
        some (resultFail, 1002) ∧ resultFail ≠ resultPass :=
  ⟨smallDisk_healthy, by decide +kernel, by decide⟩

end GptCheck
