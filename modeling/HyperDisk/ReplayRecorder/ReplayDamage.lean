import Mathlib.Data.List.TakeDrop
import HyperDisk.ReplayRecorder.ReplayFiles

/- What ReadEntries makes of a replay file that was cut or had a byte changed. It reads the magic,
   the version and the count, and then as many whole entries as the file has; neither CRC and
   not the footer. -/
namespace ReplayDamage
open LittleEndian PackedFields PackedRecords FileImages RingBuffer ReplayFiles

def headerFront (entryCount : UInt32) : Bytes :=
  u32.encode replayMagic ++ (u16.encode replayVersion ++ u32.encode entryCount)

/-- The 16 bytes of header_buf: the zeros are the low half of the CRC member before the CRC is
    known, and the CRC is stored two bytes behind its member. -/
def headerBytes (entryCount crc : UInt32) : Bytes :=
  headerFront entryCount ++ ([0, 0] ++ u32.encode crc)

theorem headerFront_length (entryCount : UInt32) : (headerFront entryCount).length = 10 := by
  simp [headerFront, u32, u16, word]

theorem headerBytes_length (entryCount crc : UInt32) :
    (headerBytes entryCount crc).length = 16 := by
  simp [headerBytes, headerFront_length, u32, word]

def headerCrc (entryCount : UInt32) : UInt32 := computeCrc32C (headerFront entryCount ++ [0, 0]) 12

theorem copied_length (entryCount : UInt32) : (headerFront entryCount ++ [0, 0]).length = 12 := by
  rw [List.length_append, headerFront_length]
  rfl

theorem header_copied (entryCount : UInt32) :
    (fileHeaderLayout.encode ⟨replayMagic, replayVersion, entryCount, 0, 0⟩).take 12 =
      headerFront entryCount ++ [0, 0] := by
  have whole : fileHeaderLayout.encode ⟨replayMagic, replayVersion, entryCount, 0, 0⟩ =
      (headerFront entryCount ++ [0, 0]) ++ [0, 0, 0, 0] := by
    have zeros : u32.encode 0 ++ u16.encode 0 = [0, 0] ++ [0, 0, 0, 0] := by decide
    rw [headerFront, List.append_assoc, List.append_assoc, List.append_assoc, ← zeros]
    rfl
  rw [whole, List.take_left' (copied_length entryCount)]

theorem first_copy (entryCount : UInt32) (behind : UInt8 × UInt8) :
    overwrite (List.replicate replayHeaderSize 0 ++ [behind.1, behind.2]) 0
        (headerFront entryCount ++ [0, 0]) =
      some ((headerFront entryCount ++ [0, 0]) ++ ([0, 0, 0, 0] ++ [behind.1, behind.2])) ∧
    computeCrc32C ((headerFront entryCount ++ [0, 0]) ++ ([0, 0, 0, 0] ++ [behind.1, behind.2])) 12
      = headerCrc entryCount := by
  have size := copied_length entryCount
  constructor
  · have filled := overwrite_middle [] (List.replicate 12 0) ([0, 0, 0, 0] ++ [behind.1, behind.2])
      rfl size
    rw [List.nil_append, List.nil_append] at filled
    exact filled
  · rw [headerCrc, computeCrc32C, computeCrc32C, show (12 : UInt32).toNat = 12 from rfl,
      List.take_append_of_le_length size.ge]

theorem writeHeader_eq (entryCount : UInt32) (behind : UInt8 × UInt8) :
    writeHeader entryCount behind =
      some (headerBytes entryCount (headerCrc entryCount) ++ [0, 0]) := by
  obtain ⟨first, made⟩ := first_copy entryCount behind
  generalize headerCrc entryCount = crc at made ⊢
  have second := overwrite_middle (headerFront entryCount ++ [0, 0]) [0, 0, 0, 0]
    [behind.1, behind.2] (copied_length entryCount)
    (show (u32.encode crc).length = 4 from u32.encode_length crc)
  have third : overwrite ((headerFront entryCount ++ [0, 0]) ++
      (u32.encode crc ++ [behind.1, behind.2])) 16 (u16.encode 0) =
      some (headerBytes entryCount crc ++ [0, 0]) := by
    have filled := overwrite_middle (headerBytes entryCount crc) [behind.1, behind.2] []
      (headerBytes_length entryCount crc) (show (u16.encode 0).length = 2 from rfl)
    simp only [headerBytes, List.append_assoc, List.append_nil] at filled ⊢
    exact filled
  simp only [writeHeader, header_copied, first, Option.bind_eq_bind, Option.bind_some, made,
    second, third]

theorem fileImage_eq (entries : List ReplayEntry) (behind : UInt8 × UInt8) :
    ∃ crc footer, footer.length = 8 ∧ fileImage entries behind =
      some (headerBytes (UInt32.ofNat entries.length) crc ++
        (writeAll entryLayout entries ++ footer)) := by
  have header := writeHeader_eq (UInt32.ofNat entries.length) behind
  generalize headerCrc (UInt32.ofNat entries.length) = crc at header
  have front : (headerBytes (UInt32.ofNat entries.length) crc ++ [0, 0]).take replayHeaderSize =
      headerBytes (UInt32.ofNat entries.length) crc := List.take_left' (headerBytes_length _ _)
  generalize made : ReplayFileFooter.mk (computeCrc32C
    (headerBytes (UInt32.ofNat entries.length) crc ++ writeAll entryLayout entries)
    (UInt32.ofNat (headerBytes (UInt32.ofNat entries.length) crc ++
      writeAll entryLayout entries).length)) replayFooterMagic = footer
  have size : (fileFooterLayout.encode footer).length = 8 := fileFooterLayout.encode_length footer
  refine ⟨crc, fileFooterLayout.encode footer, size, ?_⟩
  simp only [fileImage, header, front, Option.bind_eq_bind, Option.bind_some, made]
  rw [List.append_assoc]

def entriesIn (file : Bytes) : List ReplayEntry :=
  (readEntries (fun _ => some file) [] ⟨0, 0, 0, 0, 0⟩).1

theorem readEntries_put (disk : Disk) (path : Path) (file : Bytes) (header : ReplayFileHeader) :
    (readEntries (disk.put path file) path header).1 = entriesIn file := by
  have stored : disk.put path file path = some file := if_pos rfl
  simp only [entriesIn, readEntries, stored]
  split
  · rfl
  · split <;> rfl

theorem entriesIn_append {head : Bytes} (size : head.length = 16) (rest : Bytes) :
    entriesIn (head ++ rest) =
      if u32.decode (head.take 4) ≠ replayMagic ∨ u16.decode ((head.drop 4).take 2) ≠ replayVersion
      then [] else readUpTo entryLayout (u32.decode ((head.drop 6).take 4)).toNat rest := by
  have long : ¬ (head ++ rest).length < replayHeaderSize := by
    rw [List.length_append, size]
    exact Nat.not_lt.mpr (Nat.le_add_right _ _)
  have magic : (fileHeaderLayout.decode head).magic = u32.decode (head.take 4) := rfl
  have version : (fileHeaderLayout.decode head).version = u16.decode ((head.drop 4).take 2) := rfl
  have count : (fileHeaderLayout.decode head).entryCount = u32.decode ((head.drop 6).take 4) := by
    rw [show 6 = 4 + 2 from rfl, ← List.drop_drop]
    rfl
  simp only [entriesIn, readEntries, long, if_false, List.take_left' (show head.length =
    replayHeaderSize from size), List.drop_left' (show head.length = replayHeaderSize from size),
    magic, version, count]
  split <;> rfl

theorem header_fields (entryCount crc : UInt32) :
    ((headerBytes entryCount crc).drop 0).take 4 = u32.encode replayMagic ∧
    ((headerBytes entryCount crc).drop 4).take 2 = u16.encode replayVersion ∧
    ((headerBytes entryCount crc).drop 6).take 4 = u32.encode entryCount := by
  have magic := u32.encode_length replayMagic
  have version := u16.encode_length replayVersion
  simp only [headerBytes, headerFront, List.append_assoc]
  refine ⟨List.take_left' magic, field_of_append _ _ _ magic version, ?_⟩
  rw [← List.append_assoc]
  exact field_of_append _ _ _ (by rw [List.length_append, magic, version]; rfl)
    (u32.encode_length _)

theorem entriesIn_intact {head : Bytes} {entryCount : UInt32} (size : head.length = 16)
    (magic : (head.drop 0).take 4 = u32.encode replayMagic)
    (version : (head.drop 4).take 2 = u16.encode replayVersion)
    (count : (head.drop 6).take 4 = u32.encode entryCount) (rest : Bytes) :
    entriesIn (head ++ rest) = readUpTo entryLayout entryCount.toNat rest := by
  rw [List.drop_zero] at magic
  rw [entriesIn_append size, magic, version, count, u32.decode_encode, u16.decode_encode,
    u32.decode_encode]
  simp

theorem entriesIn_image (n : UInt32) (crc : UInt32) (rest : Bytes) :
    entriesIn (headerBytes n crc ++ rest) = readUpTo entryLayout n.toNat rest := by
  obtain ⟨magic, version, count⟩ := header_fields n crc
  exact entriesIn_intact (headerBytes_length n crc) magic version count rest

theorem flushToFile_writes {s : ReplayRingBuffer} {entries : List ReplayEntry} {image : Bytes}
    {behind : UInt8 × UInt8} (recorded : getAllEntries s = some entries) (some_entry : entries ≠ [])
    (built : fileImage entries behind = some image) (disk : Disk) (path : Path) :
    flushToFile s disk path true .full behind =
      some (stopRecording s, disk.put path image, true) := by
  have stopped : getAllEntries (stopRecording s) = some entries := recorded
  simp only [flushToFile, stopped, some_entry, built, if_false, if_true, Option.bind_eq_bind,
    Option.bind_some, WriteOutcome.count, List.take_length]

def firstRead : ReplayEntry := ⟨1, 0, 4096, 120, 0, 5, 0⟩

section Damage
variable {n crc : UInt32} {i : Nat} {b : UInt8}

theorem damaged_start (rest : Bytes) (early : i < 6)
    (changed : (headerBytes n crc)[i]? ≠ some b) :
    entriesIn ((headerBytes n crc).set i b ++ rest) = [] := by
  obtain ⟨magic, version, _⟩ := header_fields n crc
  have head := headerBytes_length n crc
  have size : ((headerBytes n crc).set i b).length = 16 := by rw [List.length_set, head]
  rw [entriesIn_append size, if_pos]
  by_cases first : i < 4
  · left
    intro same
    have differs := field_set_differs (Nat.zero_le i) (show i < 0 + 4 by omega) (by omega) changed
    rw [List.drop_zero, magic] at differs
    exact differs (u32.decode_inj (by rw [List.length_take, size]; rfl) (u32.encode_length _)
      (same.trans (u32.decode_encode replayMagic).symm))
  · right
    intro same
    have differs := field_set_differs (Nat.le_of_not_lt first) (show i < 4 + 2 by omega) (by omega)
      changed
    rw [version] at differs
    exact differs (u16.decode_inj (by rw [List.length_take, List.length_drop, size]; rfl)
      (u16.encode_length _) (same.trans (u16.decode_encode replayVersion).symm))

theorem damaged_count (rest : Bytes) (above : 6 ≤ i) (below : i < 10)
    (changed : (headerBytes n crc)[i]? ≠ some b) :
    ∃ m, u32.decode ((((headerBytes n crc).set i b ++ rest).drop 6).take 4) = m ∧ m ≠ n ∧
      entriesIn ((headerBytes n crc).set i b ++ rest) = readUpTo entryLayout m.toNat rest := by
  obtain ⟨magic, version, count⟩ := header_fields n crc
  have head := headerBytes_length n crc
  have size : ((headerBytes n crc).set i b).length = 16 := by rw [List.length_set, head]
  have field : ((((headerBytes n crc).set i b) ++ rest).drop 6).take 4 =
      (((headerBytes n crc).set i b).drop 6).take 4 := by
    rw [List.drop_append_of_le_length (by omega), List.take_append_of_le_length
      (by rw [List.length_drop]; omega)]
  have width : ((((headerBytes n crc).set i b).drop 6).take 4).length = u32.size := by
    rw [List.length_take, List.length_drop, size]
    rfl
  refine ⟨_, rfl, ?_, ?_⟩
  · intro same
    rw [field] at same
    have differs := field_set_differs above (show i < 6 + 4 by omega) (by omega) changed
    rw [count] at differs
    exact differs (u32.decode_inj width (u32.encode_length _)
      (same.trans (u32.decode_encode n).symm))
  · rw [field]
    refine entriesIn_intact size ?_ ?_ (u32.encode_decode _ width).symm rest
    · rw [field_set_apart _ _ (by omega), magic]
    · rw [field_set_apart _ _ (by omega), version]

theorem damaged_crc (rest : Bytes) (late : 10 ≤ i) :
    entriesIn ((headerBytes n crc).set i b ++ rest) = readUpTo entryLayout n.toNat rest := by
  obtain ⟨magic, version, count⟩ := header_fields n crc
  have size : ((headerBytes n crc).set i b).length = 16 := by
    rw [List.length_set, headerBytes_length]
  refine entriesIn_intact size ?_ ?_ ?_ rest
  · rw [field_set_apart _ _ (by omega), magic]
  · rw [field_set_apart _ _ (by omega), version]
  · rw [field_set_apart _ _ (by omega), count]

theorem damaged_entry {entries : List ReplayEntry} (footer : Bytes) (i : Nat)
    (inside : i < (writeAll entryLayout entries).length)
    (changed : (writeAll entryLayout entries)[i]? ≠ some b) :
    readUpTo entryLayout entries.length ((writeAll entryLayout entries).set i b ++ footer) ≠ [] ∧
      readUpTo entryLayout entries.length ((writeAll entryLayout entries).set i b ++ footer) ≠
        entries := by
  have size : ((writeAll entryLayout entries).set i b).length =
      entryLayout.size * entries.length := by
    rw [List.length_set, writeAll_length]
  have back := writeAll_readUpTo entryLayout entries.length _ footer size
  have differs : (writeAll entryLayout entries).set i b ≠ writeAll entryLayout entries := by
    intro same
    have byte := congrArg (fun bytes : Bytes => bytes[i]?) same
    rw [List.getElem?_set_self inside] at byte
    exact changed byte.symm
  constructor
  · intro none
    rw [none] at back
    have empty := congrArg List.length back
    rw [List.length_set] at empty
    exact absurd inside (by rw [← empty]; exact Nat.not_lt_zero i)
  · intro same
    rw [same] at back
    exact differs back.symm

theorem read_whole (entries : List ReplayEntry) (m : Nat) {tail : Bytes} (short : tail.length = 8) :
    readUpTo entryLayout m (writeAll entryLayout entries ++ tail) = entries.take m :=
  readUpTo_writeAll entryLayout m entries (show tail.length < 33 by omega)

theorem damaged_header_iff {entries : List ReplayEntry} {footer : Bytes} (some_entry : entries ≠ [])
    (counted : n.toNat = entries.length) (short : footer.length = 8) (front : i < 16)
    (changed : (headerBytes n crc)[i]? ≠ some b) {file : Bytes}
    (same : file = (headerBytes n crc).set i b ++ (writeAll entryLayout entries ++ footer)) :
    (entriesIn file = [] ∨ entriesIn file = entries) ↔
      i < 6 ∨ (6 ≤ i ∧ i < 10 ∧ ((u32.decode ((file.drop 6).take 4)).toNat = 0 ∨
        entries.length < (u32.decode ((file.drop 6).take 4)).toNat)) ∨ 10 ≤ i := by
  rw [same]
  by_cases start : i < 6
  · rw [damaged_start _ start changed]
    exact iff_of_true (Or.inl rfl) (Or.inl start)
  · by_cases early : i < 10
    · obtain ⟨m, decoded, other, result⟩ := damaged_count
        (writeAll entryLayout entries ++ footer) (Nat.not_lt.mp start) early changed
      have differs : m.toNat ≠ entries.length := fun length =>
        other (UInt32.toNat_inj.mp (length.trans counted.symm))
      have none : entries.take m.toNat = [] ↔
          m.toNat = 0 := by simp [List.take_eq_nil_iff, some_entry]
      rw [decoded, result, read_whole entries _ short, none, List.take_eq_self_iff]
      omega
    · rw [damaged_crc _ (Nat.not_lt.mp early), counted, read_whole entries _ short,
        List.take_length]
      exact iff_of_true (Or.inr rfl) (Or.inr (Or.inr (Nat.not_lt.mp early)))

theorem damaged_body_iff {entries : List ReplayEntry} {footer : Bytes}
    (counted : n.toNat = entries.length) (short : footer.length = 8)
    (changed : (writeAll entryLayout entries ++ footer)[i]? ≠ some b) :
    (entriesIn (headerBytes n crc ++ (writeAll entryLayout entries ++ footer).set i b) = [] ∨
        entriesIn (headerBytes n crc ++ (writeAll entryLayout entries ++ footer).set i b) =
          entries) ↔
      33 * entries.length ≤ i := by
  have body : (writeAll entryLayout entries).length = 33 * entries.length :=
    writeAll_length entryLayout entries
  rw [entriesIn_image, counted, List.set_append]
  by_cases inside : i < (writeAll entryLayout entries).length
  · rw [List.getElem?_append_left inside] at changed
    obtain ⟨nonempty, differs⟩ := damaged_entry footer i inside changed
    rw [if_pos inside]
    refine iff_of_false ?_ (by omega)
    rintro (none | all)
    · exact nonempty none
    · exact differs all
  · rw [if_neg inside, read_whole entries _ (by rw [List.length_set, short]), List.take_length]
    exact iff_of_true (Or.inr rfl) (by omega)

end Damage

/-- A changed byte is noticed, or does not matter, exactly when it is in the magic or the
    version, makes the count zero or larger than the number of entries, or is in a CRC or the
    footer magic. -/
theorem corrupted_replay_iff (entries : List ReplayEntry) (behind : UInt8 × UInt8)
    (some_entry : entries ≠ []) (small : entries.length < 2 ^ 32) :
    ∃ image, fileImage entries behind = some image ∧
      (∀ s disk path, getAllEntries s = some entries →
        flushToFile s disk path true .full behind =
          some (stopRecording s, disk.put path image, true)) ∧
      ∀ i b disk path header, image[i]? ≠ some b →
        (((readEntries (Disk.put disk path (image.set i b)) path header).1 = [] ∨
            (readEntries (Disk.put disk path (image.set i b)) path header).1 = entries) ↔
          i < 6 ∨
          (6 ≤ i ∧ i < 10 ∧ ((u32.decode (((image.set i b).drop 6).take 4)).toNat = 0 ∨
            entries.length < (u32.decode (((image.set i b).drop 6).take 4)).toNat)) ∨
          (10 ≤ i ∧ i < 16) ∨ 16 + 33 * entries.length ≤ i) := by
  obtain ⟨crc, footer, short, built⟩ := fileImage_eq entries behind
  have counted : (UInt32.ofNat entries.length).toNat = entries.length :=
    UInt32.toNat_ofNat_of_lt' small
  have head := headerBytes_length (UInt32.ofNat entries.length) crc
  refine ⟨_, built, fun s disk path recorded =>
    flushToFile_writes recorded some_entry built disk path, ?_⟩
  intro i b disk path header changed
  rw [readEntries_put]
  by_cases front : i < 16
  · have same : (headerBytes (UInt32.ofNat entries.length) crc ++
        (writeAll entryLayout entries ++ footer)).set i b =
        (headerBytes (UInt32.ofNat entries.length) crc).set i b ++
        (writeAll entryLayout entries ++ footer) := by
      rw [List.set_append, if_pos (by omega)]
    rw [List.getElem?_append_left (by omega)] at changed
    rw [damaged_header_iff some_entry counted short front changed same]
    omega
  · have same : (headerBytes (UInt32.ofNat entries.length) crc ++
        (writeAll entryLayout entries ++ footer)).set i b =
        headerBytes (UInt32.ofNat entries.length) crc ++
        (writeAll entryLayout entries ++ footer).set (i - 16) b := by
      rw [List.set_append, if_neg (by omega), head]
    rw [List.getElem?_append_right (by omega), head] at changed
    rw [same, damaged_body_iff counted short changed]
    omega

theorem changed_magic_rejected :
    ∃ image, fileImage [firstRead] (1, 1) = some image ∧ ∀ b, image[0]? ≠ some b →
      ((readEntries (Disk.put (fun _ => none) [] (image.set 0 b)) [] ⟨0, 0, 0, 0, 0⟩).1 = [] ∨
        (readEntries (Disk.put (fun _ => none) [] (image.set 0 b)) [] ⟨0, 0, 0, 0, 0⟩).1 =
          [firstRead]) := by
  obtain ⟨image, built, _, damaged⟩ :=
    corrupted_replay_iff [firstRead] (1, 1) (by decide) (by decide)
  refine ⟨image, built, fun b changed => ?_⟩
  exact (damaged 0 b (fun _ => none) [] ⟨0, 0, 0, 0, 0⟩ changed).mpr (Or.inl (by decide))

theorem changed_lba_accepted :
    (fileImage [firstRead] (1, 1)).map (fun image =>
      (image.length, image[16]?,
        (readEntries (Disk.put (fun _ => none) [] (image.set 16 2)) [] ⟨0, 0, 0, 0, 0⟩).1)) =
      some (57, some 1, [{ firstRead with lba := 2 }]) := by
  decide +kernel

end ReplayDamage
