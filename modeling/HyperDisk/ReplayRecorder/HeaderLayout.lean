import HyperDisk.ReplayRecorder.ReplayDamage

/- The header of a replay file as FlushToFile lays it out and as ReadEntries takes it apart. The
   writer copies twelve bytes of the struct, two too many, and puts the CRC and the reserved word
   behind these; the reader has them where the packed struct has. -/
namespace HeaderLayout
open LittleEndian PackedFields RingBuffer ReplayFiles ReplayDamage

def headerCopies (entryCount : UInt32) : List (Nat × Bytes) :=
  [(0, (fileHeaderLayout.encode ⟨replayMagic, replayVersion, entryCount, 0, 0⟩).take 12),
    (12, u32.encode (headerCrc entryCount)), (16, u16.encode 0)]

theorem writeHeader_copies (entryCount : UInt32) (behind : UInt8 × UInt8) :
    writeHeader entryCount behind =
      (headerCopies entryCount).foldlM (fun buf copy => overwrite buf copy.1 copy.2)
        (List.replicate replayHeaderSize 0 ++ [behind.1, behind.2]) := by
  obtain ⟨first, made⟩ := first_copy entryCount behind
  simp only [writeHeader, headerCopies, List.foldlM_cons, List.foldlM_nil, header_copied, first,
    made, Option.bind_eq_bind, Option.bind_some, Option.pure_def, Option.bind_fun_some]

theorem shifted_toNat (crc : UInt32) :
    (crc <<< 16).toNat = crc.toNat % 2 ^ 16 * 2 ^ 16 ∧
      (crc >>> 16).toUInt16.toNat = crc.toNat / 2 ^ 16 := by
  have small := crc.toNat_lt
  constructor
  · rw [UInt32.toNat_shiftLeft, Nat.shiftLeft_eq]
    simp
    omega
  · rw [UInt32.toNat_toUInt16, UInt32.toNat_shiftRight, Nat.shiftRight_eq_div_pow]
    simp
    omega

theorem shifted_word (crc : UInt32) :
    ([0, 0] : Bytes) ++ u32.encode crc =
      u32.encode (crc <<< 16) ++ u16.encode (crc >>> 16).toUInt16 := by
  have small := crc.toNat_lt
  obtain ⟨low, high⟩ := shifted_toNat crc
  apply load_inj
  · rw [List.length_append, List.length_append, u32.encode_length, u32.encode_length,
      u16.encode_length]
    rfl
  · rw [load_append, load_append, u32.encode_length]
    change load [0, 0] + 256 ^ 2 * load (store 4 crc.toNat) =
      load (store 4 (crc <<< 16).toNat) + 256 ^ 4 * load (store 2 (crc >>> 16).toUInt16.toNat)
    rw [load_store, load_store, load_store, low, high, show load [0, 0] = 0 from rfl]
    omega

theorem header_read (entryCount crc : UInt32) :
    fileHeaderLayout.decode (headerBytes entryCount crc) =
      ⟨replayMagic, replayVersion, entryCount, crc <<< 16, (crc >>> 16).toUInt16⟩ := by
  have laid : headerBytes entryCount crc = fileHeaderLayout.encode
      ⟨replayMagic, replayVersion, entryCount, crc <<< 16, (crc >>> 16).toUInt16⟩ := by
    rw [headerBytes, shifted_word, headerFront, List.append_assoc, List.append_assoc]
    rfl
  rw [laid, fileHeaderLayout.decode_encode]

theorem shifted_iff (crc : UInt32) : crc <<< 16 = crc ∧ (crc >>> 16).toUInt16 = 0 ↔ crc = 0 := by
  obtain ⟨low, high⟩ := shifted_toNat crc
  constructor
  · rintro ⟨same, none⟩
    rw [same] at low
    rw [none, UInt16.toNat_zero] at high
    apply UInt32.toNat_inj.mp
    rw [UInt32.toNat_zero]
    omega
  · rintro rfl
    decide

structure LaidOut (entryCount : UInt32) (behind : UInt8 × UInt8) : Prop where
  inside : ∀ copy ∈ headerCopies entryCount, copy.1 + copy.2.length ≤ replayHeaderSize
  read : ∃ buf, writeHeader entryCount behind = some buf ∧
    fileHeaderLayout.decode (buf.take replayHeaderSize) =
      ⟨replayMagic, replayVersion, entryCount, headerCrc entryCount, 0⟩

/-- No header is laid out right: the reserved word is always written behind header_buf. What is
    read back has the magic, the version and the count, but the CRC two bytes too far up, so that
    it is right only if it is zero. -/
theorem header_layout_fails (entryCount : UInt32) (behind : UInt8 × UInt8) :
    ¬ LaidOut entryCount behind ∧
      ∃ buf, writeHeader entryCount behind = some buf ∧
        fileHeaderLayout.decode (buf.take replayHeaderSize) =
          ⟨replayMagic, replayVersion, entryCount, headerCrc entryCount <<< 16,
            (headerCrc entryCount >>> 16).toUInt16⟩ ∧
        (fileHeaderLayout.decode (buf.take replayHeaderSize) =
            ⟨replayMagic, replayVersion, entryCount, headerCrc entryCount, 0⟩ ↔
          headerCrc entryCount = 0) := by
  have front : (headerBytes entryCount (headerCrc entryCount) ++ [0, 0]).take replayHeaderSize =
      headerBytes entryCount (headerCrc entryCount) := List.take_left' (headerBytes_length _ _)
  constructor
  · intro laid
    have last := laid.inside (16, u16.encode 0) (by simp [headerCopies])
    exact absurd last (by decide)
  · refine ⟨_, writeHeader_eq entryCount behind, ?_, ?_⟩
    · rw [front, header_read]
    · rw [front, header_read, ← shifted_iff]
      simp

theorem one_entry_header :
    (writeHeader 1 (7, 7)).map (fun buf => buf.drop 16) = some [0, 0] ∧
      ((writeHeader 1 (7, 7)).map fun buf =>
          (fileHeaderLayout.decode (buf.take replayHeaderSize)).headerCrc32c) ≠
        some (headerCrc 1) ∧
      ((writeHeader 1 (7, 7)).map fun buf =>
          (fileHeaderLayout.decode (buf.take replayHeaderSize)).reserved) ≠ some 0 := by
  decide +kernel

end HeaderLayout
