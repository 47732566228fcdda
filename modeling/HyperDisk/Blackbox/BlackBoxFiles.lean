import Mathlib.Data.List.Induction
import HyperDisk.Blackbox.BlackBoxRecorder
import HyperDisk.Foundations.WordCounters

/- The entries a black box keeps, in the ring and in the file that FlushToDisk writes, and what
   AnalyzeBlackBox makes of them. -/
namespace BlackBoxFiles
open LittleEndian PackedFields PackedRecords FileImages StepRuns WordCounters BlackBoxRecorder

theorem low32_toNat (x : UInt64) : (low32 x).toNat = x.toNat % 2 ^ 32 := by
  rw [low32, UInt64.toNat_toUInt32, UInt64.toNat_and]
  have mask : x.toNat &&& (0xFFFFFFFF : UInt64).toNat = x.toNat % 2 ^ 32 :=
    Nat.and_two_pow_sub_one_eq_mod x.toNat 32
  rw [mask, Nat.mod_mod]

theorem high32_toNat (x : UInt64) : (high32 x).toNat = x.toNat / 2 ^ 32 := by
  have shifted : (x >>> 32).toNat = x.toNat / 2 ^ 32 := by
    rw [UInt64.toNat_shiftRight, show (32 : UInt64).toNat % 64 = 32 from rfl,
      Nat.shiftRight_eq_div_pow]
  have small := x.toNat_lt
  rw [high32, UInt64.toNat_toUInt32, shifted, Nat.mod_eq_of_lt (by omega)]

theorem or_shiftLeft_eq_add {low : Nat} (high width : Nat) (small : low < 2 ^ width) :
    low ||| high <<< width = low + high * 2 ^ width := by
  rw [Nat.or_comm, ← Nat.shiftLeft_add_eq_or_of_lt small, Nat.shiftLeft_eq, Nat.add_comm]

theorem join32_halves (x : UInt64) : join32 (low32 x) (high32 x) = x := by
  have small := x.toNat_lt
  apply UInt64.toNat_inj.mp
  rw [join32, UInt64.toNat_or, UInt64.toNat_shiftLeft, UInt32.toNat_toUInt64, UInt32.toNat_toUInt64,
    low32_toNat, high32_toNat, show (32 : UInt64).toNat % 64 = 32 from rfl, Nat.shiftLeft_eq,
    Nat.mod_eq_of_lt (show x.toNat / 2 ^ 32 * 2 ^ 32 < 2 ^ 64 by omega), ← Nat.shiftLeft_eq,
    or_shiftLeft_eq_add _ _ (by omega)]
  omega

theorem phaseOf_code (p : BbPhase) : phaseOf p.code = some p := by
  cases p <;> rfl

theorem statusOf_code (s : BbStatus) : statusOf s.code = some s := by
  cases s <;> rfl

theorem offset_kept (offset : UInt32) :
    (offset &&& 0xFFFF).toUInt16.toUInt32 = offset ↔ offset.toNat < 2 ^ 16 := by
  have mask : offset.toNat &&& (0xFFFF : UInt32).toNat = offset.toNat % 2 ^ 16 :=
    Nat.and_two_pow_sub_one_eq_mod offset.toNat 16
  rw [← UInt32.toNat_inj, UInt16.toNat_toUInt32, UInt32.toNat_toUInt16, UInt32.toNat_and, mask]
  omega

theorem size_kept (size : UInt32) :
    (size &&& 0xFFFF).toUInt16.toUInt32 ||| ((size >>> 16).toUInt8.toUInt32 <<< 16) = size ↔
      size.toNat < 2 ^ 24 := by
  have mask : size.toNat &&& (0xFFFF : UInt32).toNat = size.toNat % 2 ^ 16 :=
    Nat.and_two_pow_sub_one_eq_mod size.toNat 16
  have small := size.toNat_lt
  rw [← UInt32.toNat_inj, UInt32.toNat_or, UInt16.toNat_toUInt32, UInt32.toNat_toUInt16,
    UInt32.toNat_and, mask, UInt32.toNat_shiftLeft, UInt8.toNat_toUInt32, UInt32.toNat_toUInt8,
    UInt32.toNat_shiftRight, show (16 : UInt32).toNat % 32 = 16 from rfl, Nat.shiftLeft_eq,
    Nat.shiftRight_eq_div_pow, Nat.mod_eq_of_lt (show _ < 2 ^ 32 by omega), ← Nat.shiftLeft_eq,
    or_shiftLeft_eq_add _ _ (by omega)]
  omega

def recordedLine (start : UInt64) (c : RecordCall) : TimelineLine :=
  ⟨c.now - start, some c.phase, some c.status, c.lba, c.offset, c.size, c.latencyUs⟩

theorem line_recorded_iff (start : UInt64) (c : RecordCall) :
    timelineLine (entryOf start c) = recordedLine start c ↔
      c.offset.toNat < 2 ^ 16 ∧ c.size.toNat < 2 ^ 24 := by
  rw [← offset_kept, ← size_kept]
  simp only [timelineLine, entryOf, recordedLine, join32_halves, phaseOf_code, statusOf_code,
    TimelineLine.mk.injEq, true_and, and_true]

/-- The number of entries that fit: the look-ahead leaves the last one unused. -/
def maxEntries : Nat := bbRingSize / 26 - 1

def kept (start : UInt64) (calls : List RecordCall) : List BlackBoxEntry :=
  (calls.map (entryOf start)).take maxEntries

theorem kept_length (start : UInt64) (calls : List RecordCall) :
    (kept start calls).length = min calls.length maxEntries := by
  rw [kept, List.length_take, List.length_map, Nat.min_comm]

theorem kept_room (start : UInt64) (calls : List RecordCall) (c : RecordCall)
    (room : calls.length < maxEntries) :
    kept start (calls ++ [c]) = kept start calls ++ [entryOf start c] := by
  unfold kept
  rw [List.map_append, List.map_singleton, List.take_of_length_le (by simp; omega),
    List.take_of_length_le (by simp; omega)]

theorem kept_full (start : UInt64) (calls : List RecordCall) (c : RecordCall)
    (full : maxEntries ≤ calls.length) : kept start (calls ++ [c]) = kept start calls := by
  unfold kept
  rw [List.map_append, List.take_append_of_le_length (by simpa using full)]

def ringOf (entries : List BlackBoxEntry) : Bytes :=
  writeAll entryLayout entries ++ List.replicate (bbRingSize - 26 * entries.length) 0

theorem entries_length (entries : List BlackBoxEntry) :
    (writeAll entryLayout entries).length = 26 * entries.length :=
  writeAll_length entryLayout entries

theorem ringOf_snoc (entries : List BlackBoxEntry) (e : BlackBoxEntry)
    (room : 26 * (entries.length + 1) ≤ bbRingSize) :
    overwrite (ringOf entries) (26 * entries.length) (entryLayout.encode e) =
      some (ringOf (entries ++ [e])) := by
  have size : (entryLayout.encode e).length = 26 := entryLayout.encode_length e
  have stored := overwrite_zeros (writeAll entryLayout entries) (entryLayout.encode e)
    (bbRingSize - 26 * entries.length) (by omega)
  have bytes : writeAll entryLayout (entries ++ [e]) =
      writeAll entryLayout entries ++ entryLayout.encode e := by
    simp [writeAll]
  rw [entries_length] at stored
  rw [ringOf, stored, ringOf, bytes, size, List.length_append, List.length_singleton,
    show bbRingSize - 26 * entries.length - 26 = bbRingSize - 26 * (entries.length + 1) by omega]

theorem ringOf_used (entries : List BlackBoxEntry) :
    slice (ringOf entries) 0 (26 * entries.length) = some (writeAll entryLayout entries) := by
  have size := entries_length entries
  rw [slice_eq_some (by rw [ringOf, List.length_append, size, List.length_replicate]; omega),
    List.drop_zero, ringOf, List.take_left' size]

structure Recorded (start : UInt64) (calls : List RecordCall) (s : Recorder) : Prop where
  initialized : s.initialized = true
  started : s.startTime = start
  ring : s.ringBuffer = some (ringOf (kept start calls))
  position : s.writePos.toNat = 26 * (kept start calls).length
  count : s.entryCount.toNat = (kept start calls).length
  dropped : s.overflowCount.toNat = (calls.length - (kept start calls).length) % 2 ^ 32

section Runs
variable {start : UInt64} {calls : List RecordCall} {s : Recorder}

theorem recorded_start (off : s.initialized = false) (start : UInt64) :
    Recorded start [] (initializeRecorder s true start).1 := by
  unfold initializeRecorder
  rw [off]
  constructor <;> rfl

theorem position_lt (h : Recorded start calls s) : s.writePos.toNat + 26 < bbRingSize := by
  have length := kept_length start calls
  have size : bbRingSize = 67108864 := rfl
  have most : maxEntries = 2581109 := rfl
  have position := h.position
  omega

theorem next_position (h : Recorded start calls s) :
    (s.writePos + bbEntrySize).toNat = s.writePos.toNat + 26 := by
  have inside := position_lt h
  have size : bbRingSize = 67108864 := rfl
  rw [UInt32.toNat_add, show bbEntrySize.toNat = 26 from rfl]
  exact Nat.mod_eq_of_lt (by omega)

theorem full_iff (h : Recorded start calls s) : full s = true ↔ maxEntries ≤ calls.length := by
  have length := kept_length start calls
  have size : bbRingSize = 67108864 := rfl
  have most : maxEntries = 2581109 := rfl
  rw [full, decide_eq_true_iff, next_position h, h.position]
  omega

theorem record_full (h : Recorded start calls s) (c : RecordCall) (full : full s = true) :
    record s c = some { s with overflowCount := s.overflowCount + 1 } ∧
      Recorded start (calls ++ [c]) { s with overflowCount := s.overflowCount + 1 } := by
  have same := kept_full start calls c ((full_iff h).mp full)
  have fewer : (kept start calls).length ≤ calls.length := by
    rw [kept_length]
    exact Nat.min_le_left _ _
  constructor
  · rw [record, if_neg (not_not.mpr h.initialized), if_pos full]
  · constructor
    · exact h.initialized
    · exact h.started
    · rw [same]
      exact h.ring
    · rw [same]
      exact h.position
    · rw [same]
      exact h.count
    · rw [same, succ_mod, h.dropped, List.length_append, List.length_singleton, Nat.mod_add_mod,
        Nat.sub_add_comm fewer]

theorem record_room (h : Recorded start calls s) (c : RecordCall) (room : full s = false) :
    ∃ t, record s c = some t ∧ Recorded start (calls ++ [c]) t ∧
      kept start (calls ++ [c]) = kept start calls ++ [entryOf start c] := by
  have few : calls.length < maxEntries := by
    rw [← Nat.not_le, ← full_iff h, room]
    decide
  have size : bbRingSize = 67108864 := rfl
  have most : maxEntries = 2581109 := rfl
  have length := kept_length start calls
  have next := kept_room start calls c few
  have stored := ringOf_snoc (kept start calls) (entryOf start c) (by omega)
  refine ⟨{ s with
    ringBuffer := some (ringOf (kept start (calls ++ [c])))
    writePos := s.writePos + bbEntrySize
    entryCount := s.entryCount + 1 }, ?_, ?_, next⟩
  · rw [record, if_neg (not_not.mpr h.initialized), if_neg (by rw [room]; decide), h.ring,
      h.started, h.position, next]
    simp only [Option.bind_eq_bind, Option.bind_some, stored]
  · constructor
    · exact h.initialized
    · exact h.started
    · rfl
    · rw [next, List.length_append, List.length_singleton]
      exact (next_position h).trans (by rw [h.position, Nat.mul_succ])
    · rw [next, List.length_append, List.length_singleton, ← h.count]
      exact succ_of_room (by rw [h.count]; omega)
    · rw [next, List.length_append, List.length_append, List.length_singleton,
        List.length_singleton, Nat.add_sub_add_right]
      exact h.dropped

theorem record_keeps (h : Recorded start calls s) (c : RecordCall) :
    ∃ t, record s c = some t ∧ Recorded start (calls ++ [c]) t := by
  cases room : full s with
  | true => exact ⟨_, record_full h c room⟩
  | false =>
    obtain ⟨t, done, after, _⟩ := record_room h c room
    exact ⟨t, done, after⟩

theorem recorded_run (off : s.initialized = false) (start : UInt64) (calls : List RecordCall) :
    ∃ t, run recordStep (some (initializeRecorder s true start).1) calls = some t ∧
      Recorded start calls t := by
  induction calls using List.reverseRecOn with
  | nil => exact ⟨_, rfl, recorded_start off start⟩
  | append_singleton calls c ih =>
    obtain ⟨t, reached, h⟩ := ih
    obtain ⟨u, done, after⟩ := record_keeps h c
    refine ⟨u, ?_, after⟩
    rw [run_append, reached]
    exact done

theorem stored_entry (h : Recorded start calls s) (c : RecordCall) (room : full s = false) :
    ∃ t ring, record s c = some t ∧ t.ringBuffer = some ring ∧
      slice ring s.writePos.toNat 26 = some (entryLayout.encode (entryOf start c)) := by
  obtain ⟨t, done, after, next⟩ := record_room h c room
  have bytes : ringOf (kept start (calls ++ [c])) = writeAll entryLayout (kept start calls) ++
      (entryLayout.encode (entryOf start c) ++
        List.replicate (bbRingSize - 26 * (kept start (calls ++ [c])).length) 0) := by
    rw [ringOf, next]
    simp [writeAll]
  have size : (entryLayout.encode (entryOf start c)).length = 26 := entryLayout.encode_length _
  have front := entries_length (kept start calls)
  refine ⟨t, _, done, after.ring, ?_⟩
  rw [bytes, h.position, slice_eq_some (by
    rw [List.length_append, List.length_append, front, size]
    omega), field_of_append _ _ _ front size]

/-- An accepted call is shown as it was made exactly when the offset fits 16 bits and the size
    fits 24. -/
theorem recorded_fields_iff (off : s.initialized = false) (start : UInt64) (calls : List RecordCall)
    (c : RecordCall) {before : Recorder}
    (reached : run recordStep (some (initializeRecorder s true start).1) calls = some before)
    (accepted : full before = false) :
    ∃ after ring bytes, record before c = some after ∧ after.ringBuffer = some ring ∧
      slice ring before.writePos.toNat 26 = some bytes ∧
      (timelineLine (entryLayout.decode bytes) = recordedLine start c ↔
        c.offset.toNat < 2 ^ 16 ∧ c.size.toNat < 2 ^ 24) := by
  obtain ⟨t, same, h⟩ := recorded_run off start calls
  rw [reached] at same
  cases same
  obtain ⟨after, ring, done, held, stored⟩ := stored_entry h c accepted
  refine ⟨after, ring, _, done, held, stored, ?_⟩
  rw [entryLayout.decode_encode]
  exact line_recorded_iff start c

end Runs

def largeOffset : RecordCall := ⟨.bootagent, 2048, 65536, 65536, .success, 12, 0⟩

theorem large_offset_cut :
    ∃ after ring bytes, record (initializeRecorder newRecorder true 0).1 largeOffset = some after ∧
      after.ringBuffer = some ring ∧ slice ring 0 26 = some bytes ∧
      (timelineLine (entryLayout.decode bytes)).offset = 0 ∧
      (recordedLine 0 largeOffset).offset = 65536 := by
  obtain ⟨after, ring, done, held, stored⟩ :=
    stored_entry (recorded_start (s := newRecorder) rfl 0) largeOffset rfl
  exact ⟨after, ring, _, done, held, stored, by rw [entryLayout.decode_encode]; decide, rfl⟩

def firstRead : RecordCall := ⟨.pxe, 0, 0, 4096, .success, 100, 7⟩

def lateWrite : RecordCall := ⟨.winload, 0x1234567890, 4097, 0x12345, .retry, 300, 0x987654321⟩

theorem late_write_shown :
    ∃ before after ring bytes,
      run recordStep (some (initializeRecorder newRecorder true 5).1) [firstRead, firstRead] =
        some before ∧
      record before lateWrite = some after ∧ after.ringBuffer = some ring ∧
      slice ring before.writePos.toNat 26 = some bytes ∧
      timelineLine (entryLayout.decode bytes) = recordedLine 5 lateWrite := by
  obtain ⟨before, reached, h⟩ := recorded_run (s := newRecorder) rfl 5 [firstRead, firstRead]
  have room : full before = false := by
    rw [← Bool.not_eq_true, full_iff h]
    decide
  obtain ⟨after, ring, bytes, done, held, stored, shown⟩ :=
    recorded_fields_iff (s := newRecorder) rfl 5 [firstRead, firstRead] lateWrite reached room
  exact ⟨before, after, ring, bytes, reached, done, held, stored, shown.mpr (by decide)⟩

section Files
variable {start : UInt64} {calls : List RecordCall} {s : Recorder}

theorem kept_fits (start : UInt64) (calls : List RecordCall) :
    26 * (kept start calls).length < 2 ^ 32 := by
  have length := kept_length start calls
  have most : maxEntries = 2581109 := rfl
  omega

theorem crc_used (entries tail : Bytes) {len : UInt32} (all : len.toNat = entries.length) :
    computeCrc32C (entries ++ tail) len = computeCrc32C entries len := by
  unfold computeCrc32C
  rw [all, List.take_left, List.take_length]

def footerOf (entries : List BlackBoxEntry) (count : UInt32) : BlackBoxFileFooter :=
  ⟨computeCrc32C (writeAll entryLayout entries) (UInt32.ofNat (26 * entries.length)), count, 0⟩

theorem fileImage_eq (h : Recorded start calls s) (endTime : UInt64) :
    fileImage s endTime = some (fileHeaderLayout.encode (fillHeader s.entryCount start endTime) ++
      writeAll entryLayout (kept start calls) ++
      fileFooterLayout.encode (footerOf (kept start calls) s.entryCount)) := by
  have small := kept_fits start calls
  have used := ringOf_used (kept start calls)
  have crc : computeCrc32C (ringOf (kept start calls)) s.writePos =
      computeCrc32C (writeAll entryLayout (kept start calls))
        (UInt32.ofNat (26 * (kept start calls).length)) := by
    have position : s.writePos = UInt32.ofNat (26 * (kept start calls).length) := by
      rw [← h.position, UInt32.ofNat_toNat]
    rw [ringOf, position]
    exact crc_used _ _ (by rw [UInt32.toNat_ofNat_of_lt' small, entries_length])
  rw [← h.position] at used
  rw [fileImage, h.ring, h.started]
  simp only [Option.bind_eq_bind, Option.bind_some, used, crc]
  rfl

theorem analyze_written {disk : Disk} {path : Path} (header : BlackBoxFileHeader)
    (entries : List BlackBoxEntry) (footer : BlackBoxFileFooter) (magic : header.magic = bbMagic)
    (count : header.entryCount.toNat = entries.length)
    (file : disk path = some (fileHeaderLayout.encode header ++ writeAll entryLayout entries ++
      fileFooterLayout.encode footer)) :
    analyzeBlackBox disk path = .ok ⟨header, entries, footer,
      computeCrc32C (writeAll entryLayout entries) (UInt32.ofNat (26 * entries.length))⟩ := by
  have size : (fileHeaderLayout.encode header).length = fileHeaderLayout.size :=
    fileHeaderLayout.encode_length header
  have tail : (fileFooterLayout.encode footer).length = fileFooterLayout.size :=
    fileFooterLayout.encode_length footer
  have bytes : (writeAll entryLayout entries).length = entryLayout.size * entries.length :=
    writeAll_length entryLayout entries
  have short : (fileFooterLayout.encode footer).length < entryLayout.size := by
    rw [tail]
    decide
  have long : ¬ (fileHeaderLayout.encode header ++
      (writeAll entryLayout entries ++ fileFooterLayout.encode footer)).length <
        fileHeaderLayout.size := by
    rw [List.length_append, size]
    omega
  have read := readUpTo_writeAll entryLayout entries.length entries short
  rw [List.take_length] at read
  rw [List.append_assoc] at file
  simp only [analyzeBlackBox, file, long, if_false, List.take_left' size, List.drop_left' size,
    fileHeaderLayout.decode_encode, magic, ne_eq, not_true_eq_false, count, read,
    List.drop_left' bytes, tail, Nat.lt_irrefl, List.take_of_length_le (Nat.le_of_eq tail),
    fileFooterLayout.decode_encode]
  rw [Nat.mul_comm]
  rfl

/-- The write position never leaves the ring, and the count is its number of entries. -/
def Positioned (s : Option Recorder) : Prop :=
  ∃ t, s = some t ∧ t.writePos.toNat = 26 * t.entryCount.toNat ∧ t.writePos.toNat ≤ bbRingSize

theorem positioned_always (off : s.initialized = false) (start : UInt64) (calls : List RecordCall) :
    Always recordStep Positioned (some (initializeRecorder s true start).1) calls := by
  rw [always_iff_prefixes]
  intro k
  obtain ⟨t, reached, h⟩ := recorded_run off start (calls.take k)
  have inside := position_lt h
  exact ⟨t, reached, by rw [h.position, h.count], by omega⟩

theorem black_box_file (off : s.initialized = false) (start : UInt64) (calls : List RecordCall)
    (some_calls : calls ≠ []) (disk : Disk) (path : Path) (endTime : UInt64) :
    Always recordStep Positioned (some (initializeRecorder s true start).1) calls ∧
    ∃ t written a, run recordStep (some (initializeRecorder s true start).1) calls = some t ∧
      t.overflowCount.toNat = (calls.length - min calls.length maxEntries) % 2 ^ 32 ∧
      flushToDisk t disk path true .full endTime = some (written, true) ∧
      analyzeBlackBox written path = .ok a ∧ a.crcMatches = true ∧
      a.entries = (calls.map (entryOf start)).take (min calls.length maxEntries) ∧
      a.header.entryCount.toNat = min calls.length maxEntries ∧
      a.footer.entryCountVerify.toNat = min calls.length maxEntries := by
  obtain ⟨t, reached, h⟩ := recorded_run off start calls
  have length := kept_length start calls
  have positive : t.entryCount ≠ 0 := by
    intro zero
    have none := h.count
    rw [zero, length] at none
    have any := List.length_pos_iff.mpr some_calls
    have most : maxEntries = 2581109 := rfl
    have zero : (0 : UInt32).toNat = 0 := rfl
    omega
  have flushed : flushToDisk t disk path true .full endTime = some (disk.put path
      (fileHeaderLayout.encode (fillHeader t.entryCount start endTime) ++
        writeAll entryLayout (kept start calls) ++
        fileFooterLayout.encode (footerOf (kept start calls) t.entryCount)), true) := by
    rw [flushToDisk, if_neg (by simp [h.initialized, positive]), if_pos rfl, fileImage_eq h]
    simp only [Option.bind_eq_bind, Option.bind_some, WriteOutcome.count, List.take_length]
  refine ⟨positioned_always off start calls, t, _, _, reached, ?_, flushed,
    analyze_written (fillHeader t.entryCount start endTime) (kept start calls)
      (footerOf (kept start calls) t.entryCount) rfl h.count (by simp [Disk.put]), ?_, ?_, ?_, ?_⟩
  · rw [h.dropped, length]
  · exact beq_self_eq_true _
  · rw [← List.length_map (entryOf start), Nat.min_comm, ← List.take_eq_take_min]
    rfl
  · exact h.count.trans length
  · exact h.count.trans length

end Files

theorem three_entry_file :
    ∃ t written a,
      run recordStep (some (initializeRecorder newRecorder true 5).1)
        [firstRead, largeOffset, lateWrite] = some t ∧
      flushToDisk t (fun _ => none) [] true .full 9 = some (written, true) ∧
      analyzeBlackBox written [] = .ok a ∧ a.crcMatches = true ∧
      a.entries = [entryOf 5 firstRead, entryOf 5 largeOffset, entryOf 5 lateWrite] := by
  obtain ⟨_, t, written, a, reached, _, flushed, analyzed, crc, entries, _⟩ :=
    black_box_file (s := newRecorder) rfl 5 [firstRead, largeOffset, lateWrite] (by decide)
      (fun _ => none) [] 9
  exact ⟨t, written, a, reached, flushed, analyzed, crc, entries⟩

theorem dropped_count_wraps :
    ∃ t, run recordStep (some (initializeRecorder newRecorder true 5).1)
        (List.replicate (2 ^ 32 + maxEntries) firstRead) = some t ∧
      t.overflowCount.toNat = 0 ∧
      (List.replicate (2 ^ 32 + maxEntries) firstRead).length -
        min (List.replicate (2 ^ 32 + maxEntries) firstRead).length maxEntries = 2 ^ 32 := by
  have dropped : 2 ^ 32 + maxEntries - min (2 ^ 32 + maxEntries) maxEntries = 2 ^ 32 := by omega
  obtain ⟨t, reached, h⟩ :=
    recorded_run (s := newRecorder) rfl 5 (List.replicate (2 ^ 32 + maxEntries) firstRead)
  refine ⟨t, reached, ?_, ?_⟩
  · rw [h.dropped, kept_length, List.length_replicate, dropped, Nat.mod_self]
  · rw [List.length_replicate, dropped]

end BlackBoxFiles
