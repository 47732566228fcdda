import HyperDisk.OverlayMgr.RecordRoundTrip
import HyperDisk.OverlayMgr.WalSegments

/- Segment files as sequences of frames: how the reading loop walks them, and how one
   complete append extends them. -/
namespace SegmentFrames
open LittleEndian FileImages WalRecords RecordRoundTrip WalSegments

structure Entry where
  seqId : UInt64
  payload : Payload

def Entry.frame (e : Entry) : Bytes := RecordRoundTrip.frame e.seqId e.payload
def Entry.stored (e : Entry) : WalEntry := expectedEntry e.seqId e.payload
def Entry.pair (e : Entry) : UInt64 × Bytes := (e.seqId, e.payload.bytes)

def frames (es : List Entry) : Bytes := es.flatMap Entry.frame

def pairOf (e : WalEntry) : UInt64 × Bytes := (e.seqId, e.payload)

@[simp] theorem pairOf_stored (e : Entry) : pairOf e.stored = e.pair := rfl

@[simp] theorem frames_nil : frames [] = [] := rfl

@[simp] theorem frames_cons (e : Entry) (es : List Entry) :
    frames (e :: es) = e.frame ++ frames es := by
  simp [frames]

@[simp] theorem frames_append (es fs : List Entry) :
    frames (es ++ fs) = frames es ++ frames fs := by
  simp [frames]

@[simp] theorem Entry.frame_length (e : Entry) : e.frame.length = frameSize e.payload :=
  RecordRoundTrip.frame_length e.seqId e.payload

theorem frame_pos (e : Entry) : 26 ≤ e.frame.length := by
  have bounds := frameSize_bounds e.payload
  rw [e.frame_length]
  omega

theorem length_le_frames (es : List Entry) : es.length ≤ (frames es).length := by
  induction es with
  | nil => simp
  | cons e es ih =>
    have first := frame_pos e
    simp only [frames_cons, List.length_cons, List.length_append]
    omega

theorem readLoop_nil {init : TableStore} {fuel : Nat} (positive : 0 < fuel) :
    readLoop init fuel [] = some [] := by
  cases fuel with
  | zero => omega
  | succ fuel => rfl

theorem readLoop_record (fuel : Nat) (e : Entry) (rest : Bytes) :
    readLoop .takesEffect (fuel + 1) (record e.seqId e.payload ++ rest) =
      (readLoop .takesEffect fuel
        ((record e.seqId e.payload ++ rest).drop (frameSize e.payload))).map (e.stored :: ·) := by
  have size : entrySize (expectedEntry e.seqId e.payload).payloadLen = 26 + e.payload.len.toNat :=
    entrySize_of_fits e.payload.fits
  have valid := validate_record e.seqId e.payload rest
  have parsed := parse_record e.seqId e.payload rest
  have nonempty : (record e.seqId e.payload ++ rest).length ≠ 0 := by simp
  generalize record e.seqId e.payload ++ rest = data at *
  cases data with
  | nil => simp at nonempty
  | cons b bs =>
    simp only [readLoop, valid, parsed, Option.bind_eq_bind, Option.bind_some, size]
    rw [if_neg (by simp), ← frameSize]
    cases readLoop .takesEffect fuel ((b :: bs).drop (frameSize e.payload)) <;> rfl

/-- The loop stops, without an error, in front of bytes Validate refuses. -/
theorem readLoop_refused {init : TableStore} {fuel : Nat} {rest : Bytes} {r : WalEntryCheckResult}
    (positive : 0 < fuel) (result : validate init rest = some r) (bad : r.status ≠ .ok) :
    readLoop init fuel rest = some [] := by
  cases fuel with
  | zero => omega
  | succ fuel =>
    cases rest with
    | nil => rfl
    | cons b bs => simp [readLoop, result, bad]

theorem readLoop_frames (es : List Entry) (fuel : Nat) (rest : Bytes) :
    readLoop .takesEffect (es.length + fuel) (frames es ++ rest) =
      (readLoop .takesEffect fuel rest).map (es.map Entry.stored ++ ·) := by
  induction es with
  | nil =>
    simp only [List.length_nil, Nat.zero_add, frames_nil, List.nil_append, List.map_nil]
    cases readLoop .takesEffect fuel rest <;> rfl
  | cons e es ih =>
    have unfolded : frames (e :: es) ++ rest = record e.seqId e.payload ++
        (List.replicate (frameSize e.payload - (26 + e.payload.len.toNat)) 0 ++
          (frames es ++ rest)) := by
      simp [Entry.frame, RecordRoundTrip.frame]
    have stride : (frames (e :: es) ++ rest).drop (frameSize e.payload) = frames es ++ rest := by
      rw [frames_cons, List.append_assoc, List.drop_left' e.frame_length]
    rw [List.length_cons, show es.length + 1 + fuel = es.length + fuel + 1 by omega, unfolded,
      readLoop_record, ← unfolded, stride, ih]
    cases readLoop .takesEffect fuel rest <;> rfl

def Legible (init : TableStore) (es : List Entry) : Prop := init = .takesEffect ∨ es = []

theorem readEntries_frames {init : TableStore} {es : List Entry} (legible : Legible init es) :
    readEntries init (frames es) = some (es.map Entry.stored) := by
  rcases legible with rfl | rfl
  swap
  · rfl
  have enough := length_le_frames es
  have loop := readLoop_frames es ((frames es).length + 1 - es.length) []
  rw [List.append_nil, readLoop_nil (by omega)] at loop
  rw [readEntries, show (frames es).length + 1 = es.length + ((frames es).length + 1 - es.length) by
    omega, loop]
  simp

/-- A segment whose file is exactly these frames, with the descriptor at the end of it. -/
structure Readable (disk : Disk) (seg : Segment) (es : List Entry) : Prop where
  image : disk.contents seg.path = frames es
  size : seg.fileSize = (frames es).length
  position : seg.fd = some (frames es).length

structure Appendable (disk : Disk) (seg : Segment) (es : List Entry) : Prop
    extends Readable disk seg es where
  unsealed : seg.isSealed = false
  writable : seg.readOnly = false

theorem newSegment_fresh {disk : Disk} {path : Path} (startSeqId : UInt64)
    (fresh : disk.contents path = []) :
    (newSegment disk path startSeqId false true).2.path = path ∧
      Appendable (newSegment disk path startSeqId false true).1
        (newSegment disk path startSeqId false true).2 [] := by
  cases image : disk path with
  | none =>
    simp only [newSegment, image, if_true]
    exact ⟨trivial, ⟨contents_put _ _ _, rfl, rfl⟩, rfl, rfl⟩
  | some bytes =>
    have empty : bytes = [] := by simpa [Disk.contents, image] using fresh
    subst empty
    simp only [newSegment, image, if_true]
    exact ⟨trivial, ⟨fresh, rfl, rfl⟩, rfl, rfl⟩

theorem writeEntry_entry {disk : Disk} {seg : Segment} {pos : Nat} (e : Entry)
    (outcome : WriteOutcome) (opened : seg.fd = some pos) (unsealed : seg.isSealed = false)
    (writable : seg.readOnly = false) :
    writeEntry .takesEffect disk seg e.seqId e.payload.data e.payload.len outcome =
      some (appendRecord disk seg pos e.seqId e.frame outcome) := by
  simp [writeEntry, opened, unsealed, writable, build_eq, Entry.frame]

def appended (seg : Segment) (pos : Nat) (e : Entry) : Segment :=
  { seg with
    fd := some (pos + e.frame.length)
    lastSeqId := e.seqId
    entryCount := seg.entryCount + 1
    fileSize := seg.fileSize + e.frame.length }

theorem writeEntry_faults {disk : Disk} {seg : Segment} {pos : Nat} (seqId : UInt64)
    (payload : Option Bytes) (payloadLen : UInt32) (outcome : WriteOutcome)
    (opened : seg.fd = some pos) (unsealed : seg.isSealed = false)
    (writable : seg.readOnly = false) :
    writeEntry .faults disk seg seqId payload payloadLen outcome = none := by
  simp [writeEntry, opened, unsealed, writable, build_faults]

theorem appendRecord_full (disk : Disk) (seg : Segment) (pos : Nat) (e : Entry) :
    appendRecord disk seg pos e.seqId e.frame .full =
      (disk.put seg.path (patch (disk.contents seg.path) pos e.frame),
        appended seg pos e, true) := by
  simp only [appendRecord, WriteOutcome.returned, WriteOutcome.count, List.take_length, ne_eq,
    not_true_eq_false, if_false, appended]

theorem writeEntry_at_end {disk : Disk} {seg : Segment} {es : List Entry} (e : Entry)
    (image : disk.contents seg.path = frames es) (position : seg.fd = some (frames es).length)
    (unsealed : seg.isSealed = false) (writable : seg.readOnly = false) :
    writeEntry .takesEffect disk seg e.seqId e.payload.data e.payload.len .full =
      some (disk.put seg.path (frames (es ++ [e])),
        appended seg (frames es).length e, true) := by
  have grown : patch (disk.contents seg.path) (frames es).length e.frame = frames (es ++ [e]) := by
    rw [image, patch_at_end]
    simp
  rw [writeEntry_entry e .full position unsealed writable, appendRecord_full, grown]

theorem appendable_append {disk : Disk} {seg : Segment} {es : List Entry}
    (h : Appendable disk seg es) (e : Entry) :
    writeEntry .takesEffect disk seg e.seqId e.payload.data e.payload.len .full =
      some (disk.put seg.path (frames (es ++ [e])),
        appended seg (frames es).length e, true) :=
  writeEntry_at_end e h.image h.position h.unsealed h.writable

theorem appendable_appended {disk : Disk} {seg : Segment} {es : List Entry}
    (h : Appendable disk seg es) (e : Entry) :
    Appendable (disk.put seg.path (frames (es ++ [e])))
      (appended seg (frames es).length e) (es ++ [e]) where
  image := contents_put disk seg.path (frames (es ++ [e]))
  size := by simp [appended, h.size]
  position := by simp [appended]
  unsealed := h.unsealed
  writable := h.writable

theorem readAllEntries_frames {init : TableStore} {disk : Disk} {seg : Segment} {es : List Entry}
    {pos : Nat} (legible : Legible init es) (image : disk.contents seg.path = frames es)
    (size : seg.fileSize = (frames es).length) (opened : seg.fd = some pos) :
    readAllEntries init disk seg true =
      (some (es.map Entry.stored), { seg with fd := some (frames es).length }) := by
  have whole : (disk.contents seg.path).take seg.fileSize = frames es := by
    rw [image, size, List.take_length]
  simp only [readAllEntries, opened, if_true, whole, readEntries_frames legible]

theorem readable_read {init : TableStore} {disk : Disk} {seg : Segment} {es : List Entry}
    (legible : Legible init es) (h : Readable disk seg es) :
    readAllEntries init disk seg true = (some (es.map Entry.stored), seg) := by
  rw [readAllEntries_frames legible h.image h.size h.position, ← h.position]

end SegmentFrames
