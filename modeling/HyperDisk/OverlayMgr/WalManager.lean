import HyperDisk.Foundations.DecimalText
import HyperDisk.OverlayMgr.WalSegments

/- The WalManager class: sequence fence, active and sealed segments, checkpoint file.
   A world is one data directory's disk and the manager object a process runs on it.
   System calls that may fail are decided by an `Io` argument of each operation, the store
   into the const CRC table by a `TableStore` of the process. -/
namespace WalManager
open LittleEndian FileImages DecimalText WalRecords WalSegments

structure Io where
  opens : Bool := true
  reads : Path → Bool := fun _ => true
  outcome : WriteOutcome := .full

def Io.clean : Io := {}

@[simp] theorem Io.clean_opens : Io.clean.opens = true := rfl
@[simp] theorem Io.clean_reads (path : Path) : Io.clean.reads path = true := rfl
@[simp] theorem Io.clean_outcome : Io.clean.outcome = .full := rfl

structure Checkpoint where
  flushedSeqId : UInt64
  timestampMs : UInt64
  segmentPath : Path
  deriving DecidableEq, Repr

/-- seg_num is a uint32_t printed with %d, so its upper half prints as negative. -/
def asInt (n : UInt32) : Int := if n.toNat < 2 ^ 31 then n.toNat else n.toNat - 2 ^ 32

def segmentPath (dataDir : Path) (number : UInt32) : Path :=
  dataDir ++ ascii ['/', 'w', 'a', 'l', '-', 's', 'e', 'g', '-'] ++
    zeroPadded 6 (asInt number) ++ ascii ['.', 'l', 'o', 'g']

def checkpointPath (dataDir : Path) : Path :=
  dataDir ++ ascii ['/', 'w', 'a', 'l', '.', 'c', 'k', 'p', 't']

structure Manager where
  dataDir : Path
  nextSeqId : UInt64
  activeSegment : Option Segment
  sealedSegments : List Segment
  nextSegmentNumber : UInt32
  isOpen : Bool
  named : ∀ seg, seg ∈ activeSegment.toList ++ sealedSegments →
    ∃ n, seg.path = segmentPath dataDir n

structure World where
  disk : Disk
  mgr : Manager

def newManager (dataDir : Path) : Manager := ⟨dataDir, 1, none, [], 1, false, by simp⟩

/-- Descriptors are non-negative ints, so a process holds at most 2^31 of them; sealed
    segments keep theirs until Close. -/
def descriptorLimit : Nat := 2 ^ 31

def Manager.descriptors (m : Manager) : Nat :=
  (m.activeSegment.toList ++ m.sealedSegments).countP fun seg => seg.fd.isSome

theorem newSegment_path (disk : Disk) (path : Path) (startSeqId : UInt64) (readOnly opens : Bool) :
    (newSegment disk path startSeqId readOnly opens).2.path = path := by
  unfold newSegment
  split
  · split <;> rfl
  · rfl

theorem appendRecord_path (disk : Disk) (seg : Segment) (pos : Nat) (seqId : UInt64) (buf : Bytes)
    (outcome : WriteOutcome) :
    (appendRecord disk seg pos seqId buf outcome).2.1.path = seg.path := by
  unfold appendRecord
  split <;> rfl

theorem writeEntry_path {init : TableStore} {disk disk' : Disk} {seg seg' : Segment}
    {seqId : UInt64} {payload : Option Bytes} {payloadLen : UInt32} {outcome : WriteOutcome}
    {ok : Bool}
    (h : writeEntry init disk seg seqId payload payloadLen outcome = some (disk', seg', ok)) :
    seg'.path = seg.path := by
  unfold writeEntry at h
  split at h
  · simp_all
  · rename_i pos _
    split at h
    · simp_all
    · simp only [Option.bind_eq_bind, Option.bind_eq_some_iff, Option.some.injEq] at h
      obtain ⟨buf, _, result⟩ := h
      have same := appendRecord_path disk seg pos seqId buf outcome
      rwa [result] at same

theorem readAllEntries_path (init : TableStore) (disk : Disk) (seg : Segment) (reads : Bool) :
    (readAllEntries init disk seg reads).2.path = seg.path := by
  unfold readAllEntries
  split
  · rfl
  · split <;> rfl

def parseCheckpoint (image : Bytes) : Checkpoint :=
  let buf := image.take 1023
  if buf = [] then ⟨0, 0, []⟩
  else
    let text := buf.takeWhile (· != 0)
    let (flushed, save) := strtok 44 text
    let (timestamp, save) := strtok 44 save
    let (path, _) := strtok 10 save
    ⟨(flushed.map strtoull).getD 0, (timestamp.map strtoull).getD 0, path.getD []⟩

def readCheckpoint (disk : Disk) (dataDir : Path) (reads : Bool) : Checkpoint :=
  match disk (checkpointPath dataDir) with
  | none => ⟨0, 0, []⟩
  | some image => if reads then parseCheckpoint image else ⟨0, 0, []⟩

def checkpointLine (flushedSeqId : UInt64) (now : Int) (activePath : Path) : Bytes :=
  decimal flushedSeqId.toNat ++ 44 :: (signedDecimal now ++ 44 :: (activePath ++ [10]))

def writeCheckpoint (w : World) (flushedSeqId : UInt64) (now : Int) (io : Io) : World × Bool :=
  if io.opens then
    let line := checkpointLine flushedSeqId now ((w.mgr.activeSegment.map Segment.path).getD [])
    let n := io.outcome.count line.length
    ({ w with disk := w.disk.put (checkpointPath w.mgr.dataDir) (line.take n) },
      decide (0 < io.outcome.returned line.length))
  else (w, false)

/-- WalManager::Open: the fence restarts behind the checkpoint, and the one segment that
    is opened is the one next_segment_number_ names. -/
def openWal (w : World) (io : Io) : World :=
  let m := w.mgr
  let cp := readCheckpoint w.disk m.dataDir (io.reads (checkpointPath m.dataDir))
  let next := cp.flushedSeqId + 1
  let path := segmentPath m.dataDir m.nextSegmentNumber
  let free := decide (m.descriptors < descriptorLimit)
  let made := newSegment w.disk path (next - 1) false (io.opens && free)
  ⟨made.1, { m with
    nextSeqId := next
    activeSegment := some made.2
    isOpen := true
    named := by
      intro seg member
      rcases List.mem_append.mp member with new | old
      · exact ⟨m.nextSegmentNumber, by simp at new; rw [new]; exact newSegment_path _ _ _ _ _⟩
      · exact m.named seg (List.mem_append.mpr (Or.inr old)) }⟩

def closeWal (w : World) : World :=
  ⟨w.disk,
    { w.mgr with activeSegment := none, sealedSegments := [], isOpen := false, named := by simp }⟩

def triggerSegmentRollover (w : World) (io : Io) : World :=
  let m := w.mgr
  let retired := m.sealedSegments ++ (m.activeSegment.map Segment.seal).toList
  let number := m.nextSegmentNumber + 1
  let path := segmentPath m.dataDir number
  let free := decide (m.descriptors < descriptorLimit)
  let made := newSegment w.disk path (m.nextSeqId - 1) false (io.opens && free)
  ⟨made.1, { m with
    activeSegment := some made.2
    sealedSegments := retired
    nextSegmentNumber := number
    named := by
      intro seg member
      rcases List.mem_append.mp member with new | old
      · exact ⟨number, by simp at new; rw [new]; exact newSegment_path _ _ _ _ _⟩
      · rcases List.mem_append.mp old with old | last
        · exact m.named seg (List.mem_append.mpr (Or.inr old))
        · simp only [Option.mem_toList, Option.map_eq_some_iff] at last
          obtain ⟨active, found, rfl⟩ := last
          exact m.named active (List.mem_append.mpr (Or.inl (by simp [found]))) }⟩

def rollOverIfNeeded (w : World) (io : Io) : World :=
  match w.mgr.activeSegment with
  | some seg => if seg.isFull then triggerSegmentRollover w io else w
  | none => w

def written (w : World) (disk : Disk) (seg' : Segment) {seg : Segment}
    (active : w.mgr.activeSegment = some seg) (same : seg'.path = seg.path) : World :=
  ⟨disk, { w.mgr with
    nextSeqId := w.mgr.nextSeqId + 1
    activeSegment := some seg'
    named := by
      intro other member
      rcases List.mem_append.mp member with new | old
      · simp at new
        rw [new, same]
        exact w.mgr.named seg (List.mem_append.mpr (Or.inl (by simp [active])))
      · exact w.mgr.named other (List.mem_append.mpr (Or.inr old)) }⟩

def writeEntry (init : TableStore) (w : World) (payload : Option Bytes) (payloadLen : UInt32)
    (io : Io) : Option (World × UInt64) :=
  match active : w.mgr.activeSegment with
  | none => some (w, 0)
  | some seg =>
    if w.mgr.isOpen then
      let seqId := w.mgr.nextSeqId
      match wrote : WalSegments.writeEntry init w.disk seg seqId payload payloadLen io.outcome with
      | none => none
      | some (disk, seg', ok) =>
        let w' := written w disk seg' active (writeEntry_path wrote)
        if ok then some (rollOverIfNeeded w' io, seqId) else some (w', 0)
    else some (w, 0)

def readSegment (init : TableStore) (disk : Disk) (io : Io) (seg : Segment) : Segment :=
  (readAllEntries init disk seg (io.reads seg.path)).2

def readSegments (init : TableStore) (disk : Disk) (io : Io) :
    List Segment → Option (List WalEntry)
  | [] => some []
  | seg :: segs => do
    let entries ← (readAllEntries init disk seg (io.reads seg.path)).1
    let rest ← readSegments init disk io segs
    some (entries ++ rest)

def collectEntriesForReplay (init : TableStore) (w : World) (io : Io) :
    Option (World × List WalEntry) := do
  let m := w.mgr
  let entries ← readSegments init w.disk io (m.sealedSegments ++ m.activeSegment.toList)
  some (⟨w.disk, { m with
    activeSegment := m.activeSegment.map (readSegment init w.disk io)
    sealedSegments := m.sealedSegments.map (readSegment init w.disk io)
    named := by
      intro seg member
      rw [Option.toList_map, ← List.map_append] at member
      obtain ⟨old, held, rfl⟩ := List.mem_map.mp member
      rw [readSegment, readAllEntries_path]
      exact m.named old held }⟩, entries)

/-- The loop of CrashReplay; its gap test has an empty body and segment_corrupted is
    never set. -/
def replayLoop (lastFlushed : UInt64) : UInt64 → List WalEntry → UInt64
  | prevSeqId, [] => prevSeqId
  | prevSeqId, entry :: entries =>
    if entry.seqId ≤ lastFlushed then replayLoop lastFlushed prevSeqId entries
    else if entry.seqId ≤ prevSeqId then replayLoop lastFlushed entry.seqId entries
    else replayLoop lastFlushed entry.seqId entries

def crashReplay (init : TableStore) (w : World) (now : Int) (io : Io) : Option World := do
  let cp := readCheckpoint w.disk w.mgr.dataDir (io.reads (checkpointPath w.mgr.dataDir))
  let (w, entries) ← collectEntriesForReplay init w io
  some (writeCheckpoint w (replayLoop cp.flushedSeqId 0 entries) now io).1

end WalManager
