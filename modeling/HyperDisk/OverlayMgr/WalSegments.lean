import HyperDisk.Foundations.FileImages
import HyperDisk.OverlayMgr.WalRecords

/- The WalSegment class over a disk of byte images. `fd` is the descriptor's file
   offset, `none` standing for fd_ = -1. File sizes are off_t values below 2^63, so
   file_size_ is a Nat; the only modular size arithmetic is inside the records. -/
namespace WalSegments
open LittleEndian FileImages WalRecords

def walSegmentSize : Nat := 64 * 1024 * 1024
def walMaxEntries : Nat := 500000

structure Segment where
  path : Path
  startSeqId : UInt64
  lastSeqId : UInt64
  entryCount : UInt32
  fileSize : Nat
  isSealed : Bool
  readOnly : Bool
  fd : Option Nat
  deriving DecidableEq, Repr

/-- The constructor. O_RDONLY needs an existing file, O_RDWR | O_CREAT makes one; either
    way the descriptor starts at offset 0 of the bytes that are already there. -/
def newSegment (disk : Disk) (path : Path) (startSeqId : UInt64) (readOnly opens : Bool) :
    Disk × Segment :=
  let closed : Segment := ⟨path, startSeqId, startSeqId, 0, 0, readOnly, readOnly, none⟩
  if opens then
    match disk path, readOnly with
    | some image, _ => (disk, { closed with fileSize := image.length, fd := some 0 })
    | none, false => (disk.put path [], { closed with fd := some 0 })
    | none, true => (disk, closed)
  else (disk, closed)

def appendRecord (disk : Disk) (seg : Segment) (pos : Nat) (seqId : UInt64) (buf : Bytes)
    (outcome : WriteOutcome) : Disk × Segment × Bool :=
  let n := outcome.count buf.length
  let disk := disk.put seg.path (patch (disk.contents seg.path) pos (buf.take n))
  if outcome.returned buf.length ≠ buf.length then
    (disk, { seg with fd := some (pos + n) }, false)
  else
    (disk, { seg with
      fd := some (pos + n)
      lastSeqId := seqId
      entryCount := seg.entryCount + 1
      fileSize := seg.fileSize + buf.length }, true)

def writeEntry (init : TableStore) (disk : Disk) (seg : Segment) (seqId : UInt64)
    (payload : Option Bytes) (payloadLen : UInt32) (outcome : WriteOutcome) :
    Option (Disk × Segment × Bool) :=
  match seg.fd with
  | none => some (disk, seg, false)
  | some pos =>
    if seg.isSealed || seg.readOnly then some (disk, seg, false)
    else do
      let buf ← build init seqId payload payloadLen
      some (appendRecord disk seg pos seqId buf outcome)

/-- The loop of ReadAllEntries on the bytes from `offset` on; an offset past the end
    leaves none. `none` is undefined behaviour of Validate or Parse, or a loop that does not
    end. -/
def readLoop (init : TableStore) : Nat → Bytes → Option (List WalEntry)
  | 0, _ => none
  | _ + 1, [] => some []
  | fuel + 1, rest => do
    let result ← validate init rest
    if result.status ≠ .ok then some []
    else
      let entry ← parse rest
      let entries ← readLoop init fuel (rest.drop (align8 (entrySize entry.payloadLen)))
      some (entry :: entries)

def readEntries (init : TableStore) (data : Bytes) : Option (List WalEntry) :=
  readLoop init (data.length + 1) data

/-- WalSegment::ReadAllEntries: lseek to 0 and read file_size_ bytes, which leaves the
    descriptor behind the bytes read. `reads` is false when read() returns -1. -/
def readAllEntries (init : TableStore) (disk : Disk) (seg : Segment) (reads : Bool) :
    Option (List WalEntry) × Segment :=
  match seg.fd with
  | none => (some [], seg)
  | some _ =>
    if reads then
      let data := (disk.contents seg.path).take seg.fileSize
      (readEntries init data, { seg with fd := some data.length })
    else (some [], { seg with fd := some 0 })

def Segment.isFull (seg : Segment) : Bool :=
  walSegmentSize ≤ seg.fileSize || walMaxEntries ≤ seg.entryCount.toNat

def Segment.seal (seg : Segment) : Segment := { seg with isSealed := true }

end WalSegments
