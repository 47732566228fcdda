import HyperDisk.Common.Crc32c
import HyperDisk.Foundations.FileImages
import HyperDisk.Foundations.PackedRecords
import HyperDisk.Foundations.StepRuns

/- The boot black box: the recorder of the boot agent and the reader in the black box analyzer.
   Times are readings of the steady clock in microseconds; `none` is an access outside the ring
   buffer. Positions are uint32_t, but sums with sizeof are size_t. -/
namespace BlackBoxRecorder
open LittleEndian PackedFields PackedRecords FileImages

def bbMagic : Chars 8 := ⟨[0x48, 0x44, 0x42, 0x42, 0x4F, 0x58, 0, 0], rfl⟩
def bbVersion : UInt16 := 1
def bbEntrySize : UInt32 := 26
def bbRingSize : Nat := 64 * 1024 * 1024

inductive BbPhase where
  | pxe
  | ipxe
  | bootagent
  | winpe
  | bootdiag
  | bootmgr
  | winload
  | kernel
  | desktop
  deriving DecidableEq, Repr

inductive BbStatus where
  | success
  | fail
  | timeout
  | retry
  | warn
  deriving DecidableEq, Repr

def BbPhase.code : BbPhase → UInt8
  | .pxe => 0
  | .ipxe => 1
  | .bootagent => 2
  | .winpe => 3
  | .bootdiag => 4
  | .bootmgr => 5
  | .winload => 6
  | .kernel => 7
  | .desktop => 8

def BbStatus.code : BbStatus → UInt8
  | .success => 0
  | .fail => 1
  | .timeout => 2
  | .retry => 3
  | .warn => 4

structure BlackBoxEntry where
  timestampDeltaLo : UInt32
  timestampDeltaHi : UInt32
  phase : UInt8
  status : UInt8
  latencyUs : UInt16
  lbaLo : UInt32
  lbaHi : UInt32
  offset : UInt16
  sizeLo : UInt16
  sizeHi : UInt8
  reserved : UInt8
  deriving DecidableEq, Repr

def entryLayout : Packed BlackBoxEntry :=
  struct (pair u32 <| pair u32 <| pair u8 <| pair u8 <| pair u16 <| pair u32 <| pair u32 <|
      pair u16 <| pair u16 <| pair u8 u8)
    { toFun := fun (deltaLo, deltaHi, phase, status, latencyUs, lbaLo, lbaHi, offset, sizeLo,
          sizeHi, reserved) =>
        ⟨deltaLo, deltaHi, phase, status, latencyUs, lbaLo, lbaHi, offset, sizeLo, sizeHi, reserved⟩
      invFun := fun e => (e.timestampDeltaLo, e.timestampDeltaHi, e.phase, e.status, e.latencyUs,
        e.lbaLo, e.lbaHi, e.offset, e.sizeLo, e.sizeHi, e.reserved)
      left_inv := fun _ => rfl
      right_inv := fun _ => rfl }

structure BlackBoxFileHeader where
  magic : Chars 8
  version : UInt16
  entrySize : UInt16
  entryCount : UInt32
  startTimeLo : UInt32
  startTimeHi : UInt32
  endTimeLo : UInt32
  endTimeHi : UInt32
  reserved : UInt32
  deriving DecidableEq

def fileHeaderLayout : Packed BlackBoxFileHeader :=
  struct (pair (chars 8) <| pair u16 <| pair u16 <| pair u32 <| pair u32 <| pair u32 <| pair u32 <|
      pair u32 u32)
    { toFun := fun (magic, version, entrySize, entryCount, startLo, startHi, endLo, endHi,
          reserved) =>
        ⟨magic, version, entrySize, entryCount, startLo, startHi, endLo, endHi, reserved⟩
      invFun := fun h => (h.magic, h.version, h.entrySize, h.entryCount, h.startTimeLo,
        h.startTimeHi, h.endTimeLo, h.endTimeHi, h.reserved)
      left_inv := fun _ => rfl
      right_inv := fun _ => rfl }

structure BlackBoxFileFooter where
  totalCrc32c : UInt32
  entryCountVerify : UInt32
  reserved : UInt16
  deriving DecidableEq, Repr

def fileFooterLayout : Packed BlackBoxFileFooter :=
  struct (pair u32 <| pair u32 u16)
    { toFun := fun (totalCrc32c, entryCountVerify, reserved) =>
        ⟨totalCrc32c, entryCountVerify, reserved⟩
      invFun := fun f => (f.totalCrc32c, f.entryCountVerify, f.reserved)
      left_inv := fun _ => rfl
      right_inv := fun _ => rfl }

def computeCrc32C (data : Bytes) (len : UInt32) : UInt32 :=
  Crc32c.loop (Crc32c.shiftByte Crc32c.shiftXor) (data.take len.toNat)

def low32 (x : UInt64) : UInt32 := (x &&& 0xFFFFFFFF).toUInt32
def high32 (x : UInt64) : UInt32 := (x >>> 32).toUInt32

def fillHeader (entryCount : UInt32) (startTime endTime : UInt64) : BlackBoxFileHeader :=
  ⟨bbMagic, bbVersion, bbEntrySize.toUInt16, entryCount, low32 startTime, high32 startTime,
    low32 endTime, high32 endTime, 0⟩

structure Recorder where
  ringBuffer : Option Bytes
  writePos : UInt32
  readPos : UInt32
  entryCount : UInt32
  overflowCount : UInt32
  startTime : UInt64
  initialized : Bool
  deriving DecidableEq, Repr

def newRecorder : Recorder := ⟨none, 0, 0, 0, 0, 0, false⟩

def initializeRecorder (s : Recorder) (allocates : Bool) (now : UInt64) :
    Recorder × Bool :=
  if s.initialized then (s, true)
  else if allocates then (⟨some (List.replicate bbRingSize 0), 0, 0, 0, 0, now, true⟩, true)
  else ({ s with ringBuffer := none }, false)

structure RecordCall where
  phase : BbPhase
  lba : UInt64
  offset : UInt32
  size : UInt32
  status : BbStatus
  latencyUs : UInt16
  now : UInt64
  deriving DecidableEq, Repr

def entryOf (startTime : UInt64) (c : RecordCall) : BlackBoxEntry :=
  let delta := c.now - startTime
  { timestampDeltaLo := low32 delta
    timestampDeltaHi := high32 delta
    phase := c.phase.code
    status := c.status.code
    latencyUs := c.latencyUs
    lbaLo := low32 c.lba
    lbaHi := high32 c.lba
    offset := (c.offset &&& 0xFFFF).toUInt16
    sizeLo := (c.size &&& 0xFFFF).toUInt16
    sizeHi := (c.size >>> 16).toUInt8
    reserved := 0 }

/-- The test for a full buffer looks one entry ahead of the one to be stored. -/
def full (s : Recorder) : Bool := bbRingSize < (s.writePos + bbEntrySize).toNat + 26

def record (s : Recorder) (c : RecordCall) : Option Recorder :=
  if ¬ s.initialized then some s
  else if full s then some { s with overflowCount := s.overflowCount + 1 }
  else do
    let ring ← s.ringBuffer
    let ring ← overwrite ring s.writePos.toNat (entryLayout.encode (entryOf s.startTime c))
    some { s with
      ringBuffer := some ring
      writePos := s.writePos + bbEntrySize
      entryCount := s.entryCount + 1 }

def recordStep (s : Option Recorder) (c : RecordCall) : Option Recorder :=
  s.bind fun s => record s c

def fileImage (s : Recorder) (endTime : UInt64) : Option Bytes := do
  let ring ← s.ringBuffer
  let entries ← slice ring 0 s.writePos.toNat
  let footer : BlackBoxFileFooter := ⟨computeCrc32C ring s.writePos, s.entryCount, 0⟩
  some (fileHeaderLayout.encode (fillHeader s.entryCount s.startTime endTime) ++ entries ++
    fileFooterLayout.encode footer)

/-- FlushToDisk, and FlushEmergency, which calls it. Whether the file opens and how much of it is
    written is up to the system; a short write is not reported. -/
def flushToDisk (s : Recorder) (disk : Disk) (path : Path) (opens : Bool)
    (outcome : WriteOutcome) (endTime : UInt64) : Option (Disk × Bool) :=
  if ¬ s.initialized ∨ s.entryCount = 0 then some (disk, false)
  else if opens then do
    let image ← fileImage s endTime
    some (disk.put path (image.take (outcome.count image.length)), true)
  else some (disk, false)

def shutdown (s : Recorder) : Recorder :=
  if ¬ s.initialized then s else { s with ringBuffer := none, initialized := false }

def join32 (low high : UInt32) : UInt64 := low.toUInt64 ||| (high.toUInt64 <<< 32)

def phaseOf : UInt8 → Option BbPhase
  | 0 => some .pxe
  | 1 => some .ipxe
  | 2 => some .bootagent
  | 3 => some .winpe
  | 4 => some .bootdiag
  | 5 => some .bootmgr
  | 6 => some .winload
  | 7 => some .kernel
  | 8 => some .desktop
  | _ => none

def statusOf : UInt8 → Option BbStatus
  | 0 => some .success
  | 1 => some .fail
  | 2 => some .timeout
  | 3 => some .retry
  | 4 => some .warn
  | _ => none

structure TimelineLine where
  ts : UInt64
  phase : Option BbPhase
  status : Option BbStatus
  lba : UInt64
  offset : UInt32
  size : UInt32
  latencyUs : UInt16
  deriving DecidableEq, Repr

def timelineLine (e : BlackBoxEntry) : TimelineLine where
  ts := join32 e.timestampDeltaLo e.timestampDeltaHi
  phase := phaseOf e.phase
  status := statusOf e.status
  lba := join32 e.lbaLo e.lbaHi
  offset := e.offset.toUInt32
  size := e.sizeLo.toUInt32 ||| (e.sizeHi.toUInt32 <<< 16)
  latencyUs := e.latencyUs

structure Analysis where
  header : BlackBoxFileHeader
  entries : List BlackBoxEntry
  footer : BlackBoxFileFooter
  verifyCrc : UInt32
  deriving DecidableEq

def Analysis.crcMatches (a : Analysis) : Bool := a.verifyCrc == a.footer.totalCrc32c
def Analysis.timeline (a : Analysis) : List TimelineLine := a.entries.map timelineLine
def Analysis.lastSuccess (a : Analysis) : Option TimelineLine :=
  (a.entries.reverse.find? fun e => e.status == BbStatus.success.code).map timelineLine

def Analysis.firstFail (a : Analysis) : Option TimelineLine :=
  (a.entries.find? fun e => e.status == BbStatus.fail.code).map timelineLine

def cText (bytes : Bytes) : String :=
  String.ofList ((bytes.takeWhile (· ≠ 0)).map fun b => Char.ofNat b.toNat)

/-- AnalyzeBlackBox; an error is its text on stderr, with the exit code 1. -/
def analyzeBlackBox (disk : Disk) (path : Path) : Except String Analysis :=
  match disk path with
  | none => .error ("Cannot open: " ++ cText path)
  | some file =>
    if file.length < fileHeaderLayout.size then .error "Cannot read header"
    else
      let header := fileHeaderLayout.decode (file.take fileHeaderLayout.size)
      if header.magic ≠ bbMagic then
        .error ("Invalid magic: " ++ cText header.magic.val ++ " (expected HDBBOX)")
      else
        let rest := file.drop fileHeaderLayout.size
        let entries := readUpTo entryLayout header.entryCount.toNat rest
        if entries.length ≠ header.entryCount.toNat then .error "Failed to read all entries"
        else
          let rest := rest.drop (entryLayout.size * header.entryCount.toNat)
          if rest.length < fileFooterLayout.size then .error "Cannot read footer"
          else
            let footer := fileFooterLayout.decode (rest.take fileFooterLayout.size)
            .ok ⟨header, entries, footer, computeCrc32C (writeAll entryLayout entries)
              (UInt32.ofNat (header.entryCount.toNat * entryLayout.size))⟩

end BlackBoxRecorder
