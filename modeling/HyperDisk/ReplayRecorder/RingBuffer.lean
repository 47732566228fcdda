import HyperDisk.Foundations.PackedFields
import HyperDisk.Foundations.StepRuns

/- ReplayRingBuffer of the boot replay recorder. Positions are uint32_t and wrap; `none` is a
   memcpy outside the buffer. Clock readings are in nanoseconds. -/
namespace RingBuffer
open LittleEndian PackedFields StepRuns

def replayEntrySize : UInt32 := 33
def replayDefaultCapacity : UInt32 := 64 * 1024 * 1024

structure ReplayEntry where
  lba : UInt64
  offset : UInt64
  size : UInt32
  latencyUs : UInt32
  status : UInt32
  timestampMs : UInt32
  reserved : UInt8
  deriving DecidableEq, Repr

def entryLayout : Packed ReplayEntry :=
  struct (pair u64 <| pair u64 <| pair u32 <| pair u32 <| pair u32 <| pair u32 u8)
    { toFun := fun (lba, offset, size, latencyUs, status, timestampMs, reserved) =>
        ⟨lba, offset, size, latencyUs, status, timestampMs, reserved⟩
      invFun := fun e =>
        (e.lba, e.offset, e.size, e.latencyUs, e.status, e.timestampMs, e.reserved)
      left_inv := fun _ => rfl
      right_inv := fun _ => rfl }

structure ReplayRingBuffer where
  buffer : Option Bytes
  capacity : UInt32
  writeCount : UInt64
  overwriteCount : UInt64
  head : UInt32
  active : Bool
  recordStart : Nat
  deriving DecidableEq, Repr

def newRingBuffer (capacity : UInt32) : ReplayRingBuffer := ⟨none, capacity, 0, 0, 0, false, 0⟩

def initializeRing (s : ReplayRingBuffer) (allocates : Bool) : ReplayRingBuffer × Bool :=
  if s.buffer.isSome then (s, true)
  else if allocates then ({ s with buffer := some (List.replicate s.capacity.toNat 0) }, true)
  else (s, false)

def startRecording (s : ReplayRingBuffer) (now : Nat) : ReplayRingBuffer :=
  { s with recordStart := now, active := true }

def stopRecording (s : ReplayRingBuffer) : ReplayRingBuffer := { s with active := false }

def destroy (s : ReplayRingBuffer) : ReplayRingBuffer := { s with buffer := none, active := false }

structure WriteCall where
  lba : UInt64
  offset : UInt64
  size : UInt32
  latencyUs : UInt32
  status : UInt32
  reserved : UInt8
  now : Nat

def entryOf (recordStart : Nat) (w : WriteCall) : ReplayEntry :=
  ⟨w.lba, w.offset, w.size, w.latencyUs, w.status,
    UInt32.ofNat ((w.now - recordStart) / 1000000), w.reserved⟩

def maxEntries (s : ReplayRingBuffer) : UInt64 := (s.capacity / replayEntrySize).toUInt64

def writePos (s : ReplayRingBuffer) : UInt32 :=
  if s.capacity < s.head + replayEntrySize then 0 else s.head

def write (s : ReplayRingBuffer) (w : WriteCall) : Option ReplayRingBuffer :=
  if ¬ s.active then some s
  else do
    let buffer ← s.buffer
    let pos := writePos s
    let buffer ← overwrite buffer pos.toNat (entryLayout.encode (entryOf s.recordStart w))
    let wc := s.writeCount + 1
    some { s with
      buffer := some buffer
      head := (pos + replayEntrySize) % s.capacity
      writeCount := wc
      overwriteCount := if maxEntries s < wc then wc - maxEntries s else s.overwriteCount }

def readLoop (buffer : Bytes) (capacity readStart : UInt32) : Nat → Nat → Option (List ReplayEntry)
  | _, 0 => some []
  | i, count + 1 => do
    let pos := (readStart + UInt32.ofNat i * replayEntrySize) % capacity
    let bytes ← slice buffer pos.toNat replayEntrySize.toNat
    let rest ← readLoop buffer capacity readStart (i + 1) count
    some (entryLayout.decode bytes :: rest)

def getAllEntries (s : ReplayRingBuffer) : Option (List ReplayEntry) :=
  match s.buffer with
  | none => some []
  | some buffer =>
    let count := (min s.writeCount (maxEntries s)).toUInt32
    let readStart := if 0 < s.overwriteCount then s.head else 0
    readLoop buffer s.capacity readStart 0 count.toNat

def writeStep (s : Option ReplayRingBuffer) (w : WriteCall) : Option ReplayRingBuffer :=
  s.bind fun s => write s w

/-- A ring that was initialized and started at a time, after some writes. -/
def recorded (capacity : UInt32) (start : Nat) (calls : List WriteCall) : Option ReplayRingBuffer :=
  run writeStep (some (startRecording (initializeRing (newRingBuffer capacity) true).1 start)) calls

end RingBuffer
