import HyperDisk.Foundations.FileImages
import HyperDisk.Foundations.PackedRecords
import HyperDisk.ReplayRecorder.RingBuffer

/- The replay files: FlushToFile of the ring buffer and ReadEntries of the boot replay analyzer.
   FlushToFile's last memcpy into header_buf starts at its end; memory is taken to be flat, so
   the two bytes it writes are the ones behind header_buf. -/
namespace ReplayFiles
open LittleEndian PackedFields PackedRecords FileImages RingBuffer

def replayMagic : UInt32 := 0x48445852
def replayFooterMagic : UInt32 := 0x48445846
def replayVersion : UInt16 := 1
def replayHeaderSize : Nat := 16

structure ReplayFileHeader where
  magic : UInt32
  version : UInt16
  entryCount : UInt32
  headerCrc32c : UInt32
  reserved : UInt16
  deriving DecidableEq, Repr

def fileHeaderLayout : Packed ReplayFileHeader :=
  struct (pair u32 <| pair u16 <| pair u32 <| pair u32 u16)
    { toFun := fun (magic, version, entryCount, headerCrc32c, reserved) =>
        ⟨magic, version, entryCount, headerCrc32c, reserved⟩
      invFun := fun h => (h.magic, h.version, h.entryCount, h.headerCrc32c, h.reserved)
      left_inv := fun _ => rfl
      right_inv := fun _ => rfl }

structure ReplayFileFooter where
  totalCrc32c : UInt32
  footerMagic : UInt32
  deriving DecidableEq, Repr

def fileFooterLayout : Packed ReplayFileFooter :=
  struct (pair u32 u32)
    { toFun := fun (totalCrc32c, footerMagic) => ⟨totalCrc32c, footerMagic⟩
      invFun := fun f => (f.totalCrc32c, f.footerMagic)
      left_inv := fun _ => rfl
      right_inv := fun _ => rfl }

def crcStep (crc : UInt32) : UInt32 :=
  if crc &&& 1 ≠ 0 then (crc >>> 1) ^^^ 0x82F63B78 else crc >>> 1

def crc32cTable (i : UInt32) : UInt32 := Nat.repeat crcStep 8 i

def computeCrc32C (data : Bytes) (len : UInt32) : UInt32 :=
  let crc : UInt32 := (data.take len.toNat).foldl
    (fun crc b => (crc >>> 8) ^^^ crc32cTable ((crc ^^^ b.toUInt32) &&& 0xFF)) 0xFFFFFFFF
  crc ^^^ 0xFFFFFFFF

/-- header_buf and the two bytes behind it, once FlushToFile has filled in the header. -/
def writeHeader (entryCount : UInt32) (behind : UInt8 × UInt8) : Option Bytes := do
  let header : ReplayFileHeader := ⟨replayMagic, replayVersion, entryCount, 0, 0⟩
  let buf := List.replicate replayHeaderSize 0 ++ [behind.1, behind.2]
  let buf ← overwrite buf 0 ((fileHeaderLayout.encode header).take 12)
  let header := { header with headerCrc32c := computeCrc32C buf 12 }
  let buf ← overwrite buf 12 (u32.encode header.headerCrc32c)
  overwrite buf 16 (u16.encode header.reserved)

def fileImage (entries : List ReplayEntry) (behind : UInt8 × UInt8) : Option Bytes := do
  let headerBuf ← writeHeader (UInt32.ofNat entries.length) behind
  let fileBuf := headerBuf.take replayHeaderSize ++ writeAll entryLayout entries
  let footer : ReplayFileFooter :=
    ⟨computeCrc32C fileBuf (UInt32.ofNat fileBuf.length), replayFooterMagic⟩
  some (fileBuf ++ fileFooterLayout.encode footer)

/-- FlushToFile; whether the file opens and how much of it is written is up to the system, and
    a short write is not reported. -/
def flushToFile (s : ReplayRingBuffer) (disk : Disk) (path : Path) (opens : Bool)
    (outcome : WriteOutcome) (behind : UInt8 × UInt8) :
    Option (ReplayRingBuffer × Disk × Bool) := do
  let s := stopRecording s
  let entries ← getAllEntries s
  if entries = [] then some (s, disk, false)
  else
    let image ← fileImage entries behind
    if opens then some (s, disk.put path (image.take (outcome.count image.length)), true)
    else some (s, disk, false)

def readEntries (disk : Disk) (path : Path) (header : ReplayFileHeader) :
    List ReplayEntry × ReplayFileHeader :=
  match disk path with
  | none => ([], header)
  | some file =>
    if file.length < replayHeaderSize then ([], header)
    else
      let header := fileHeaderLayout.decode (file.take replayHeaderSize)
      if header.magic ≠ replayMagic ∨ header.version ≠ replayVersion then ([], header)
      else (readUpTo entryLayout header.entryCount.toNat (file.drop replayHeaderSize), header)

end ReplayFiles
