import HyperDisk.Foundations.DecimalText
import HyperDisk.Foundations.HexText
import HyperDisk.Foundations.LittleEndian

/- What the seven checks of bootdiag share: the record a check fills in, and the device it reads.
   Each read opens the device anew, so a device is what every read of it gives. -/
namespace DiagChecks
open LittleEndian DecimalText

def resultPass : UInt32 := 0
def resultFail : UInt32 := 1
def resultSkip : UInt32 := 2
def resultTimeout : UInt32 := 3
def resultWarn : UInt32 := 4

structure BootdiagResult where
  checkId : UInt8
  checkName : Bytes
  result : UInt8
  elapsedMs : UInt32
  detail : Bytes
  errorCode : UInt32
  deriving DecidableEq, Repr

/-- A check's return value and the record after it; `detail` holds 255 characters. -/
def failWith (r : BootdiagResult) (code : UInt32) (detail : Bytes) : UInt32 × BootdiagResult :=
  (resultFail, { r with errorCode := code, detail := detail.take 255 })

-- The error code of an earlier attempt stays.
def passWith (r : BootdiagResult) (detail : Bytes) : UInt32 × BootdiagResult :=
  (resultPass, { r with detail := detail.take 255 })

def Fails (r : BootdiagResult) (outcome : Option (UInt32 × BootdiagResult)) : Prop :=
  ∃ code detail, outcome = some (failWith r code detail)

section Guards
variable {c : Prop} [Decidable c] {rest : Option (UInt32 × BootdiagResult)}

theorem guard_fails {r : BootdiagResult} {code : UInt32} {detail : Bytes}
    (otherwise : ¬ c → Fails r rest) :
    Fails r (if c then some (failWith r code detail) else rest) := by
  split
  · exact ⟨code, detail, rfl⟩
  · exact otherwise ‹_›

theorem guard_isSome {outcome : UInt32 × BootdiagResult} (otherwise : ¬ c → rest.isSome) :
    (if c then some outcome else rest).isSome := by
  split
  · rfl
  · exact otherwise ‹_›

end Guards

inductive ReadError where
  | noDevice
  | noSeek
  | shortRead
  deriving DecidableEq, Repr

def ReadError.code : ReadError → Int
  | .noDevice => -1
  | .noSeek => -2
  | .shortRead => -3

structure Device where
  read : (offset : UInt64) → (size : UInt32) → Except ReadError Bytes
  sized : ∀ offset size bytes, read offset size = .ok bytes → bytes.length = size.toNat

def readDeviceSector (d : Device) (lba : UInt64) (sectorSize : UInt32) : Except ReadError Bytes :=
  d.read (lba * sectorSize.toUInt64) sectorSize

def readImage (image : Bytes) (offset : UInt64) (size : UInt32) : Except ReadError Bytes :=
  if 2 ^ 63 ≤ offset.toNat then .error .noSeek
  else if offset.toNat + size.toNat ≤ image.length then
    .ok ((image.drop offset.toNat).take size.toNat)
  else .error .shortRead

theorem readImage_sized (image : Bytes) (offset : UInt64) (size : UInt32) (bytes : Bytes)
    (read : readImage image offset size = .ok bytes) : bytes.length = size.toNat := by
  unfold readImage at read
  split at read
  · cases read
  · split at read
    · cases read
      rw [List.length_take, List.length_drop]
      omega
    · cases read

/-- The device of a disk image: offsets from 2^63 on are negative to the seek. -/
def imageDevice (image : Bytes) : Device := ⟨readImage image, readImage_sized image⟩

def hex (width n : Nat) : Bytes := HexText.hexPadded .upper width n

def text (s : String) : Bytes := ascii s.toList

def flag (b : Bool) : Bytes := if b then [49] else [48]

def byteAt (sector : Bytes) (k : Nat) : UInt8 := sector.getD k 0
def le16 (sector : Bytes) (off : Nat) : UInt16 := UInt16.ofNat (load ((sector.drop off).take 2))
def le32 (sector : Bytes) (off : Nat) : UInt32 := UInt32.ofNat (load ((sector.drop off).take 4))
def le64 (sector : Bytes) (off : Nat) : UInt64 := UInt64.ofNat (load ((sector.drop off).take 8))

end DiagChecks
