import HyperDisk.Foundations.StepRuns

/- The dispatch routines of the block driver that set or divide by BlockSize (blk_io.c,
   blk_ioctl.c, blk_driver.c). A division by zero is `none`: the machine stops there. -/
namespace BlkDispatch
open StepRuns

inductive Status where
  | success
  | pending
  | bufferTooSmall
  | invalidDeviceRequest
  deriving DecidableEq, Repr

def ntSuccess : Status → Bool
  | .success | .pending => true
  | .bufferTooSmall | .invalidDeviceRequest => false

structure BlkExtension where
  imageId : UInt64
  diskSize : UInt64
  blockSize : UInt32
  blockCount : UInt32
  layerId : UInt8
  isStarted : Bool
  deriving DecidableEq, Repr

def zeroExtension : BlkExtension := ⟨0, 0, 0, 0, 0, false⟩

structure DeviceConfig where
  imageId : UInt64
  diskSize : UInt64
  blockSize : UInt32
  blockCount : UInt32
  layerId : UInt8
  deriving DecidableEq, Repr

def sizeofDeviceConfig : UInt32 := 96
def sizeofBlockResponse : UInt32 := 24

structure BlockRequest where
  imageId : UInt64
  blockOffset : UInt64
  blockCount : UInt32
  layerId : UInt8
  isWrite : UInt8
  deriving DecidableEq, Repr

structure IoStatus where
  status : Status
  information : UInt32
  deriving DecidableEq, Repr

/-- What a dispatch routine does besides changing the extension: the status it returns, the
    status block if it completes the IRP, the block request it submits and the Status it stores
    in a response. -/
structure Reply where
  status : Status
  completed : Option IoStatus
  submitted : Option BlockRequest
  response : Option Int32
  deriving DecidableEq, Repr

def completeWith (status : Status) (information : UInt32) : Reply :=
  ⟨status, some ⟨status, information⟩, none, none⟩

def ctlCode (deviceType function : UInt32) : UInt32 := (deviceType <<< 16) ||| (function <<< 2)

def ioctlHdGetStatus : UInt32 := ctlCode 0x8800 0x803
def ioctlHdSetConfig : UInt32 := ctlCode 0x8800 0x804

/-- LONGLONG by ULONG: the divisor is converted to LONGLONG, the division truncates. -/
def divideOffset (offset : Int64) (blockSize : UInt32) : Option UInt64 :=
  if blockSize = 0 then none else some (offset / blockSize.toUInt64.toInt64).toUInt64

def divideLength (length blockSize : UInt32) : Option UInt32 :=
  if blockSize = 0 then none else some (length / blockSize)

def divideSize (size : UInt64) (blockSize : UInt32) : Option UInt32 :=
  if blockSize = 0 then none else some (size / blockSize.toUInt64).toUInt32

/-- HdBlkSubmitBlockRequest ignores both arguments. -/
def submitBlockRequest (_ : BlkExtension) (_ : BlockRequest) : Status := .success

def transfer (isWrite : UInt8) (ext : BlkExtension) (byteOffset : Int64) (length : UInt32) :
    Option (Reply × BlkExtension) := do
  let blockOffset ← divideOffset byteOffset ext.blockSize
  let blockCount ← divideLength length ext.blockSize
  let request : BlockRequest := ⟨ext.imageId, blockOffset, blockCount, ext.layerId, isWrite⟩
  let status := submitBlockRequest ext request
  if ¬ ntSuccess status then return (⟨status, some ⟨status, 0⟩, some request, none⟩, ext)
  else return (⟨.pending, none, some request, none⟩, ext)

def dispatchRead : BlkExtension → Int64 → UInt32 → Option (Reply × BlkExtension) := transfer 0
def dispatchWrite : BlkExtension → Int64 → UInt32 → Option (Reply × BlkExtension) := transfer 1

def setConfig (ext : BlkExtension) (config : DeviceConfig) (inputBufferLength : UInt32) :
    Reply × BlkExtension :=
  if inputBufferLength < sizeofDeviceConfig then (completeWith .bufferTooSmall 0, ext)
  else
    (completeWith .success 0, { ext with
      imageId := config.imageId
      diskSize := config.diskSize
      blockSize := config.blockSize
      blockCount := config.blockCount
      layerId := config.layerId
      isStarted := true })

def dispatchIoctl (ext : BlkExtension) (ioControlCode : UInt32) (config : DeviceConfig)
    (inputBufferLength : UInt32) : Reply × BlkExtension :=
  if ioControlCode = ioctlHdSetConfig then setConfig ext config inputBufferLength
  else if ioControlCode = ioctlHdGetStatus then
    ({ completeWith .success sizeofBlockResponse with
        response := some (if ext.isStarted then 0 else -1) }, ext)
  else (completeWith .invalidDeviceRequest 0, ext)

inductive FileInformationClass where
  | fileAllocationInformation
  | fileEndOfFileInformation
  | other
  deriving DecidableEq, Repr

/-- DiskSize is stored before the division. -/
def resize (ext : BlkExtension) (size : Int64) : Option BlkExtension := do
  let blockCount ← divideSize size.toUInt64 ext.blockSize
  return { ext with diskSize := size.toUInt64, blockCount := blockCount }

def dispatchSetInformation (ext : BlkExtension) (informationClass : FileInformationClass)
    (size : Int64) : Option (Reply × BlkExtension) := do
  let ext ← match informationClass with
    | .fileAllocationInformation => resize ext size
    | .fileEndOfFileInformation => resize ext size
    | .other => some ext
  return (completeWith .success 0, ext)

inductive PnpMinor where
  | startDevice
  | removeDevice
  | queryDeviceRelations
  | other
  deriving DecidableEq, Repr

def dispatchPnp (ext : BlkExtension) (minor : PnpMinor) : Reply × BlkExtension :=
  (completeWith .success 0,
    match minor with
    | .startDevice => { ext with isStarted := true }
    | .removeDevice => { ext with isStarted := false }
    | .queryDeviceRelations => ext
    | .other => ext)

inductive Request where
  | read (byteOffset : Int64) (length : UInt32)
  | write (byteOffset : Int64) (length : UInt32)
  | ioctl (ioControlCode : UInt32) (config : DeviceConfig) (inputBufferLength : UInt32)
  | setInformation (informationClass : FileInformationClass) (size : Int64)
  | pnp (minor : PnpMinor)
  deriving DecidableEq, Repr

def dispatch (ext : BlkExtension) : Request → Option (Reply × BlkExtension)
  | .read byteOffset length => dispatchRead ext byteOffset length
  | .write byteOffset length => dispatchWrite ext byteOffset length
  | .ioctl code config length => some (dispatchIoctl ext code config length)
  | .setInformation informationClass size => dispatchSetInformation ext informationClass size
  | .pnp minor => some (dispatchPnp ext minor)

def step (ext : Option BlkExtension) (r : Request) : Option BlkExtension :=
  ext.bind fun ext => (dispatch ext r).map Prod.snd

def divides : Request → Bool
  | .read _ _ | .write _ _ => true
  | .setInformation informationClass _ => informationClass ≠ .other
  | .ioctl _ _ _ | .pnp _ => false

def nextBlockSize (blockSize : UInt32) : Request → UInt32
  | .ioctl code config length =>
    if code = ioctlHdSetConfig ∧ sizeofDeviceConfig ≤ length then config.blockSize else blockSize
  | _ => blockSize

def configuredBlockSize (history : List Request) : UInt32 := run nextBlockSize 0 history

theorem transfer_some {ext : BlkExtension} (nonzero : ext.blockSize ≠ 0) (isWrite : UInt8)
    (byteOffset : Int64) (length : UInt32) :
    (transfer isWrite ext byteOffset length).map Prod.snd = some ext := by
  simp [transfer, divideOffset, divideLength, nonzero, submitBlockRequest, ntSuccess]

theorem transfer_none {ext : BlkExtension} (zero : ext.blockSize = 0) (isWrite : UInt8)
    (byteOffset : Int64) (length : UInt32) : transfer isWrite ext byteOffset length = none := by
  simp [transfer, divideOffset, zero]

theorem resize_some {ext : BlkExtension} (nonzero : ext.blockSize ≠ 0) (size : Int64) :
    ∃ next, resize ext size = some next ∧ next.blockSize = ext.blockSize := by
  simp [resize, divideSize, nonzero]

theorem resize_none {ext : BlkExtension} (zero : ext.blockSize = 0) (size : Int64) :
    resize ext size = none := by
  simp [resize, divideSize, zero]

theorem ioctl_blockSize (ext : BlkExtension) (code : UInt32) (config : DeviceConfig)
    (length : UInt32) :
    (dispatchIoctl ext code config length).2.blockSize =
      nextBlockSize ext.blockSize (.ioctl code config length) := by
  simp only [dispatchIoctl, nextBlockSize]
  by_cases isConfig : code = ioctlHdSetConfig
  · by_cases short : length < sizeofDeviceConfig
    · simp [isConfig, setConfig, short, UInt32.not_le.mpr short]
    · simp [isConfig, setConfig, short, UInt32.not_lt.mp short]
  · simp only [isConfig, if_false, false_and]
    split <;> rfl

theorem pnp_blockSize (ext : BlkExtension) (minor : PnpMinor) :
    (dispatchPnp ext minor).2.blockSize = ext.blockSize := by
  cases minor <;> rfl

theorem step_some {ext : BlkExtension} {r : Request}
    (nonzero : divides r = true → ext.blockSize ≠ 0) :
    ∃ next, step (some ext) r = some next ∧ next.blockSize = nextBlockSize ext.blockSize r := by
  cases r with
  | read byteOffset length => exact ⟨ext, transfer_some (nonzero rfl) 0 byteOffset length, rfl⟩
  | write byteOffset length => exact ⟨ext, transfer_some (nonzero rfl) 1 byteOffset length, rfl⟩
  | ioctl code config length => exact ⟨_, rfl, ioctl_blockSize ext code config length⟩
  | pnp minor => exact ⟨_, rfl, pnp_blockSize ext minor⟩
  | setInformation informationClass size =>
    cases informationClass with
    | other => exact ⟨ext, rfl, rfl⟩
    | fileAllocationInformation | fileEndOfFileInformation =>
      obtain ⟨next, done, same⟩ := resize_some (nonzero rfl) size
      exact ⟨next, by simp [step, dispatch, dispatchSetInformation, done], same⟩

theorem step_none {ext : BlkExtension} {r : Request} (dividing : divides r = true)
    (zero : ext.blockSize = 0) : step (some ext) r = none := by
  cases r with
  | read byteOffset length => simp [step, dispatch, dispatchRead, transfer_none zero]
  | write byteOffset length => simp [step, dispatch, dispatchWrite, transfer_none zero]
  | ioctl code config length => cases dividing
  | pnp minor => cases dividing
  | setInformation informationClass size =>
    cases informationClass with
    | other => cases dividing
    | fileAllocationInformation | fileEndOfFileInformation =>
      simp [step, dispatch, dispatchSetInformation, resize_none zero]

theorem run_none (requests : List Request) : run step none requests = none := by
  induction requests with
  | nil => rfl
  | cons r requests ih => exact ih

theorem run_defined_iff (ext : BlkExtension) (requests : List Request) :
    (∃ last, run step (some ext) requests = some last) ↔
      Meets nextBlockSize (fun size r => divides r = true → size ≠ 0) ext.blockSize requests := by
  induction requests generalizing ext with
  | nil => exact iff_of_true ⟨ext, rfl⟩ trivial
  | cons r requests ih =>
    rw [run, Meets]
    by_cases nonzero : divides r = true → ext.blockSize ≠ 0
    · obtain ⟨next, done, size⟩ := step_some nonzero
      rw [done, ih next, size]
      exact (and_iff_right nonzero).symm
    · obtain ⟨dividing, zero⟩ := Classical.not_imp.mp nonzero
      rw [step_none dividing (not_not.mp zero), run_none]
      constructor
      · intro defined
        obtain ⟨last, done⟩ := defined
        cases done
      · intro meets
        exact absurd meets.1 nonzero

/-- No division by zero occurs exactly when every dividing request comes after a SET_CONFIG the
    latest of which has a non-zero BlockSize. -/
theorem divisions_defined_iff (requests : List Request) :
    (∃ last, run step (some zeroExtension) requests = some last) ↔
      ∀ before r after, requests = before ++ r :: after → divides r = true →
        configuredBlockSize before ≠ 0 := by
  rw [run_defined_iff, meets_iff_splits]
  rfl

theorem unconfigured_read_divides :
    run step (some zeroExtension) [.read 0 4096] = none ∧
      run step (some zeroExtension) [.ioctl ioctlHdSetConfig ⟨1, 65536, 0, 0, 0⟩ 96, .read 0 4096] =
        none := by
  decide

end BlkDispatch
