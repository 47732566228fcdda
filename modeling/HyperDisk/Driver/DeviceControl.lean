import HyperDisk.Driver.BusChildren
import HyperDisk.Foundations.DecimalText

/- The device control requests of the three drivers that present the disk: the bus driver for its
   children (bus_pnp.c), the plug and play driver (pnp_disk_driver.c) and the legacy driver
   (wdm_disk_driver.c). A reply is written into the system buffer, where the request came in;
   `none` is an access outside that buffer. -/
namespace DeviceControl
open LittleEndian DecimalText
open OverlayDriver (NtStatus statusSuccess)
open BusChildren (wide)

def statusBufferOverflow : NtStatus := 0x80000005
def statusInvalidParameter : NtStatus := 0xC000000D
def statusInvalidDeviceRequest : NtStatus := 0xC0000010
def statusBufferTooSmall : NtStatus := 0xC0000023

inductive IoControlCode where
  | diskGetDriveGeometry
  | diskGetDriveGeometryEx
  | diskGetLengthInfo
  | diskIsWritable
  | diskMediaRemoval
  | storageGetMediaTypesEx
  | storageGetDeviceNumber
  | storageQueryProperty
  | diskGetPartitionInfoEx
  | mountdevQueryDeviceName
  | mountdevQueryUniqueId
  | other
  deriving DecidableEq, Repr

structure Geometry where
  diskSize : UInt64
  sectorSize : UInt32
  cylinders : UInt32
  tracksPerCylinder : UInt32
  sectorsPerTrack : UInt32
  deriving DecidableEq, Repr

structure Request where
  code : IoControlCode
  inputLength : Nat
  outputLength : Nat
  buffer : Bytes
  room : buffer.length = max inputLength outputLength
  deriving DecidableEq

structure Completion where
  status : NtStatus
  information : Nat
  buffer : Bytes
  deriving DecidableEq

/-- A structure of the system's: its size, whether it is cleared first, and the fields that are
    stored in it. -/
structure Layout where
  size : Nat
  cleared : Bool
  fields : List (Nat × Bytes)
  deriving DecidableEq

def fixedMedia : Nat := 12
def fileDeviceDisk : Nat := 7
def busTypeVirtual : Nat := 14
def partitionIfs : Nat := 7
def mediaMountedReadWrite : Nat := 0x80000008

def newDevice : Geometry :=
  let diskSize : UInt64 := 64 * 1024 * 1024 * 1024
  let totalSectors := diskSize / 512
  let cylinders := (totalSectors / (63 * 255)).toUInt32
  ⟨diskSize, 512, if cylinders = 0 then 1 else cylinders, 255, 63⟩

def geometryFields (g : Geometry) : List (Nat × Bytes) :=
  [(0, store 8 g.cylinders.toNat), (8, store 4 fixedMedia), (12, store 4 g.tracksPerCylinder.toNat),
    (16, store 4 g.sectorsPerTrack.toNat), (20, store 4 g.sectorSize.toNat)]

def diskGeometry (g : Geometry) : Layout := ⟨24, true, geometryFields g⟩

def diskGeometryEx (g : Geometry) : Layout :=
  ⟨40, true, geometryFields g ++ [(24, store 8 g.diskSize.toNat)]⟩

def getLengthInformation (g : Geometry) : Layout := ⟨8, false, [(0, store 8 g.diskSize.toNat)]⟩

def getMediaTypes (g : Geometry) : Layout :=
  ⟨40, true, [(0, store 4 fileDeviceDisk), (4, store 4 1), (16, store 4 fixedMedia),
    (32, store 4 1), (36, store 4 mediaMountedReadWrite), (8, store 8 g.cylinders.toNat),
    (20, store 4 g.tracksPerCylinder.toNat),
    (24, store 4 g.sectorsPerTrack.toNat), (28, store 4 g.sectorSize.toNat)]⟩

def storageDeviceNumber (deviceNumber : Nat) : Layout :=
  ⟨12, false, [(0, store 4 fileDeviceDisk), (4, store 4 deviceNumber), (8, store 4 0xFFFFFFFF)]⟩

def storageDeviceDescriptor : Layout :=
  ⟨40, true, [(0, store 4 40), (4, store 4 40), (8, store 1 fileDeviceDisk),
    (28, store 4 busTypeVirtual)]⟩

def storageAdapterDescriptor : Layout :=
  ⟨32, true, [(0, store 4 32), (4, store 4 32), (8, store 4 (128 * 1024)), (12, store 4 32),
    (16, store 4 0), (24, store 1 busTypeVirtual)]⟩

def partitionInformationEx (g : Geometry) : Layout :=
  ⟨144, true, [(0, store 4 0), (8, store 8 0), (16, store 8 g.diskSize.toNat),
    (32, store 1 partitionIfs), (33, store 1 0), (34, store 1 1), (36, store 4 0), (28, store 1 0)]⟩

/-- MOUNTDEV_NAME and MOUNTDEV_UNIQUE_ID have four bytes: the length, and room for the first of
    what follows it, which the driver leaves and writes behind. -/
def mountText (text : Bytes) : Layout :=
  ⟨4 + text.length, false, [(0, store 2 text.length), (4, text)]⟩

def symLinkName : Bytes := wide "\\DosDevices\\PhysicalDrive1".toList
def uniqueId : Bytes := ascii "HyperDisk_VDisk0".toList

def fill (layout : Layout) (buffer : Bytes) : Option Bytes := do
  let buffer ← if layout.cleared then overwrite buffer 0 (List.replicate layout.size 0)
      else some buffer
  layout.fields.foldlM (fun buffer field => overwrite buffer field.1 field.2) buffer

def reply (short : NtStatus) (layout : Layout) (r : Request) : Option Completion :=
  if r.outputLength < layout.size then some ⟨short, 0, r.buffer⟩
  else do
    let buffer ← fill layout r.buffer
    some ⟨statusSuccess, layout.size, buffer⟩

def queryProperty (r : Request) : Option Completion := do
  if r.inputLength < 12 then some ⟨statusInvalidParameter, 0, r.buffer⟩
  else
    let propertyId ← slice r.buffer 0 4
    if load propertyId = 0 then reply statusBufferTooSmall storageDeviceDescriptor r
    else if load propertyId = 1 then reply statusBufferTooSmall storageAdapterDescriptor r
    else some ⟨statusInvalidParameter, 0, r.buffer⟩

def commonControl (deviceNumber : Nat) (g : Geometry) (r : Request) : Option Completion :=
  match r.code with
  | .diskGetDriveGeometry => reply statusBufferTooSmall (diskGeometry g) r
  | .diskGetDriveGeometryEx => reply statusBufferTooSmall (diskGeometryEx g) r
  | .diskGetLengthInfo => reply statusBufferTooSmall (getLengthInformation g) r
  | .diskIsWritable | .diskMediaRemoval => some ⟨statusSuccess, 0, r.buffer⟩
  | .storageGetMediaTypesEx => reply statusBufferTooSmall (getMediaTypes g) r
  | .storageGetDeviceNumber => reply statusBufferTooSmall (storageDeviceNumber deviceNumber) r
  | .storageQueryProperty => queryProperty r
  | .diskGetPartitionInfoEx => reply statusBufferTooSmall (partitionInformationEx g) r
  | _ => some ⟨statusInvalidDeviceRequest, 0, r.buffer⟩

def childDeviceControl : Geometry → Request → Option Completion := commonControl 0

def pnpDeviceControl : Geometry → Request → Option Completion := commonControl 0

/-- HdBlkDispatchDeviceControl of the legacy driver. It also puts the size it needs into the
    Information of a request that is too short for a name, and then stores the zero over it that
    every failure gets. -/
def wdmDeviceControl (g : Geometry) (r : Request) : Option Completion :=
  match r.code with
  | .mountdevQueryDeviceName => reply statusBufferOverflow (mountText symLinkName) r
  | .mountdevQueryUniqueId => reply statusBufferOverflow (mountText uniqueId) r
  | _ => commonControl 1 g r

def Layout.Inside (layout : Layout) : Prop :=
  ∀ field ∈ layout.fields, field.1 + field.2.length ≤ layout.size

def Safe (r : Request) (o : Option Completion) : Prop :=
  ∃ done, o = some done ∧ done.information ≤ r.outputLength ∧ done.buffer.length = r.buffer.length ∧
    done.buffer.drop done.information = r.buffer.drop done.information ∧
    (done.status ≠ statusSuccess → done.information = 0)

theorem overwrite_tail {buf buf' src : Bytes} {off size : Nat}
    (done : overwrite buf off src = some buf') (below : off + src.length ≤ size) :
    buf'.drop size = buf.drop size := by
  apply List.ext_getElem?
  intro i
  rw [List.getElem?_drop, List.getElem?_drop, overwrite_byte done, if_neg (by omega)]

theorem fields_fill (size : Nat) (fields : List (Nat × Bytes)) (buffer : Bytes)
    (room : size ≤ buffer.length) (inside : ∀ field ∈ fields, field.1 + field.2.length ≤ size) :
    ∃ buffer', fields.foldlM (fun buffer field => overwrite buffer field.1 field.2) buffer =
      some buffer' ∧
      buffer'.length = buffer.length ∧ buffer'.drop size = buffer.drop size := by
  induction fields generalizing buffer with
  | nil => exact ⟨buffer, rfl, rfl, rfl⟩
  | cons field fields ih =>
    have first := inside field List.mem_cons_self
    obtain ⟨next, wrote⟩ : ∃ next, overwrite buffer field.1 field.2 = some next :=
      ⟨_, overwrite_eq_some (by omega)⟩
    have length := (overwrite_length wrote).1
    obtain ⟨buffer', filled, same, tail⟩ :=
      ih next (by omega) fun f here => inside f (List.mem_cons_of_mem _ here)
    refine ⟨buffer', ?_, same.trans length, tail.trans (overwrite_tail wrote first)⟩
    rw [List.foldlM_cons, wrote]
    exact filled

theorem fill_inside {layout : Layout} (buffer : Bytes) (inside : layout.Inside)
    (room : layout.size ≤ buffer.length) :
    ∃ buffer', fill layout buffer = some buffer' ∧ buffer'.length = buffer.length ∧
      buffer'.drop layout.size = buffer.drop layout.size := by
  unfold fill
  cases layout.cleared with
  | false => exact fields_fill layout.size layout.fields buffer room inside
  | true =>
    have zeros : (List.replicate layout.size (0 : UInt8)).length = layout.size :=
      List.length_replicate
    obtain ⟨next, wrote⟩ : ∃ next, overwrite buffer 0 (List.replicate layout.size 0) = some next :=
      ⟨_, overwrite_eq_some (by omega)⟩
    have length := (overwrite_length wrote).1
    obtain ⟨buffer', filled, same, tail⟩ :=
      fields_fill layout.size layout.fields next (by omega) inside
    refine ⟨buffer', ?_, same.trans length, tail.trans (overwrite_tail wrote (by omega))⟩
    simp only [if_true, wrote, Option.bind_eq_bind, Option.bind_some]
    exact filled

theorem failure_safe (r : Request) (status : NtStatus) : Safe r (some ⟨status, 0, r.buffer⟩) :=
  ⟨_, rfl, Nat.zero_le _, rfl, rfl, fun _ => rfl⟩

theorem reply_safe (short : NtStatus) {layout : Layout} (inside : layout.Inside) (r : Request) :
    Safe r (reply short layout r) := by
  unfold reply
  split
  · exact failure_safe r short
  · rename_i enough
    have room := r.room
    obtain ⟨buffer', filled, same, tail⟩ := fill_inside r.buffer inside (by omega)
    refine ⟨⟨statusSuccess, layout.size, buffer'⟩, ?_, by simp only; omega, same, tail, fun bad =>
      absurd rfl bad⟩
    rw [filled]
    rfl

theorem queryProperty_safe (r : Request) : Safe r (queryProperty r) := by
  unfold queryProperty
  split
  · exact failure_safe r _
  · rename_i enough
    have room := r.room
    rw [slice_eq_some (by omega), Option.bind_eq_bind, Option.bind_some]
    split
    · apply reply_safe
      unfold Layout.Inside
      decide
    · split
      · apply reply_safe
        unfold Layout.Inside
        decide
      · exact failure_safe r _

theorem commonControl_safe (deviceNumber : Nat) (g : Geometry) (r : Request) :
    Safe r (commonControl deviceNumber g r) := by
  unfold commonControl
  cases r.code with
  | diskGetDriveGeometry =>
    apply reply_safe
    simp [Layout.Inside, diskGeometry, geometryFields]
  | diskGetDriveGeometryEx =>
    apply reply_safe
    simp [Layout.Inside, diskGeometryEx, geometryFields]
  | diskGetLengthInfo =>
    apply reply_safe
    simp [Layout.Inside, getLengthInformation]
  | storageGetMediaTypesEx =>
    apply reply_safe
    simp [Layout.Inside, getMediaTypes]
  | storageGetDeviceNumber =>
    apply reply_safe
    simp [Layout.Inside, storageDeviceNumber]
  | storageQueryProperty => exact queryProperty_safe r
  | diskGetPartitionInfoEx =>
    apply reply_safe
    simp [Layout.Inside, partitionInformationEx]
  | diskIsWritable | diskMediaRemoval | mountdevQueryDeviceName | mountdevQueryUniqueId | other =>
    exact failure_safe r _

theorem mountText_inside (text : Bytes) : (mountText text).Inside := by
  simp [Layout.Inside, mountText]
  omega

/-- No device control request of any driver reaches outside the system buffer or returns more
    bytes than the caller has room for. -/
theorem device_control_safe (g : Geometry) (r : Request) :
    Safe r (childDeviceControl g r) ∧ Safe r (pnpDeviceControl g r) ∧
      Safe r (wdmDeviceControl g r) := by
  refine ⟨commonControl_safe 0 g r, commonControl_safe 0 g r, ?_⟩
  unfold wdmDeviceControl
  split
  · exact reply_safe _ (mountText_inside _) r
  · exact reply_safe _ (mountText_inside _) r
  · exact commonControl_safe 1 g r

/-- What the mount manager takes from a MOUNTDEV_NAME or a MOUNTDEV_UNIQUE_ID: the length, and so
    many bytes of the field behind it. -/
def mountRead (buffer : Bytes) : Option Bytes := do
  let length ← slice buffer 0 2
  slice buffer 2 (load length)

theorem mountText_read {text : Bytes} (buffer : Bytes) (small : text.length < 2 ^ 16)
    (some_text : 2 ≤ text.length) (room : 4 + text.length ≤ buffer.length) :
    ∃ buffer', fill (mountText text) buffer = some buffer' ∧
      mountRead buffer' = some ((buffer.drop 2).take 2 ++ text.take (text.length - 2)) := by
  obtain ⟨first, wrote⟩ : ∃ first, overwrite buffer 0 (store 2 text.length) = some first :=
    ⟨_, overwrite_eq_some (by simp; omega)⟩
  have length := (overwrite_length wrote).1
  obtain ⟨second, copied⟩ : ∃ second, overwrite first 4 text = some second :=
    ⟨_, overwrite_eq_some (by omega)⟩
  refine ⟨second, ?_, ?_⟩
  · simp only [fill, mountText, Bool.false_eq_true, if_false, Option.bind_eq_bind, Option.bind_some,
      List.foldlM_cons, List.foldlM_nil, wrote, copied]
    rfl
  · have here := slice_overwrite_here wrote
    rw [store_length, ← slice_overwrite_apart copied (by omega)] at here
    rw [mountRead, here, Option.bind_eq_bind, Option.bind_some, load_store_of_lt small]
    have longer := (overwrite_length copied).1
    rw [slice_eq_some (by omega), Option.some_inj]
    have front : ((buffer.drop 2).take 2).length = 2 := by
      rw [List.length_take, List.length_drop]
      omega
    apply List.ext_getElem?
    intro i
    by_cases within : i < text.length
    · rw [List.getElem?_take_of_lt within, List.getElem?_drop, overwrite_byte copied]
      by_cases early : i < 2
      · rw [if_neg (by omega), overwrite_byte wrote, if_neg (by rw [store_length]; omega),
          List.getElem?_append_left (by omega), List.getElem?_take_of_lt early, List.getElem?_drop]
      · rw [if_pos (by omega), List.getElem?_append_right (by omega), front,
          List.getElem?_take_of_lt (by omega)]
        congr 1
        omega
    · rw [List.getElem?_eq_none (by rw [List.length_take, List.length_drop]; omega),
        List.getElem?_eq_none]
      rw [List.length_append, front, List.length_take]
      omega

theorem shifted_differs {text front : Bytes} (two : front.length = 2)
    (varies : text.drop 2 ≠ text.take (text.length - 2)) :
    front ++ text.take (text.length - 2) ≠ text := by
  intro same
  apply varies
  have behind := congrArg (List.drop 2) same
  rw [← two, List.drop_left, two] at behind
  exact behind.symm

def mountName : IoControlCode → Option Bytes
  | .mountdevQueryDeviceName => some symLinkName
  | .mountdevQueryUniqueId => some uniqueId
  | _ => none

theorem mountName_reply {code : IoControlCode} {text : Bytes} (asked : mountName code = some text)
    (g : Geometry) (r : Request) (here : r.code = code) :
    wdmDeviceControl g r = reply statusBufferOverflow (mountText text) r := by
  unfold wdmDeviceControl
  rw [here]
  unfold mountName at asked
  split at asked
  · cases asked
    rfl
  · cases asked
    rfl
  · cases asked

theorem mountName_varies {code : IoControlCode} {text : Bytes}
    (asked : mountName code = some text) :
    (2 ≤ text.length ∧ text.length < 2 ^ 16) ∧ text.drop 2 ≠ text.take (text.length - 2) := by
  unfold mountName at asked
  split at asked
  · cases asked
    decide
  · cases asked
    decide
  · cases asked

/-- The mount manager never gets the name or the id of the legacy driver's disk: it reads two
    bytes that were in the buffer before, and then the text without its last two bytes. -/
theorem mount_texts_misread (g : Geometry) (r : Request) (text : Bytes)
    (asked : mountName r.code = some text) (room : 4 + text.length ≤ r.outputLength) :
    ∃ done, wdmDeviceControl g r = some done ∧ done.status = statusSuccess ∧
      mountRead done.buffer = some ((r.buffer.drop 2).take 2 ++ text.take (text.length - 2)) ∧
      mountRead done.buffer ≠ some text := by
  obtain ⟨⟨some_text, small⟩, varies⟩ := mountName_varies asked
  have whole := r.room
  have enough : ¬ r.outputLength < (mountText text).size := Nat.not_lt.mpr room
  obtain ⟨buffer', filled, read⟩ := mountText_read r.buffer small some_text (by omega)
  refine ⟨⟨statusSuccess, 4 + text.length, buffer'⟩, ?_, rfl, read, ?_⟩
  · rw [mountName_reply asked g r rfl, reply, if_neg enough, filled]
    rfl
  · rw [read]
    intro same
    apply shifted_differs _ varies (Option.some.inj same)
    rw [List.length_take, List.length_drop]
    omega

theorem device_name_misread :
    ∃ done, wdmDeviceControl newDevice ⟨.mountdevQueryDeviceName, 0, 56, List.replicate 56 0, rfl⟩ =
      some done ∧
      done.status = statusSuccess ∧
      mountRead done.buffer =
        some (((List.replicate 56 0).drop 2).take 2 ++ symLinkName.take (symLinkName.length - 2)) ∧
      mountRead done.buffer ≠ some symLinkName :=
  mount_texts_misread newDevice ⟨.mountdevQueryDeviceName, 0, 56,
    List.replicate 56 0, rfl⟩ symLinkName rfl (by decide)

end DeviceControl
