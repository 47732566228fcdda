import HyperDisk.Foundations.DecimalText
import HyperDisk.Foundations.FileImages
import HyperDisk.Foundations.StepRuns
import HyperDisk.Foundations.WeightedMaps

/- The ImageService class of the image server: a table of images, each with its own file in
   the data directory. A descriptor is the file it was opened on, which stays at its path as
   long as the image is in the table. -/
namespace ImageService
open LittleEndian FileImages DecimalText StepRuns WeightedMaps

def blockSize : UInt64 := 4096

structure BlockRequest where
  imageId : UInt64
  blockOffset : UInt64
  blockCount : UInt32
  layerId : UInt8
  deriving DecidableEq, Repr

structure BlockResponse where
  imageId : UInt64
  blockOffset : UInt64
  blockCount : UInt32
  status : Int
  data : Bytes
  deriving DecidableEq, Repr

structure ImageFile where
  imageId : UInt64
  name : Bytes
  path : Path
  totalSize : UInt64
  blockCount : UInt32

structure Service where
  dataDir : Path
  images : Map UInt64 ImageFile
  disk : Disk

def newService (dataDir : Path) (disk : Disk) : Service := ⟨dataDir, ∅, disk⟩

def imagePath (dataDir : Path) (imageId : UInt64) : Path :=
  dataDir ++ ascii ['/'] ++ decimal imageId.toNat ++ ascii ['.', 'i', 'm', 'g']

def offT (x : UInt64) : Int := if x.toNat < 2 ^ 63 then x.toNat else x.toNat - 2 ^ 64

/-- Whether open() and ftruncate() succeed; ftruncate also refuses a negative length. -/
structure CreateIo where
  opens : Bool
  truncates : Bool

def createImage (s : Service) (imageId : UInt64) (name : Bytes) (size : UInt64) (io : CreateIo) :
    Service × Bool :=
  if (s.images.lookup imageId).isSome then (s, false)
  else if ¬ io.opens then (s, false)
  else
    let path := imagePath s.dataDir imageId
    if offT size < 0 ∨ ¬ io.truncates then ({ s with disk := s.disk.put path [] }, false)
    else
      let img : ImageFile := ⟨imageId, name, path, size, (size / blockSize).toUInt32⟩
      ({ s with
        images := s.images.insert imageId img
        disk := s.disk.put path (List.replicate size.toNat 0) }, true)

/-- ImageService::DeleteImage; the result of unlink() is ignored. -/
def deleteImage (s : Service) (imageId : UInt64) (unlinks : Bool) : Service × Bool :=
  match s.images.lookup imageId with
  | none => (s, false)
  | some img =>
    ({ s with
      images := s.images.erase imageId
      disk := if unlinks then s.disk.remove img.path else s.disk }, true)

def readBlocks (s : Service) (req : BlockRequest) : BlockResponse :=
  match s.images.lookup req.imageId with
  | none => ⟨req.imageId, req.blockOffset, req.blockCount, -1, []⟩
  | some img =>
    let totalBytes := (req.blockCount.toUInt64 * blockSize).toNat
    match pread (s.disk.contents img.path) totalBytes (offT (req.blockOffset * blockSize)) with
    | none => ⟨req.imageId, req.blockOffset, req.blockCount, -2, []⟩
    | some bytes => ⟨req.imageId, req.blockOffset, req.blockCount, 0, bytes⟩

def writeBlocks (s : Service) (req : BlockRequest) (data : Bytes) (outcome : WriteOutcome) :
    Service × Bool :=
  match s.images.lookup req.imageId with
  | none => (s, false)
  | some img =>
    let (image, n) :=
      pwrite (s.disk.contents img.path) data (offT (req.blockOffset * blockSize)) outcome
    ({ s with disk := s.disk.put img.path image }, n == data.length)

inductive ServiceCall where
  | create (imageId : UInt64) (name : Bytes) (size : UInt64) (io : CreateIo)
  | delete (imageId : UInt64) (unlinks : Bool)
  | write (req : BlockRequest) (data : Bytes) (outcome : WriteOutcome)

def serviceStep (s : Service) : ServiceCall → Service
  | .create imageId name size io => (createImage s imageId name size io).1
  | .delete imageId unlinks => (deleteImage s imageId unlinks).1
  | .write req data outcome => (writeBlocks s req data outcome).1

def Service.image (s : Service) (imageId : UInt64) : Option Bytes :=
  (s.images.lookup imageId).map fun img => s.disk.contents img.path

/-- Each image has the file its id names, no shorter than total_size and below the off_t
    limit. -/
def Inv (s : Service) : Prop :=
  ∀ imageId img, s.images.lookup imageId = some img →
    img.path = imagePath s.dataDir imageId ∧
      img.totalSize.toNat ≤ (s.disk.contents img.path).length ∧
      (s.disk.contents img.path).length < 2 ^ 63

theorem imagePath_injective {dataDir : Path} {m n : UInt64}
    (same : imagePath dataDir m = imagePath dataDir n) : m = n := by
  unfold imagePath at same
  have texts := List.append_cancel_right same
  exact UInt64.toNat_inj.mp (decimal_injective (List.append_cancel_left texts))

theorem offT_nonneg {x : UInt64} : 0 ≤ offT x ↔ x.toNat < 2 ^ 63 := by
  have small := x.toNat_lt
  unfold offT
  split <;> omega

theorem offT_of_small {x : UInt64} (small : x.toNat < 2 ^ 63) : offT x = x.toNat := if_pos small

theorem other_contents {s : Service} {imageId other : UInt64} {img : ImageFile} (h : Inv s)
    (stored : s.images.lookup other = some img) (apart : other ≠ imageId) (image : Bytes) :
    (s.disk.put (imagePath s.dataDir imageId) image).contents img.path =
      s.disk.contents img.path := by
  apply contents_put_ne
  rw [(h other img stored).1]
  exact fun same => apart (imagePath_injective same)

end ImageService
