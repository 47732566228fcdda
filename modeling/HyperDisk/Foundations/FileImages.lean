import HyperDisk.Foundations.LittleEndian

/- Files as byte images. A descriptor is the position at which the next write lands;
   writes inside existing bytes replace them and never truncate the file. -/
namespace FileImages
open LittleEndian

abbrev Path := Bytes
abbrev Disk := Path → Option Bytes

def Disk.contents (disk : Disk) (path : Path) : Bytes := (disk path).getD []

def Disk.put (disk : Disk) (path : Path) (image : Bytes) : Disk :=
  fun other => if other = path then some image else disk other

def Disk.remove (disk : Disk) (path : Path) : Disk :=
  fun other => if other = path then none else disk other

def patch (image : Bytes) (pos : Nat) (src : Bytes) : Bytes :=
  image.take pos ++ List.replicate (pos - image.length) 0 ++ src ++ image.drop (pos + src.length)

/-- What one write() call does: take everything, stop early, or return -1. -/
inductive WriteOutcome where
  | full
  | partly (n : Nat)
  | failed
  deriving DecidableEq, Repr

def WriteOutcome.count (outcome : WriteOutcome) (size : Nat) : Nat :=
  match outcome with
  | .full => size
  | .partly n => min n size
  | .failed => 0

def WriteOutcome.returned (outcome : WriteOutcome) (size : Nat) : Int :=
  match outcome with
  | .failed => -1
  | other => other.count size

def pread (image : Bytes) (size : Nat) (offset : Int) : Option Bytes :=
  if offset < 0 then none else some ((image.drop offset.toNat).take size)

/-- A pwrite() call. It is refused if the offset is negative or the write would end past the
    largest off_t; one that takes no byte leaves the file as it is. -/
def pwrite (image data : Bytes) (offset : Int) (outcome : WriteOutcome) : Bytes × Int :=
  if offset < 0 ∨ 2 ^ 63 ≤ offset + data.length then (image, -1)
  else if outcome.count data.length = 0 then (image, outcome.returned data.length)
  else (patch image offset.toNat (data.take (outcome.count data.length)),
    outcome.returned data.length)

@[simp] theorem contents_put (disk : Disk) (path : Path) (image : Bytes) :
    (disk.put path image).contents path = image := by
  simp [Disk.contents, Disk.put]

theorem contents_put_ne {disk : Disk} {path other : Path} (image : Bytes) (ne : other ≠ path) :
    (disk.put path image).contents other = disk.contents other := by
  simp [Disk.contents, Disk.put, ne]

theorem contents_remove_ne {disk : Disk} {path other : Path} (ne : other ≠ path) :
    (disk.remove path).contents other = disk.contents other := by
  simp [Disk.contents, Disk.remove, ne]

theorem put_ne {disk : Disk} {path other : Path} (image : Bytes) (ne : other ≠ path) :
    disk.put path image other = disk other := by
  simp [Disk.put, ne]

theorem patch_at_end (image src : Bytes) : patch image image.length src = image ++ src := by
  simp [patch]

theorem patch_inside {image src : Bytes} {pos : Nat} (inside : pos ≤ image.length) :
    patch image pos src = image.take pos ++ src ++ image.drop (pos + src.length) := by
  simp [patch, Nat.sub_eq_zero_of_le inside]

theorem patch_take {image src : Bytes} {pos : Nat} (inside : pos ≤ image.length) :
    (patch image pos src).take (pos + src.length) = image.take pos ++ src := by
  rw [patch_inside inside, List.take_left' (by simp; omega)]

theorem patch_length (image src : Bytes) (pos : Nat) :
    (patch image pos src).length = max image.length (pos + src.length) := by
  simp only [patch, List.length_append, List.length_take, List.length_replicate, List.length_drop]
  omega

theorem patch_byte {image src : Bytes} {pos : Nat} (inside : pos ≤ image.length) (i : Nat) :
    (patch image pos src)[i]? =
      if pos ≤ i ∧ i < pos + src.length then src[i - pos]? else image[i]? := by
  rw [patch_inside inside]
  exact splice_byte src inside i

theorem pwrite_length {image : Bytes} (data : Bytes) (offset : Int) (outcome : WriteOutcome)
    (small : image.length < 2 ^ 63) :
    image.length ≤ (pwrite image data offset outcome).1.length ∧
      (pwrite image data offset outcome).1.length < 2 ^ 63 := by
  unfold pwrite
  split
  · exact ⟨Nat.le_refl _, small⟩
  · split
    · exact ⟨Nat.le_refl _, small⟩
    · rw [patch_length, List.length_take]
      omega

theorem count_le (outcome : WriteOutcome) (size : Nat) : outcome.count size ≤ size := by
  cases outcome <;> simp [WriteOutcome.count]

theorem returned_eq_size_iff {outcome : WriteOutcome} {size : Nat} :
    outcome.returned size = size ↔ outcome ≠ .failed ∧ outcome.count size = size := by
  cases outcome with
  | full => simp [WriteOutcome.returned, WriteOutcome.count]
  | partly n => simp [WriteOutcome.returned, WriteOutcome.count]
  | failed =>
    simp only [WriteOutcome.returned, ne_eq, not_true_eq_false, false_and, iff_false]
    omega

end FileImages
