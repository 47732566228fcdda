import HyperDisk.ImageServer.ImageService

/- What ReadBlocks returns and what WriteBlocks changes, against the byte range a request
   names. The product block_offset * BLOCK_SIZE wraps, ReadBlocks reports a short read as
   success, and WriteBlocks looks neither at block_count nor at total_size. -/
namespace BlockAccess
open LittleEndian FileImages StepRuns WeightedMaps ImageService

def firstByte (req : BlockRequest) : Nat := req.blockOffset.toNat * 4096
def byteCount (req : BlockRequest) : Nat := req.blockCount.toNat * 4096

def usedOffset (req : BlockRequest) : Nat := firstByte req % 2 ^ 64

theorem usedOffset_eq (req : BlockRequest) :
    (req.blockOffset * blockSize).toNat = usedOffset req := by
  rw [UInt64.toNat_mul]
  rfl

theorem totalBytes_eq (req : BlockRequest) :
    (req.blockCount.toUInt64 * blockSize).toNat = byteCount req := by
  have small := req.blockCount.toNat_lt
  rw [UInt64.toNat_mul, UInt32.toNat_toUInt64, show blockSize.toNat = 4096 from rfl, byteCount]
  omega

theorem create_inv {s : Service} (h : Inv s) (imageId : UInt64) (name : Bytes) (size : UInt64)
    (io : CreateIo) : Inv (createImage s imageId name size io).1 := by
  unfold createImage
  split
  · exact h
  · rename_i absent
    split
    · exact h
    · dsimp only
      split
      · intro other img stored
        have apart : other ≠ imageId := by
          rintro rfl
          simp [stored] at absent
        rw [other_contents h stored apart]
        exact h other img stored
      · rename_i fits
        intro other img stored
        dsimp only at stored ⊢
        rw [lookup_insert_eq] at stored
        split at stored
        · rename_i here
          cases stored
          have small : size.toNat < 2 ^ 63 := offT_nonneg.mp (by omega)
          rw [contents_put, List.length_replicate]
          exact ⟨by rw [here], Nat.le_refl _, small⟩
        · rename_i apart
          rw [other_contents h stored apart]
          exact h other img stored

theorem delete_inv {s : Service} (h : Inv s) (imageId : UInt64) (unlinks : Bool) :
    Inv (deleteImage s imageId unlinks).1 := by
  unfold deleteImage
  split
  · exact h
  · rename_i img found
    intro other kept stored
    dsimp only at stored ⊢
    rw [lookup_erase_eq] at stored
    split at stored
    · cases stored
    · rename_i apart
      have paths : kept.path ≠ img.path := by
        rw [(h other kept stored).1, (h imageId img found).1]
        exact fun same => apart (imagePath_injective same)
      have same : (if unlinks then s.disk.remove img.path else s.disk).contents kept.path =
          s.disk.contents kept.path := by
        split
        · exact contents_remove_ne paths
        · rfl
      rw [same]
      exact h other kept stored

theorem write_inv {s : Service} (h : Inv s) (req : BlockRequest) (data : Bytes)
    (outcome : WriteOutcome) : Inv (writeBlocks s req data outcome).1 := by
  unfold writeBlocks
  split
  · exact h
  · rename_i img found
    obtain ⟨path, enough, small⟩ := h req.imageId img found
    have length := pwrite_length data (offT (req.blockOffset * blockSize)) outcome small
    intro other kept stored
    dsimp only at stored ⊢
    by_cases here : other = req.imageId
    · rw [here, found] at stored
      cases stored
      rw [contents_put]
      exact ⟨by rw [here, path], by omega, length.2⟩
    · rw [path, other_contents h stored here]
      exact h other kept stored

theorem service_inv (dataDir : Path) (disk : Disk) (calls : List ServiceCall) :
    Inv (run serviceStep (newService dataDir disk) calls) := by
  apply invariant_run
  · intro imageId img stored
    cases stored
  · intro s call h
    cases call with
    | create imageId name size io => exact create_inv h imageId name size io
    | delete imageId unlinks => exact delete_inv h imageId unlinks
    | write req data outcome => exact write_inv h req data outcome

/-- A response with status 0 carries exactly the requested bytes of the image, and a request
    for a byte past its end has no such response. -/
def Faithful (s : Service) (req : BlockRequest) : Prop :=
  (readBlocks s req).status = 0 → ∃ image, s.image req.imageId = some image ∧
    (readBlocks s req).data.length = byteCount req ∧
    (∀ i, i < byteCount req → (readBlocks s req).data[i]? = image[firstByte req + i]?) ∧
    ¬ ∃ i, i < byteCount req ∧ image.length ≤ firstByte req + i

theorem readBlocks_eq {s : Service} {req : BlockRequest} {image : Bytes}
    (stored : s.image req.imageId = some image) :
    readBlocks s req =
      if usedOffset req < 2 ^ 63 then
        ⟨req.imageId, req.blockOffset, req.blockCount, 0,
          (image.drop (usedOffset req)).take (byteCount req)⟩
      else ⟨req.imageId, req.blockOffset, req.blockCount, -2, []⟩ := by
  obtain ⟨img, found, rfl⟩ := Option.map_eq_some_iff.mp stored
  have used := usedOffset_eq req
  simp only [readBlocks, found, totalBytes_eq, pread]
  by_cases small : usedOffset req < 2 ^ 63
  · rw [← used] at small
    rw [offT_of_small small, if_neg (by omega), used, if_pos (by omega)]
    rfl
  · have negative : offT (req.blockOffset * blockSize) < 0 := by
      by_contra nonneg
      have := offT_nonneg.mp (by omega : 0 ≤ offT (req.blockOffset * blockSize))
      omega
    rw [if_pos negative, if_neg small]

theorem faithful_of_inside {s : Service} {req : BlockRequest} {image : Bytes}
    (stored : s.image req.imageId = some image) (limit : image.length < 2 ^ 63)
    (inside : firstByte req + byteCount req ≤ image.length) : Faithful s req := by
  have same : usedOffset req = firstByte req := Nat.mod_eq_of_lt (by omega)
  intro _
  rw [readBlocks_eq stored, same, if_pos (by omega)]
  refine ⟨image, stored, ?_, ?_, ?_⟩
  · simp only [List.length_take, List.length_drop]
    omega
  · intro i small
    rw [List.getElem?_take_of_lt small, List.getElem?_drop]
  · rintro ⟨i, small, past⟩
    omega

theorem faithful_of_empty {s : Service} {req : BlockRequest} {image : Bytes}
    (stored : s.image req.imageId = some image) (small : usedOffset req < 2 ^ 63)
    (empty : byteCount req = 0) : Faithful s req := by
  intro _
  rw [readBlocks_eq stored, if_pos small, empty]
  refine ⟨image, stored, rfl, ?_, ?_⟩
  · intro i none
    omega
  · rintro ⟨i, none, _⟩
    omega

/-- ReadBlocks is faithful in a state that calls can reach exactly when the image is not
    there, or the wrapped offset is negative, or no block is asked for, or the whole request
    lies inside the image. -/
theorem reads_faithful_iff_inside (dataDir : Path) (disk : Disk) (calls : List ServiceCall)
    (req : BlockRequest) :
    Faithful (run serviceStep (newService dataDir disk) calls) req ↔
      ∀ image, (run serviceStep (newService dataDir disk) calls).image req.imageId = some image →
        usedOffset req < 2 ^ 63 → 0 < req.blockCount →
          firstByte req + byteCount req ≤ image.length := by
  have inv := service_inv dataDir disk calls
  generalize run serviceStep (newService dataDir disk) calls = s at inv
  constructor
  · intro faithful image stored small some
    have positive : 0 < byteCount req :=
      Nat.mul_pos (UInt32.lt_iff_toNat_lt.mp some) (by decide)
    obtain ⟨image', stored', _, _, within⟩ :=
      faithful (by rw [readBlocks_eq stored, if_pos small])
    cases stored.symm.trans stored'
    by_contra outside
    exact within ⟨byteCount req - 1, by omega, by omega⟩
  · intro inside
    cases stored : s.image req.imageId with
    | none =>
      intro ok
      have absent : s.images.lookup req.imageId = none := Option.map_eq_none_iff.mp stored
      simp [readBlocks, absent] at ok
    | some image =>
      obtain ⟨img, found, contents⟩ := Option.map_eq_some_iff.mp stored
      have limit : image.length < 2 ^ 63 := by
        rw [← contents]
        exact (inv req.imageId img found).2.2
      by_cases small : usedOffset req < 2 ^ 63
      · by_cases some : 0 < req.blockCount
        · exact faithful_of_inside stored limit (inside image stored small some)
        · refine faithful_of_empty stored small ?_
          rw [byteCount]
          rw [UInt32.lt_iff_toNat_lt] at some
          have zero : req.blockCount.toNat = 0 := Nat.eq_zero_of_not_pos some
          omega
      · intro ok
        rw [readBlocks_eq stored, if_neg small] at ok
        cases ok

def oneByteImage : Service :=
  run serviceStep (newService [] fun _ => none) [.create 1 [] 1 ⟨true, true⟩]

def wrappingBlock : UInt64 := 4503599627370496

/-- One block of a one-byte image, and the block whose offset wraps to the same place: both
    reads succeed with one byte. -/
theorem short_read_reported_as_success :
    readBlocks oneByteImage ⟨1, 0, 1, 0⟩ = ⟨1, 0, 1, 0, [0]⟩ ∧
      readBlocks oneByteImage ⟨1, wrappingBlock, 1, 0⟩ = ⟨1, wrappingBlock, 1, 0, [0]⟩ ∧
      ¬ Faithful oneByteImage ⟨1, 0, 1, 0⟩ ∧ ¬ Faithful oneByteImage ⟨1, wrappingBlock, 1, 0⟩ := by
  have first : readBlocks oneByteImage ⟨1, 0, 1, 0⟩ = ⟨1, 0, 1, 0, [0]⟩ := by decide +kernel
  have aliased : readBlocks oneByteImage ⟨1, wrappingBlock, 1, 0⟩ =
      ⟨1, wrappingBlock, 1, 0, [0]⟩ := by
    decide +kernel
  refine ⟨first, aliased, fun faithful => ?_, fun faithful => ?_⟩
  · obtain ⟨_, _, length, _⟩ := faithful (by rw [first])
    rw [first] at length
    exact absurd length (by decide)
  · obtain ⟨_, _, length, _⟩ := faithful (by rw [aliased])
    rw [aliased] at length
    exact absurd length (by decide)

def WritesInside (s : Service) (req : BlockRequest) (data : Bytes) (outcome : WriteOutcome) :
    Prop :=
  ∀ imageId img image, s.images.lookup imageId = some img → s.image imageId = some image →
    ∃ after, (writeBlocks s req data outcome).1.image imageId = some after ∧
      (∀ i, ¬ (imageId = req.imageId ∧ firstByte req ≤ i ∧ i < firstByte req + byteCount req) →
        after[i]? = image[i]?) ∧
      (imageId = req.imageId → after.length ≠ image.length → after.length ≤ img.totalSize.toNat)

theorem writeBlocks_image {s : Service} {req : BlockRequest} {image : Bytes} (data : Bytes)
    (outcome : WriteOutcome) (stored : s.image req.imageId = some image) :
    (writeBlocks s req data outcome).1.image req.imageId =
      some (pwrite image data (offT (req.blockOffset * blockSize)) outcome).1 := by
  obtain ⟨img, found, rfl⟩ := Option.map_eq_some_iff.mp stored
  simp [writeBlocks, Service.image, found]

theorem writeBlocks_other {s : Service} {req : BlockRequest} {imageId : UInt64} (h : Inv s)
    (data : Bytes) (outcome : WriteOutcome) (apart : imageId ≠ req.imageId) :
    (writeBlocks s req data outcome).1.image imageId = s.image imageId := by
  unfold writeBlocks
  split
  · rfl
  · rename_i img found
    simp only [Service.image]
    cases stored : s.images.lookup imageId with
    | none => rfl
    | some kept =>
      rw [Option.map_some, Option.map_some, (h req.imageId img found).1,
        other_contents h stored apart]

theorem pwrite_request (req : BlockRequest) (image data : Bytes) (outcome : WriteOutcome) :
    (pwrite image data (offT (req.blockOffset * blockSize)) outcome).1 =
      if usedOffset req + data.length < 2 ^ 63 ∧ 0 < outcome.count data.length then
        patch image (usedOffset req) (data.take (outcome.count data.length))
      else image := by
  have used := usedOffset_eq req
  unfold pwrite
  by_cases small : usedOffset req + data.length < 2 ^ 63
  · have offset : offT (req.blockOffset * blockSize) = usedOffset req := by
      rw [offT_of_small (by omega), used]
    rw [offset, if_neg (by omega), Int.toNat_natCast]
    split
    · rw [if_neg (by omega)]
    · rw [if_pos (by omega)]
  · have refused : offT (req.blockOffset * blockSize) < 0 ∨
        2 ^ 63 ≤ offT (req.blockOffset * blockSize) + data.length := by
      by_cases nonneg : 0 ≤ offT (req.blockOffset * blockSize)
      · rw [offT_of_small (offT_nonneg.mp nonneg)]
        omega
      · omega
    rw [if_pos refused, if_neg (by omega)]

/-- It writes nothing, or it ends inside the file and the bytes that land outside the request
    are there already. -/
def Harmless (s : Service) (req : BlockRequest) (data : Bytes) (outcome : WriteOutcome) : Prop :=
  ∀ image, s.image req.imageId = some image → usedOffset req + data.length < 2 ^ 63 →
    0 < outcome.count data.length →
      usedOffset req + outcome.count data.length ≤ image.length ∧
      ∀ j, j < outcome.count data.length →
        ¬ (firstByte req ≤ usedOffset req + j ∧
          usedOffset req + j < firstByte req + byteCount req) →
        data[j]? = image[usedOffset req + j]?

theorem writesInside_iff_harmless {s : Service} (inv : Inv s) (req : BlockRequest) (data : Bytes)
    (outcome : WriteOutcome) : WritesInside s req data outcome ↔ Harmless s req data outcome := by
  have taken := count_le outcome data.length
  have size : (data.take (outcome.count data.length)).length = outcome.count data.length :=
    List.length_take_of_le taken
  constructor
  · intro inside image stored small some
    obtain ⟨img, found, contents⟩ := Option.map_eq_some_iff.mp stored
    have enough := (inv req.imageId img found).2.1
    rw [contents] at enough
    obtain ⟨after, result, frame, total⟩ := inside req.imageId img image found stored
    rw [writeBlocks_image data outcome stored, pwrite_request, if_pos ⟨small, some⟩] at result
    cases result
    have length := patch_length image (data.take (outcome.count data.length)) (usedOffset req)
    have within : usedOffset req + outcome.count data.length ≤ image.length := by
      by_contra longer
      have := total rfl (by omega)
      omega
    refine ⟨within, fun j below outside => ?_⟩
    have kept := frame (usedOffset req + j) fun range => outside range.2
    rwa [patch_byte (by omega), if_pos (by omega), Nat.add_sub_cancel_left,
      List.getElem?_take_of_lt below] at kept
  · intro inside imageId img image found stored
    by_cases here : imageId = req.imageId
    · subst here
      rw [writeBlocks_image data outcome stored, pwrite_request]
      refine ⟨_, rfl, ?_⟩
      split
      · rename_i writes
        obtain ⟨within, same⟩ := inside image stored writes.1 writes.2
        constructor
        · intro i outside
          rw [patch_byte (by omega), size]
          split
          · rename_i covered
            have equal := same (i - usedOffset req) (by omega)
              (by rw [Nat.add_sub_cancel' covered.1]; exact fun range => outside ⟨rfl, range⟩)
            rw [List.getElem?_take_of_lt (by omega), equal, Nat.add_sub_cancel' covered.1]
          · rfl
        · intro _ changed
          have length := patch_length image (data.take (outcome.count data.length)) (usedOffset req)
          omega
      · exact ⟨fun _ _ => rfl, fun _ changed => absurd rfl changed⟩
    · exact ⟨image, by rw [writeBlocks_other inv data outcome here, stored], fun _ _ => rfl,
        fun same => absurd same here⟩

def Fits (s : Service) (req : BlockRequest) (n : Nat) : Prop :=
  ∀ image, s.image req.imageId = some image → usedOffset req + n < 2 ^ 63 → 0 < n →
    firstByte req + n ≤ image.length ∧ n ≤ byteCount req

theorem harmless_of_fits {s : Service} {req : BlockRequest} {data : Bytes} (inv : Inv s)
    (fits : Fits s req data.length) : Harmless s req data .full := by
  intro image stored small some
  obtain ⟨within, enough⟩ := fits image stored small some
  obtain ⟨img, found, contents⟩ := Option.map_eq_some_iff.mp stored
  have limit := (inv req.imageId img found).2.2
  rw [contents] at limit
  have same : usedOffset req = firstByte req := Nat.mod_eq_of_lt (by omega)
  rw [same]
  refine ⟨within, fun j below outside => absurd ⟨?_, ?_⟩ outside⟩
  · omega
  · have : j < data.length := below
    omega

theorem fits_of_harmless {s : Service} {req : BlockRequest} {n : Nat}
    (every : ∀ data : Bytes, data.length = n → Harmless s req data .full) : Fits s req n := by
  intro image stored small some
  have length : ((List.range n).map fun j => image.getD (usedOffset req + j) 0 + 1).length = n := by
    simp
  obtain ⟨within, same⟩ := every _ length image stored (by omega) (by rw [length]; exact some)
  rw [length] at within same
  have covered : ∀ j, j < n → firstByte req ≤ usedOffset req + j ∧
      usedOffset req + j < firstByte req + byteCount req := by
    intro j below
    by_contra outside
    have equal := same j below outside
    have inside : usedOffset req + j < image.length := by
      have : usedOffset req + n ≤ image.length := within
      omega
    simp [below, inside] at equal
  have least : usedOffset req ≤ firstByte req := Nat.mod_le _ _
  have first := covered 0 some
  have last := covered (n - 1) (by omega)
  have : usedOffset req + n ≤ image.length := within
  omega

/-- In a state that calls can reach, WriteBlocks stays inside its request exactly when the
    write is harmless; and it does so whatever the n bytes are exactly when they fit. -/
theorem writes_inside_iff (dataDir : Path) (disk : Disk) (calls : List ServiceCall)
    (req : BlockRequest) :
    (∀ data outcome,
      WritesInside (run serviceStep (newService dataDir disk) calls) req data outcome ↔
        Harmless (run serviceStep (newService dataDir disk) calls) req data outcome) ∧
    ∀ n, (∀ data : Bytes, data.length = n →
        WritesInside (run serviceStep (newService dataDir disk) calls) req data .full) ↔
      Fits (run serviceStep (newService dataDir disk) calls) req n := by
  have inv := service_inv dataDir disk calls
  refine ⟨writesInside_iff_harmless inv req, fun n => ⟨fun every => ?_, fun fits data length => ?_⟩⟩
  · exact fits_of_harmless fun data length =>
      (writesInside_iff_harmless inv req data .full).mp (every data length)
  · rw [writesInside_iff_harmless inv]
    exact harmless_of_fits inv (length ▸ fits)

/-- A request for no block that writes one byte, a write to a block whose offset wraps to the
    first, and one that makes a one-byte image two bytes long. -/
theorem write_outside_request :
    (writeBlocks oneByteImage ⟨1, 0, 0, 0⟩ [7] .full).1.image 1 = some [7] ∧
      (writeBlocks oneByteImage ⟨1, wrappingBlock, 1, 0⟩ [7] .full).1.image 1 = some [7] ∧
      (writeBlocks oneByteImage ⟨1, 0, 1, 0⟩ [7, 8] .full).1.image 1 = some [7, 8] ∧
      ¬ WritesInside oneByteImage ⟨1, 0, 0, 0⟩ [7] .full ∧
      ¬ WritesInside oneByteImage ⟨1, wrappingBlock, 1, 0⟩ [7] .full ∧
      ¬ WritesInside oneByteImage ⟨1, 0, 1, 0⟩ [7, 8] .full := by
  have created : oneByteImage.images.lookup 1 = some ⟨1, [], imagePath [] 1, 1, 0⟩ := rfl
  have before : oneByteImage.image 1 = some [0] := by decide +kernel
  have extra : (writeBlocks oneByteImage ⟨1, 0, 0, 0⟩ [7] .full).1.image 1 = some [7] := by
    decide +kernel
  have aliased : (writeBlocks oneByteImage ⟨1, wrappingBlock, 1, 0⟩ [7] .full).1.image 1 =
      some [7] := by
    decide +kernel
  have longer : (writeBlocks oneByteImage ⟨1, 0, 1, 0⟩ [7, 8] .full).1.image 1 = some [7, 8] := by
    decide +kernel
  refine ⟨extra, aliased, longer, fun inside => ?_, fun inside => ?_, fun inside => ?_⟩
  · obtain ⟨after, result, frame, _⟩ := inside 1 _ [0] created before
    cases extra.symm.trans result
    exact absurd (frame 0 (by decide)) (by decide)
  · obtain ⟨after, result, frame, _⟩ := inside 1 _ [0] created before
    cases aliased.symm.trans result
    exact absurd (frame 0 (by decide)) (by decide)
  · obtain ⟨after, result, _, total⟩ := inside 1 _ [0] created before
    cases longer.symm.trans result
    exact absurd (total rfl (by decide)) (by decide)

end BlockAccess
