import HyperDisk.Common.Crc32c
import HyperDisk.Foundations.PackedFields

/- The network frames of hd_frame_codec: a packed 40-byte header and a payload. The buffers
   are the memory the caller owns; `none` is an access outside one of them. Lengths are
   uint32_t and their sums wrap. -/
namespace FrameCodec
open LittleEndian PackedFields

def frameMagic : UInt32 := 0x48444B47
def frameVersion : UInt16 := 1
def frameHdrSize : UInt32 := 40

structure FrameHeader where
  magic : UInt32
  version : UInt16
  opcode : UInt8
  flags : UInt8
  requestId : UInt32
  payloadLen : UInt32
  imageId : UInt64
  blockOffset : UInt64
  blockCount : UInt32
  layerId : UInt8
  reserved : UInt8 × UInt8 × UInt8
  deriving DecidableEq, Repr

def headerLayout : Packed FrameHeader :=
  struct (pair u32 <| pair u16 <| pair u8 <| pair u8 <| pair u32 <| pair u32 <| pair u64 <|
      pair u64 <| pair u32 <| pair u8 <| pair u8 <| pair u8 u8)
    { toFun := fun (magic, version, opcode, flags, requestId, payloadLen, imageId, blockOffset,
          blockCount, layerId, reserved) =>
        ⟨magic, version, opcode, flags, requestId, payloadLen, imageId, blockOffset, blockCount,
          layerId, reserved⟩
      invFun := fun h => (h.magic, h.version, h.opcode, h.flags, h.requestId, h.payloadLen,
        h.imageId, h.blockOffset, h.blockCount, h.layerId, h.reserved)
      left_inv := fun _ => rfl
      right_inv := fun _ => rfl }

def computeCrc32C (data : Bytes) (len : UInt32) : UInt32 :=
  Crc32c.loop (Crc32c.tableByte (Crc32c.tableEntry Crc32c.shiftBranch)) (data.take len.toNat)

def computeFrameCrc (h : FrameHeader) : UInt32 := computeCrc32C (headerLayout.encode h) frameHdrSize

/-- FrameCodec::EncodeHeader. Opcode is an enum over uint8_t, so any byte can be one; every
    member of the old header is assigned. -/
def encodeHeader (_ : FrameHeader) (opcode flags : UInt8) (requestId payloadLen : UInt32)
    (imageId blockOffset : UInt64) (blockCount : UInt32) (layerId : UInt8) : FrameHeader :=
  ⟨frameMagic, frameVersion, opcode, flags, requestId, payloadLen, imageId, blockOffset,
    blockCount, layerId, 0, 0, 0⟩

def validateHeader (h : FrameHeader) : Bool :=
  if h.magic ≠ frameMagic then false
  else if h.version ≠ frameVersion then false
  else if h.opcode = 0 then false
  else true

def copyIn (dst : Bytes) (off : Nat) (src : Option Bytes) (len : UInt32) : Option Bytes :=
  match src with
  | none => some dst
  | some src =>
    if 0 < len then do
      let bytes ← slice src 0 len.toNat
      overwrite dst off bytes
    else some dst

structure Encoded where
  ok : Bool
  totalLen : UInt32
  buffer : Bytes
  deriving DecidableEq, Repr

def encodeFrame (buffer : Bytes) (bufSize : UInt32) (hdr : FrameHeader) (payload : Option Bytes)
    (payloadLen : UInt32) : Option Encoded :=
  let totalLen := frameHdrSize + payloadLen
  if bufSize < totalLen then some ⟨false, totalLen, buffer⟩
  else do
    let buffer ← overwrite buffer 0 (headerLayout.encode hdr)
    let buffer ← copyIn buffer frameHdrSize.toNat payload payloadLen
    some ⟨true, totalLen, buffer⟩

structure Decoded where
  ok : Bool
  hdr : FrameHeader
  payload : Option Bytes
  payloadLen : UInt32
  deriving DecidableEq, Repr

def copyOut (src : Bytes) (off : Nat) (dst : Option Bytes) (len : UInt32) : Option (Option Bytes) :=
  match dst with
  | none => some none
  | some dst =>
    if 0 < len then do
      let bytes ← slice src off len.toNat
      let dst ← overwrite dst 0 bytes
      some (some dst)
    else some (some dst)

def decodeFrame (buffer : Bytes) (bufLen : UInt32) (hdr : FrameHeader) (payload : Option Bytes)
    (maxPayloadLen payloadLen : UInt32) : Option Decoded :=
  if bufLen < frameHdrSize then some ⟨false, hdr, payload, payloadLen⟩
  else do
    let header ← slice buffer 0 frameHdrSize.toNat
    let hdr := headerLayout.decode header
    if ¬ validateHeader hdr then some ⟨false, hdr, payload, payloadLen⟩
    else
      let payloadLen := hdr.payloadLen
      if bufLen < frameHdrSize + payloadLen then some ⟨false, hdr, payload, payloadLen⟩
      else if maxPayloadLen < payloadLen then some ⟨false, hdr, payload, payloadLen⟩
      else do
        let payload ← copyOut buffer frameHdrSize.toNat payload payloadLen
        some ⟨true, hdr, payload, payloadLen⟩

theorem header_length (h : FrameHeader) : (headerLayout.encode h).length = 40 :=
  headerLayout.encode_length h

theorem validateHeader_iff (h : FrameHeader) :
    validateHeader h = true ↔ h.magic = frameMagic ∧ h.version = frameVersion ∧ h.opcode ≠ 0 := by
  unfold validateHeader
  split
  · simp_all
  · split
    · simp_all
    · split <;> simp_all

theorem totalLen_of_fits (payloadLen : UInt32) (fits : 40 + payloadLen.toNat < 2 ^ 32) :
    (frameHdrSize + payloadLen).toNat = 40 + payloadLen.toNat := by
  rw [UInt32.toNat_add, show frameHdrSize.toNat = 40 from rfl, Nat.mod_eq_of_lt fits]

theorem toNat_eq_zero {len : UInt32} (empty : ¬ 0 < len) : len.toNat = 0 := by
  rw [UInt32.lt_iff_toNat_lt] at empty
  exact Nat.eq_zero_of_not_pos empty

theorem copyIn_eq {dst src : Bytes} {off : Nat} {len : UInt32} (readable : len.toNat ≤ src.length)
    (writable : off + len.toNat ≤ dst.length) :
    copyIn dst off (some src) len =
      some (dst.take off ++ src.take len.toNat ++ dst.drop (off + len.toNat)) := by
  have size : (src.take len.toNat).length = len.toNat := List.length_take_of_le readable
  by_cases positive : 0 < len
  · simp only [copyIn, positive, if_true, slice_eq_some (show 0 + len.toNat ≤ src.length by omega),
      List.drop_zero, Option.bind_eq_bind, Option.bind_some]
    rw [overwrite_eq_some (by omega), size]
  · simp [copyIn, positive, toNat_eq_zero positive]

theorem encodeFrame_refused {bufSize len : UInt32}
    (short : bufSize.toNat < (frameHdrSize + len).toNat) (buffer : Bytes) (hdr : FrameHeader)
    (payload : Option Bytes) :
    encodeFrame buffer bufSize hdr payload len = some ⟨false, frameHdrSize + len, buffer⟩ :=
  if_pos (UInt32.lt_iff_toNat_lt.mpr short)

theorem encodeFrame_passed {bufSize len : UInt32}
    (enough : (frameHdrSize + len).toNat ≤ bufSize.toNat) (buffer : Bytes) (hdr : FrameHeader)
    (payload : Option Bytes) :
    encodeFrame buffer bufSize hdr payload len =
      ((overwrite buffer 0 (headerLayout.encode hdr)).bind fun started =>
        copyIn started 40 payload len).map fun written => ⟨true, frameHdrSize + len, written⟩ := by
  have guarded : ¬ bufSize < frameHdrSize + len := by
    rw [UInt32.lt_iff_toNat_lt]
    omega
  simp only [encodeFrame, guarded, if_false, Option.map_bind, Option.bind_eq_bind]
  congr 1
  funext started
  exact (Option.map_eq_bind ..).symm

theorem header_payload_written {buffer header payload : Bytes} {size : Nat} {len : UInt32}
    (length : header.length = size) (room : size + len.toNat ≤ buffer.length)
    (readable : len.toNat ≤ payload.length) :
    ((overwrite buffer 0 header).bind fun started => copyIn started size (some payload) len) =
      some (header ++ payload.take len.toNat ++ buffer.drop (size + len.toNat)) := by
  have start : overwrite buffer 0 header = some (header ++ buffer.drop size) := by
    rw [overwrite_eq_some (by omega), length, Nat.zero_add]
    rfl
  rw [start, Option.bind_some, copyIn_eq readable (by
    simp only [List.length_append, List.length_drop]
    omega), List.take_left' length, List.drop_append, length, List.drop_drop,
    List.drop_eq_nil_of_le (by omega), Nat.add_sub_cancel_left]
  rfl

theorem copyOut_eq {src dst : Bytes} {off : Nat} {len : UInt32}
    (readable : off + len.toNat ≤ src.length) (writable : len.toNat ≤ dst.length) :
    copyOut src off (some dst) len =
      some (some ((src.drop off).take len.toNat ++ dst.drop len.toNat)) := by
  have size : ((src.drop off).take len.toNat).length = len.toNat := by
    rw [List.length_take, List.length_drop]
    omega
  by_cases positive : 0 < len
  · simp only [copyOut, positive, if_true, slice_eq_some readable, Option.bind_eq_bind,
      Option.bind_some]
    rw [overwrite_eq_some (by omega), size]
    simp
  · simp [copyOut, positive, toNat_eq_zero positive]

/-- What DecodeFrame asks of a buffer; the sum of the lengths is the wrapped one. -/
def Passes (buffer : Bytes) (bufLen maxLen : UInt32) : Prop :=
  40 ≤ bufLen.toNat ∧ validateHeader (headerLayout.decode (buffer.take 40)) = true ∧
    (frameHdrSize + (headerLayout.decode (buffer.take 40)).payloadLen).toNat ≤ bufLen.toNat ∧
    (headerLayout.decode (buffer.take 40)).payloadLen ≤ maxLen

theorem decodeFrame_refused {buffer : Bytes} {bufLen maxLen : UInt32}
    (owned : bufLen.toNat ≤ buffer.length) (refused : ¬ Passes buffer bufLen maxLen)
    (hdr : FrameHeader) (dst : Option Bytes) (len : UInt32) :
    ∃ r, decodeFrame buffer bufLen hdr dst maxLen len = some r ∧ r.ok = false ∧
      r.payload = dst := by
  unfold decodeFrame
  split
  · exact ⟨_, rfl, rfl, rfl⟩
  · rename_i long
    have size : 40 ≤ bufLen.toNat := UInt32.le_iff_toNat_le.mp (UInt32.not_lt.mp long)
    have header : slice buffer 0 frameHdrSize.toNat = some (buffer.take 40) :=
      slice_eq_some (show 0 + 40 ≤ buffer.length by omega)
    simp only [header, Option.bind_eq_bind, Option.bind_some]
    split
    · exact ⟨_, rfl, rfl, rfl⟩
    · rename_i valid
      split
      · exact ⟨_, rfl, rfl, rfl⟩
      · rename_i whole
        split
        · exact ⟨_, rfl, rfl, rfl⟩
        · rename_i allowed
          rw [UInt32.not_lt, UInt32.le_iff_toNat_le] at whole
          exact absurd ⟨size, by simpa using valid, whole, UInt32.not_lt.mp allowed⟩ refused

theorem decodeFrame_passed {buffer : Bytes} {bufLen maxLen : UInt32}
    (owned : bufLen.toNat ≤ buffer.length) (passes : Passes buffer bufLen maxLen)
    (hdr : FrameHeader) (dst : Option Bytes) (len : UInt32) :
    decodeFrame buffer bufLen hdr dst maxLen len =
      (copyOut buffer 40 dst (headerLayout.decode (buffer.take 40)).payloadLen).map fun payload =>
        ⟨true, headerLayout.decode (buffer.take 40), payload,
          (headerLayout.decode (buffer.take 40)).payloadLen⟩ := by
  obtain ⟨size, valid, whole, allowed⟩ := passes
  have long : ¬ bufLen < frameHdrSize := by
    rw [UInt32.lt_iff_toNat_lt, show frameHdrSize.toNat = 40 from rfl]
    omega
  have enough : ¬ bufLen < frameHdrSize + (headerLayout.decode (buffer.take 40)).payloadLen := by
    rw [UInt32.lt_iff_toNat_lt]
    omega
  have header : slice buffer 0 frameHdrSize.toNat = some (buffer.take 40) :=
    slice_eq_some (show 0 + 40 ≤ buffer.length by omega)
  simp only [decodeFrame, long, if_false, header, Option.bind_eq_bind, Option.bind_some, valid,
    not_true_eq_false, enough, UInt32.not_lt.mpr allowed]
  exact (Option.map_eq_bind ..).symm

theorem decodeFrame_accepted {buffer : Bytes} {bufLen maxLen len : UInt32} {hdr : FrameHeader}
    {dst : Option Bytes} {r : Decoded} (owned : bufLen.toNat ≤ buffer.length)
    (result : decodeFrame buffer bufLen hdr dst maxLen len = some r) (ok : r.ok = true) :
    Passes buffer bufLen maxLen ∧ r.hdr = headerLayout.decode (buffer.take 40) ∧
      r.payloadLen = (headerLayout.decode (buffer.take 40)).payloadLen := by
  by_cases passes : Passes buffer bufLen maxLen
  · rw [decodeFrame_passed owned passes] at result
    obtain ⟨payload, _, same⟩ := Option.map_eq_some_iff.mp result
    rw [← same]
    exact ⟨passes, rfl, rfl⟩
  · obtain ⟨r', refused, no, _⟩ := decodeFrame_refused owned passes hdr dst len
    rw [refused, Option.some_inj] at result
    rw [result, ok] at no
    cases no

end FrameCodec
