import HyperDisk.Common.FrameCodec

/- The frames of the kernel driver (net_frame.c). A pointer argument is an option, `none` being
   NULL, and an out parameter is returned with what the call left behind it. A result of `none`
   is a copy outside one of the buffers. ULONG sums wrap. -/
namespace NetFrame
open LittleEndian PackedFields FrameCodec

inductive Status where
  | success
  | invalidParameter
  | dataNotAccepted
  | revisionMismatch
  deriving DecidableEq, Repr

def hdMagic : UInt32 := 0x48444B31
def hdVersion : UInt16 := 1
def hdNetFrameHdrSize : UInt32 := 32

structure HdNetFrameHeader where
  magic : UInt32
  version : UInt16
  frameType : UInt8
  flags : UInt8
  frameId : UInt32
  payloadLen : UInt32
  imageId : UInt64
  blockOffset : UInt64
  blockCount : UInt32
  layerId : UInt8
  reserved : UInt8 × UInt8 × UInt8
  deriving DecidableEq, Repr

/-- Under natural alignment every member starts where the one before it ends: 40 bytes, of which
    HD_NET_FRAME_HDR_SIZE covers the members up to BlockOffset. -/
def netHeaderLayout : Packed HdNetFrameHeader :=
  struct (pair u32 <| pair u16 <| pair u8 <| pair u8 <| pair u32 <| pair u32 <| pair u64 <|
      pair u64 <| pair u32 <| pair u8 <| pair u8 <| pair u8 u8)
    { toFun := fun (magic, version, frameType, flags, frameId, payloadLen, imageId, blockOffset,
          blockCount, layerId, reserved) =>
        ⟨magic, version, frameType, flags, frameId, payloadLen, imageId, blockOffset, blockCount,
          layerId, reserved⟩
      invFun := fun h => (h.magic, h.version, h.frameType, h.flags, h.frameId, h.payloadLen,
        h.imageId, h.blockOffset, h.blockCount, h.layerId, h.reserved)
      left_inv := fun _ => rfl
      right_inv := fun _ => rfl }

structure Serialized where
  status : Status
  outFrame : Option Bytes
  outLen : Option UInt32
  deriving DecidableEq, Repr

def hdNetSerializeFrame (header : Option HdNetFrameHeader) (payload outFrame : Option Bytes)
    (outLen : Option UInt32) : Option Serialized :=
  match header, outFrame, outLen with
  | some header, some out, some _ => do
    let totalLen := hdNetFrameHdrSize + header.payloadLen
    let copied ← slice (netHeaderLayout.encode header) 0 hdNetFrameHdrSize.toNat
    let out ← overwrite out 0 copied
    let out ← copyIn out hdNetFrameHdrSize.toNat payload header.payloadLen
    some ⟨.success, some out, some totalLen⟩
  | _, _, _ => some ⟨.invalidParameter, outFrame, outLen⟩

structure Deserialized where
  status : Status
  header : Option HdNetFrameHeader
  payload : Option Bytes
  payloadLen : Option UInt32
  deriving DecidableEq, Repr

def deliver (frame : Bytes) (frameLen stated : UInt32) (header : HdNetFrameHeader)
    (payload : Option Bytes) (payloadLen : Option UInt32) : Option Deserialized :=
  match payload, payloadLen with
  | some dst, some _ =>
    if 0 < stated then do
      let copyLen := if frameLen - hdNetFrameHdrSize < stated then frameLen - hdNetFrameHdrSize
        else stated
      let bytes ← slice frame hdNetFrameHdrSize.toNat copyLen.toNat
      let dst ← overwrite dst 0 bytes
      some ⟨.success, some header, some dst, some copyLen⟩
    else some ⟨.success, some header, payload, payloadLen⟩
  | _, _ => some ⟨.success, some header, payload, payloadLen⟩

def hdNetDeserializeFrame (frame : Option Bytes) (frameLen : UInt32)
    (header : Option HdNetFrameHeader) (payload : Option Bytes) (payloadLen : Option UInt32) :
    Option Deserialized :=
  match frame, header with
  | some frame, some old =>
    if frameLen < hdNetFrameHdrSize then some ⟨.invalidParameter, header, payload, payloadLen⟩
    else do
      let magic ← slice frame 0 4
      if u32.decode magic ≠ hdMagic then some ⟨.dataNotAccepted, header, payload, payloadLen⟩
      else do
        let version ← slice frame 4 2
        if u16.decode version ≠ hdVersion then
          some ⟨.revisionMismatch, header, payload, payloadLen⟩
        else do
          let copied ← slice frame 0 hdNetFrameHdrSize.toNat
          let bytes ← overwrite (netHeaderLayout.encode old) 0 copied
          let stated ← slice frame 12 4
          deliver frame frameLen (u32.decode stated) (netHeaderLayout.decode bytes) payload
            payloadLen
  | _, _ => some ⟨.invalidParameter, header, payload, payloadLen⟩

theorem net_header_length (h : HdNetFrameHeader) : (netHeaderLayout.encode h).length = 40 :=
  netHeaderLayout.encode_length h

def withTail (h tail : HdNetFrameHeader) : HdNetFrameHeader :=
  { h with blockCount := tail.blockCount, layerId := tail.layerId, reserved := tail.reserved }

theorem withTail_eq_iff (h tail : HdNetFrameHeader) : withTail h tail = h ↔
    tail.blockCount = h.blockCount ∧ tail.layerId = h.layerId ∧ tail.reserved = h.reserved := by
  cases h
  simp [withTail]

theorem copied_header (h tail : HdNetFrameHeader) :
    (netHeaderLayout.encode h).take 32 ++ (netHeaderLayout.encode tail).drop 32 =
      netHeaderLayout.encode (withTail h tail) := by
  have split : ∀ x : HdNetFrameHeader, netHeaderLayout.encode x =
      (u32.encode x.magic ++ (u16.encode x.version ++
        (u8.encode x.frameType ++ (u8.encode x.flags ++
        (u32.encode x.frameId ++ (u32.encode x.payloadLen ++ (u64.encode x.imageId ++
          u64.encode x.blockOffset))))))) ++
      (u32.encode x.blockCount ++ (u8.encode x.layerId ++ (u8.encode x.reserved.1 ++
        (u8.encode x.reserved.2.1 ++ u8.encode x.reserved.2.2)))) := by
    intro x
    simp only [List.append_assoc]
    rfl
  rw [split h, split tail, split (withTail h tail),
    List.take_left' (by simp [u8, u16, u32, u64, word]),
    List.drop_left' (by simp [u8, u16, u32, u64, word])]
  rfl

/-- The header HdNetDeserializeFrame leaves behind when the old one was `old`. -/
def received (frame : Bytes) (old : HdNetFrameHeader) : HdNetFrameHeader :=
  netHeaderLayout.decode (frame.take 32 ++ (netHeaderLayout.encode old).drop 32)

theorem received_sent (h old : HdNetFrameHeader) (rest : Bytes) :
    received ((netHeaderLayout.encode h).take 32 ++ rest) old = withTail h old := by
  have size : ((netHeaderLayout.encode h).take 32).length = 32 :=
    List.length_take_of_le (by rw [net_header_length]; decide)
  rw [received, List.take_left' size, copied_header, netHeaderLayout.decode_encode]

theorem received_checked {frame : Bytes} (long : 32 ≤ frame.length) (old : HdNetFrameHeader) :
    (received frame old).magic = u32.decode (frame.take 4) ∧
    (received frame old).version = u16.decode ((frame.drop 4).take 2) ∧
    (received frame old).payloadLen = u32.decode ((frame.drop 12).take 4) := by
  have within : ∀ off width, off + width ≤ 32 →
      ((frame.take 32 ++ (netHeaderLayout.encode old).drop 32).drop off).take width =
        (frame.drop off).take width := by
    intro off width inside
    have size : (frame.take 32).length = 32 := List.length_take_of_le long
    rw [List.drop_append_of_le_length (by omega), List.take_append_of_le_length
      (by rw [List.length_drop]; omega), List.drop_take, List.take_take, Nat.min_eq_left (by omega)]
  refine ⟨?_, ?_, ?_⟩
  · exact congrArg u32.decode (within 0 4 (by decide))
  · exact congrArg u16.decode (within 4 2 (by decide))
  · rw [← within 12 4 (by decide), show 12 = 4 + 2 + 1 + 1 + 4 from rfl, ← List.drop_drop,
      ← List.drop_drop, ← List.drop_drop, ← List.drop_drop]
    rfl

def KernelFrame (frame : Bytes) : Prop :=
  32 ≤ frame.length ∧ u32.decode (frame.take 4) = hdMagic ∧
    u16.decode ((frame.drop 4).take 2) = hdVersion

instance (frame : Bytes) : Decidable (KernelFrame frame) :=
  inferInstanceAs (Decidable (_ ∧ _ ∧ _))

theorem deserialize_accepts {frame : Bytes} {frameLen : UInt32}
    (owned : frameLen.toNat = frame.length) (accepted : KernelFrame frame) (old : HdNetFrameHeader)
    (payload : Option Bytes) (payloadLen : Option UInt32) :
    hdNetDeserializeFrame (some frame) frameLen (some old) payload payloadLen =
      deliver frame frameLen (received frame old).payloadLen (received frame old) payload
        payloadLen := by
  obtain ⟨long, magic, version⟩ := accepted
  have enough : ¬ frameLen < hdNetFrameHdrSize := by
    rw [UInt32.lt_iff_toNat_lt, show hdNetFrameHdrSize.toNat = 32 from rfl]
    omega
  have copied : (frame.take 32).length = 32 := List.length_take_of_le long
  have header : overwrite (netHeaderLayout.encode old) 0 (frame.take 32) =
      some (frame.take 32 ++ (netHeaderLayout.encode old).drop 32) := by
    rw [overwrite_eq_some (by rw [net_header_length]; omega), copied]
    rfl
  simp only [hdNetDeserializeFrame, enough, if_false, Option.bind_eq_bind,
    slice_eq_some (show 0 + 4 ≤ frame.length by omega), Option.bind_some, List.drop_zero, magic,
    slice_eq_some (show 4 + 2 ≤ frame.length by omega), version, ne_eq, not_true_eq_false]
  rw [show hdNetFrameHdrSize.toNat = 32 from rfl,
    slice_eq_some (show 0 + 32 ≤ frame.length by omega),
    slice_eq_some (show 12 + 4 ≤ frame.length by omega), List.drop_zero]
  simp only [Option.bind_some, header]
  rw [(received_checked long old).2.2]
  rfl

theorem deserialize_rejects {frame : Bytes} {frameLen : UInt32}
    (owned : frameLen.toNat = frame.length) (refused : ¬ KernelFrame frame) (old : HdNetFrameHeader)
    (payload : Option Bytes) (payloadLen : Option UInt32) :
    ∃ status, status ≠ .success ∧
      hdNetDeserializeFrame (some frame) frameLen (some old) payload payloadLen =
        some ⟨status, some old, payload, payloadLen⟩ := by
  by_cases short : frameLen < hdNetFrameHdrSize
  · exact ⟨.invalidParameter, by decide, by simp only [hdNetDeserializeFrame, short, if_true]⟩
  have long : 32 ≤ frame.length := by
    rw [← owned]
    exact UInt32.le_iff_toNat_le.mp (UInt32.not_lt.mp short)
  have first : slice frame 0 4 = some (frame.take 4) := slice_eq_some (by omega)
  have second : slice frame 4 2 = some ((frame.drop 4).take 2) := slice_eq_some (by omega)
  by_cases magic : u32.decode (frame.take 4) = hdMagic
  · have version : u16.decode ((frame.drop 4).take 2) ≠ hdVersion := fun v =>
      refused ⟨long, magic, v⟩
    refine ⟨.revisionMismatch, by decide, ?_⟩
    simp only [hdNetDeserializeFrame, short, if_false, first, second, Option.bind_eq_bind,
      Option.bind_some, magic, version, ne_eq, not_true_eq_false, not_false_eq_true, if_true]
  · refine ⟨.dataNotAccepted, by decide, ?_⟩
    simp only [hdNetDeserializeFrame, short, if_false, first, Option.bind_eq_bind,
      Option.bind_some, magic, ne_eq, not_false_eq_true, if_true]

theorem serialize_eq {h : HdNetFrameHeader} {payload out : Bytes} (outLen : UInt32)
    (size : payload.length = h.payloadLen.toNat) (room : 32 + h.payloadLen.toNat ≤ out.length) :
    hdNetSerializeFrame (some h) (some payload) (some out) (some outLen) =
      some ⟨.success, some ((netHeaderLayout.encode h).take 32 ++ payload ++
        out.drop (32 + h.payloadLen.toNat)), some (hdNetFrameHdrSize + h.payloadLen)⟩ := by
  have length := net_header_length h
  have copied : ((netHeaderLayout.encode h).take 32).length = 32 :=
    List.length_take_of_le (by omega)
  have header : slice (netHeaderLayout.encode h) 0 hdNetFrameHdrSize.toNat =
      some ((netHeaderLayout.encode h).take 32) :=
    slice_eq_some (show 0 + 32 ≤ _ by omega)
  have written := header_payload_written copied room (Nat.le_of_eq size.symm)
  obtain ⟨started, start, body⟩ := Option.bind_eq_some_iff.mp written
  rw [List.take_of_length_le (show payload.length ≤ _ by omega)] at body
  simp only [hdNetSerializeFrame, header, start, Option.bind_eq_bind, Option.bind_some]
  rw [show hdNetFrameHdrSize.toNat = 32 from rfl, body]
  rfl

end NetFrame
