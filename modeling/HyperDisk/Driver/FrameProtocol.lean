import HyperDisk.Driver.NetFrame
import HyperDisk.Common.FrameRoundTrip

/- The kernel driver's frames against themselves and against the frames of the user-mode codec,
   which serve the same port. -/
namespace FrameProtocol
open LittleEndian PackedFields FrameCodec NetFrame

/-- The payload HdNetDeserializeFrame delivers is cut at the end of the frame, and its length is
    left alone when the frame states no payload. -/
theorem deliver_eq {frame dst : Bytes} {frameLen : UInt32} (owned : frameLen.toNat = frame.length)
    (long : 32 ≤ frame.length) (stated : UInt32) (header : HdNetFrameHeader) (dstLen : UInt32)
    (writable : min stated.toNat (frame.length - 32) ≤ dst.length) :
    deliver frame frameLen stated header (some dst) (some dstLen) =
      some ⟨.success, some header, some ((frame.drop 32).take stated.toNat ++
          dst.drop (min stated.toNat (frame.length - 32))),
        some (if 0 < stated then UInt32.ofNat (min stated.toNat (frame.length - 32))
          else dstLen)⟩ := by
  have rest : (frameLen - hdNetFrameHdrSize).toNat = frame.length - 32 := by
    rw [UInt32.toNat_sub_of_le _ _ (UInt32.le_iff_toNat_le.mpr (owned ▸ long)), owned]
    rfl
  generalize cut : (if frameLen - hdNetFrameHdrSize < stated then frameLen - hdNetFrameHdrSize
    else stated) = copyLen
  have copied : copyLen.toNat = min stated.toNat (frame.length - 32) := by
    rw [← cut]
    split
    · rename_i short
      rw [UInt32.lt_iff_toNat_lt, rest] at short
      omega
    · rename_i whole
      rw [UInt32.lt_iff_toNat_lt, rest] at whole
      omega
  by_cases positive : 0 < stated
  · have size : ((frame.drop 32).take copyLen.toNat).length = copyLen.toNat := by
      rw [List.length_take, List.length_drop]
      omega
    have same : (frame.drop 32).take copyLen.toNat = (frame.drop 32).take stated.toNat := by
      rw [List.take_eq_take_iff, List.length_drop]
      omega
    simp only [deliver, positive, if_true, cut, Option.bind_eq_bind]
    rw [show hdNetFrameHdrSize.toNat = 32 from rfl, slice_eq_some (by omega), Option.bind_some,
      overwrite_eq_some (by omega), size, copied, ← same, ← copied, UInt32.ofNat_toNat]
    simp
  · have none := toNat_eq_zero positive
    simp [deliver, positive, none]

def RoundTrips (h : HdNetFrameHeader) (payload out : Bytes) (outLen : UInt32)
    (old : HdNetFrameHeader) (dst : Bytes) (dstLen : UInt32) : Prop :=
  ∃ frame len delivered,
    hdNetSerializeFrame (some h) (some payload) (some out) (some outLen) =
      some ⟨.success, some frame, some len⟩ ∧
    hdNetDeserializeFrame (some (frame.take len.toNat)) len (some old) (some dst) (some dstLen) =
      some ⟨.success, some h, some delivered, some h.payloadLen⟩ ∧
    delivered.take h.payloadLen.toNat = payload

theorem sent_is_kernelFrame {h : HdNetFrameHeader} (magic : h.magic = hdMagic)
    (version : h.version = hdVersion) (payload : Bytes) :
    KernelFrame ((netHeaderLayout.encode h).take 32 ++ payload) := by
  have long : 32 ≤ ((netHeaderLayout.encode h).take 32 ++ payload).length := by
    rw [List.length_append, List.length_take_of_le (by rw [net_header_length]; decide)]
    omega
  obtain ⟨first, second, _⟩ := received_checked long h
  rw [received_sent] at first second
  exact ⟨long, first.symm.trans magic, second.symm.trans version⟩

theorem deserialize_sent {h : HdNetFrameHeader} {payload dst : Bytes} {len : UInt32}
    (magic : h.magic = hdMagic) (version : h.version = hdVersion)
    (size : payload.length = h.payloadLen.toNat) (total : len.toNat = 32 + h.payloadLen.toNat)
    (room : h.payloadLen.toNat ≤ dst.length) (old : HdNetFrameHeader) (dstLen : UInt32) :
    hdNetDeserializeFrame (some ((netHeaderLayout.encode h).take 32 ++ payload)) len (some old)
        (some dst) (some dstLen) =
      some ⟨.success, some (withTail h old), some (payload ++ dst.drop h.payloadLen.toNat),
        some (if 0 < h.payloadLen then h.payloadLen else dstLen)⟩ := by
  have copied : ((netHeaderLayout.encode h).take 32).length = 32 :=
    List.length_take_of_le (by rw [net_header_length]; decide)
  have owned : len.toNat = ((netHeaderLayout.encode h).take 32 ++ payload).length := by
    rw [List.length_append]
    omega
  have whole : min (withTail h old).payloadLen.toNat
      (((netHeaderLayout.encode h).take 32 ++ payload).length - 32) = h.payloadLen.toNat := by
    rw [show (withTail h old).payloadLen = h.payloadLen from rfl]
    omega
  rw [deserialize_accepts owned (sent_is_kernelFrame magic version payload), received_sent,
    deliver_eq owned (by omega) _ _ _ (by omega), whole, List.drop_left' copied,
    show (withTail h old).payloadLen = h.payloadLen from rfl, List.take_of_length_le (by omega),
    UInt32.ofNat_toNat]

/-- A kernel frame comes back whole exactly when the caller's header already holds the members
    behind byte 32 and, for an empty payload, the caller's length is already zero. -/
theorem net_frame_round_trip_iff (h : HdNetFrameHeader) (payload out : Bytes) (outLen : UInt32)
    (old : HdNetFrameHeader) (dst : Bytes) (dstLen : UInt32)
    (magic : h.magic = hdMagic) (version : h.version = hdVersion)
    (size : payload.length = h.payloadLen.toNat) (small : 32 + h.payloadLen.toNat < 2 ^ 32)
    (room : 32 + h.payloadLen.toNat ≤ out.length) (writable : h.payloadLen.toNat ≤ dst.length) :
    RoundTrips h payload out outLen old dst dstLen ↔
      (old.blockCount = h.blockCount ∧ old.layerId = h.layerId ∧ old.reserved = h.reserved) ∧
        (h.payloadLen = 0 → dstLen = 0) := by
  have total : (hdNetFrameHdrSize + h.payloadLen).toNat = 32 + h.payloadLen.toNat := by
    rw [UInt32.toNat_add, show hdNetFrameHdrSize.toNat = 32 from rfl, Nat.mod_eq_of_lt small]
  have sent := serialize_eq outLen size room
  have cut : ((netHeaderLayout.encode h).take 32 ++ payload ++
      out.drop (32 + h.payloadLen.toNat)).take (32 + h.payloadLen.toNat) =
      (netHeaderLayout.encode h).take 32 ++ payload := by
    apply List.take_left'
    rw [List.length_append, List.length_take_of_le (by rw [net_header_length]; decide), size]
  have back := deserialize_sent magic version size total writable old dstLen
  have stated : (if 0 < h.payloadLen then h.payloadLen else dstLen) = h.payloadLen ↔
      (h.payloadLen = 0 → dstLen = 0) := by
    by_cases empty : h.payloadLen = 0
    · simp [empty]
    · simp [empty, UInt32.pos_iff_ne_zero]
  constructor
  · rintro ⟨frame, len, delivered, serialized, deserialized, _⟩
    rw [sent] at serialized
    cases serialized
    rw [total, cut, back] at deserialized
    simp only [Option.some.injEq, Deserialized.mk.injEq, true_and] at deserialized
    exact ⟨(withTail_eq_iff h old).mp deserialized.1, stated.mp deserialized.2.2⟩
  · rintro ⟨tail, len⟩
    refine ⟨_, _, payload ++ dst.drop h.payloadLen.toNat, sent, ?_, List.take_left' size⟩
    rw [total, cut, back, (withTail_eq_iff h old).mpr tail, stated.mpr len]

def readRequest : HdNetFrameHeader := ⟨hdMagic, hdVersion, 1, 0, 7, 2, 5, 4096, 8, 3, 0, 0, 0⟩

def blankHeader : HdNetFrameHeader := ⟨0, 0, 0, 0, 0, 0, 0, 0, 0, 0, 0, 0, 0⟩

theorem readRequest_round_trip :
    RoundTrips readRequest [8, 9] (List.replicate 64 0) 0 readRequest [0, 0, 0] 0 :=
  (net_frame_round_trip_iff readRequest [8, 9] (List.replicate 64 0) 0 readRequest
    [0, 0, 0] 0 rfl rfl rfl (by decide) (by decide) (by decide)).mpr ⟨⟨rfl, rfl, rfl⟩, by decide⟩

theorem readRequest_loses_blockCount :
    ¬ RoundTrips readRequest [8, 9] (List.replicate 34 0) 0 blankHeader [0, 0] 0 := by
  rintro ⟨frame, len, delivered, serialized, deserialized, _⟩
  have sent : hdNetSerializeFrame (some readRequest) (some [8, 9]) (some (List.replicate 34 0))
      (some 0) = some ⟨.success, some ((netHeaderLayout.encode readRequest).take 32 ++ [8, 9]),
        some 34⟩ := by decide +kernel
  have back : hdNetDeserializeFrame
      (some (((netHeaderLayout.encode readRequest).take 32 ++ [8, 9]).take 34)) 34
      (some blankHeader) (some [0, 0]) (some 0) =
      some ⟨.success, some { readRequest with blockCount := 0, layerId := 0 }, some [8, 9],
        some 2⟩ := by decide +kernel
  rw [sent] at serialized
  cases serialized
  have lost := back.symm.trans deserialized
  simp [readRequest] at lost

theorem decode_rejects {buffer : Bytes} {bufLen maxLen : UInt32}
    (owned : bufLen.toNat = buffer.length) (refused : ¬ Passes buffer bufLen maxLen)
    (hdr : FrameHeader) (dst : Option Bytes) (len : UInt32) :
    ∃ u, decodeFrame buffer bufLen hdr dst maxLen len = some u ∧ u.ok = false := by
  obtain ⟨r, result, no, _⟩ := decodeFrame_refused owned.le refused hdr dst len
  exact ⟨r, result, no⟩

theorem decode_accepts {buffer : Bytes} {bufLen maxLen len : UInt32} {hdr : FrameHeader}
    {dst : Option Bytes} {u : Decoded} (owned : bufLen.toNat = buffer.length)
    (accepted : Passes buffer bufLen maxLen)
    (result : decodeFrame buffer bufLen hdr dst maxLen len = some u) : u.ok = true := by
  rw [decodeFrame_passed owned.le accepted] at result
  obtain ⟨payload, _, same⟩ := Option.map_eq_some_iff.mp result
  rw [← same]

theorem magics_differ {buffer : Bytes} {bufLen maxLen : UInt32} (kernel : KernelFrame buffer)
    (user : Passes buffer bufLen maxLen) : False := by
  have magic := ((validateHeader_iff _).mp user.2.1).1
  have first : (headerLayout.decode (buffer.take 40)).magic = u32.decode (buffer.take 4) := by
    show u32.decode ((buffer.take 40).take 4) = _
    rw [List.take_take]
    rfl
  rw [first, kernel.2.1] at magic
  exact absurd magic (by decide)

def SameFrame (k : Deserialized) (u : Decoded) : Prop :=
  ∃ h kernelPayload userPayload,
    k.header = some h ∧ k.payload = some kernelPayload ∧ u.payload = some userPayload ∧
    h.magic = u.hdr.magic ∧ h.version = u.hdr.version ∧ h.frameType = u.hdr.opcode ∧
    h.flags = u.hdr.flags ∧ h.frameId = u.hdr.requestId ∧ h.payloadLen = u.hdr.payloadLen ∧
    h.imageId = u.hdr.imageId ∧ h.blockOffset = u.hdr.blockOffset ∧
    h.blockCount = u.hdr.blockCount ∧ h.layerId = u.hdr.layerId ∧
    k.payloadLen = some u.payloadLen ∧
    kernelPayload.take u.payloadLen.toNat = userPayload.take u.payloadLen.toNat

def Agree (buffer : Bytes) (len : UInt32) (old : HdNetFrameHeader) (kernelDst : Bytes)
    (kernelLen : UInt32) (hdr : FrameHeader) (userDst : Bytes) (maxLen userLen : UInt32) : Prop :=
  ∃ k u,
    hdNetDeserializeFrame (some buffer) len (some old) (some kernelDst) (some kernelLen) = some k ∧
    decodeFrame buffer len hdr (some userDst) maxLen userLen = some u ∧
    (k.status = .success ↔ u.ok = true) ∧ (k.status = .success → u.ok = true → SameFrame k u)

/-- No buffer is a frame of both protocols, so the decoders agree only on what neither accepts. -/
theorem decoders_agree_iff (buffer : Bytes) (len : UInt32) (old : HdNetFrameHeader)
    (kernelDst : Bytes) (kernelLen : UInt32) (hdr : FrameHeader) (userDst : Bytes)
    (maxLen userLen : UInt32) (size : len.toNat = buffer.length)
    (kernelRoom : buffer.length ≤ kernelDst.length) :
    Agree buffer len old kernelDst kernelLen hdr userDst maxLen userLen ↔
      ¬ KernelFrame buffer ∧ ¬ Passes buffer len maxLen := by
  constructor
  · rintro ⟨k, u, kernel, user, same, _⟩
    constructor
    · intro accepted
      rw [deserialize_accepts size accepted, deliver_eq size accepted.1 _ _ _ (by omega)] at kernel
      cases kernel
      have ok : u.ok = true := same.mp rfl
      by_cases both : Passes buffer len maxLen
      · exact magics_differ accepted both
      · obtain ⟨v, decoded, no⟩ := decode_rejects size both hdr (some userDst) userLen
        rw [user] at decoded
        cases decoded
        rw [ok] at no
        cases no
    · intro accepted
      have success := same.mpr (decode_accepts size accepted user)
      by_cases both : KernelFrame buffer
      · exact magics_differ both accepted
      · obtain ⟨status, no, refused⟩ :=
          deserialize_rejects size both old (some kernelDst) (some kernelLen)
        rw [kernel] at refused
        cases refused
        exact no success
  · rintro ⟨noKernel, noUser⟩
    obtain ⟨status, no, refused⟩ :=
      deserialize_rejects size noKernel old (some kernelDst) (some kernelLen)
    obtain ⟨u, decoded, not_ok⟩ := decode_rejects size noUser hdr (some userDst) userLen
    refine ⟨_, u, refused, decoded, ?_, fun success => absurd success no⟩
    simp [no, not_ok]

def foreignFrame : Bytes := u32.encode 0x4B4E5444 ++ List.replicate 36 1

theorem foreign_frame_agree :
    Agree foreignFrame 40 blankHeader (List.replicate 40 0) 0 FrameRoundTrip.heartbeat
      (List.replicate 40 0) 40 0 := by
  apply (decoders_agree_iff foreignFrame 40 blankHeader (List.replicate 40 0) 0
    FrameRoundTrip.heartbeat (List.replicate 40 0) 40 0 rfl (by decide)).mpr
  constructor
  · decide +kernel
  · intro user
    exact absurd user.2.1 (by decide +kernel)

def cutRequest : Bytes := (netHeaderLayout.encode readRequest).take 32 ++ [8]

def heartbeatFrame : Bytes := headerLayout.encode FrameRoundTrip.heartbeat ++ [8, 9]

/-- The cut kernel frame is accepted by the kernel only, the codec's frame by the codec only. -/
theorem decoders_disagree :
    ¬ Agree cutRequest 33 blankHeader (List.replicate 33 0) 0 FrameRoundTrip.heartbeat
        (List.replicate 33 0) 33 0 ∧
      ¬ Agree heartbeatFrame 42 blankHeader (List.replicate 42 0) 0 FrameRoundTrip.heartbeat
        (List.replicate 42 0) 42 0 := by
  constructor
  · rintro ⟨k, u, kernel, user, same, _⟩
    have accepted : (hdNetDeserializeFrame (some cutRequest) 33 (some blankHeader)
        (some (List.replicate 33 0)) (some 0)).map Deserialized.status = some .success := by
      decide +kernel
    have refused : (decodeFrame cutRequest 33 FrameRoundTrip.heartbeat
        (some (List.replicate 33 0)) 33 0).map Decoded.ok = some false := by decide +kernel
    rw [kernel, Option.map_some, Option.some_inj] at accepted
    rw [user, Option.map_some, Option.some_inj, same.mp accepted] at refused
    cases refused
  · rintro ⟨k, u, kernel, user, same, _⟩
    have refused : (hdNetDeserializeFrame (some heartbeatFrame) 42 (some blankHeader)
        (some (List.replicate 42 0)) (some 0)).map Deserialized.status =
        some .dataNotAccepted := by decide +kernel
    have accepted : (decodeFrame heartbeatFrame 42 FrameRoundTrip.heartbeat
        (some (List.replicate 42 0)) 42 0).map Decoded.ok = some true := by decide +kernel
    rw [user, Option.map_some, Option.some_inj] at accepted
    rw [kernel, Option.map_some, Option.some_inj, same.mpr accepted] at refused
    cases refused

end FrameProtocol
