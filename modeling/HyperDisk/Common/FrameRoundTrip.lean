import HyperDisk.Common.FrameCodec

/- EncodeFrame and DecodeFrame against each other, in both directions. -/
namespace FrameRoundTrip
open LittleEndian PackedFields FrameCodec

theorem encodeFrame_eq {buffer payload : Bytes} {bufSize len : UInt32} (hdr : FrameHeader)
    (owned : bufSize.toNat ≤ buffer.length) (room : 40 + len.toNat ≤ bufSize.toNat)
    (readable : len.toNat ≤ payload.length) :
    encodeFrame buffer bufSize hdr (some payload) len =
      some ⟨true, frameHdrSize + len,
        headerLayout.encode hdr ++ payload.take len.toNat ++ buffer.drop (40 + len.toNat)⟩ := by
  have small := bufSize.toNat_lt
  have total := totalLen_of_fits len (by omega)
  rw [encodeFrame_passed (by omega), header_payload_written (header_length hdr)
    (Nat.le_trans room owned) readable, Option.map_some]

theorem decodeFrame_eq {buffer dst : Bytes} {bufLen maxLen : UInt32} (hdr : FrameHeader)
    (len : UInt32) (owned : bufLen.toNat ≤ buffer.length) (room : maxLen.toNat ≤ dst.length)
    (valid : validateHeader (headerLayout.decode (buffer.take 40)) = true)
    (whole : 40 + (headerLayout.decode (buffer.take 40)).payloadLen.toNat ≤ bufLen.toNat)
    (allowed : (headerLayout.decode (buffer.take 40)).payloadLen ≤ maxLen) :
    decodeFrame buffer bufLen hdr (some dst) maxLen len =
      some ⟨true, headerLayout.decode (buffer.take 40),
        some ((buffer.drop 40).take (headerLayout.decode (buffer.take 40)).payloadLen.toNat ++
          dst.drop (headerLayout.decode (buffer.take 40)).payloadLen.toNat),
        (headerLayout.decode (buffer.take 40)).payloadLen⟩ := by
  have small := bufLen.toNat_lt
  have total := totalLen_of_fits (headerLayout.decode (buffer.take 40)).payloadLen (by omega)
  have fits := UInt32.le_iff_toNat_le.mp allowed
  have passes : Passes buffer bufLen maxLen := ⟨by omega, valid, by omega, allowed⟩
  rw [decodeFrame_passed owned passes, copyOut_eq (by omega) (by omega)]
  rfl

theorem decode_encoded (hdr : FrameHeader) (rest : Bytes) :
    headerLayout.decode ((headerLayout.encode hdr ++ rest).take 40) = hdr := by
  rw [List.take_left' (header_length hdr), headerLayout.decode_encode]

/-- Decoding an encoded frame gives back its header and payload, whatever follows it; and
    encoding what DecodeFrame returned gives back the bytes it was given. -/
theorem frame_round_trip :
    (∀ (old : FrameHeader) (opcode flags : UInt8) (requestId : UInt32)
      (imageId blockOffset : UInt64) (blockCount : UInt32) (layerId : UInt8)
      (payload : Bytes) (n : UInt32) (buffer : Bytes) (bufSize : UInt32),
      opcode ≠ 0 → payload.length = n.toNat → n.toNat ≤ 2 ^ 32 - 41 →
      bufSize.toNat ≤ buffer.length → 40 + n.toNat ≤ bufSize.toNat →
      ∃ frame after, encodeFrame buffer bufSize
          (encodeHeader old opcode flags requestId n imageId blockOffset blockCount layerId)
          (some payload) n = some ⟨true, frameHdrSize + n, frame ++ after⟩ ∧
        frame.length = 40 + n.toNat ∧
        ∀ (trailing : Bytes) (bufLen maxLen len : UInt32) (hdr : FrameHeader) (dst : Bytes),
          bufLen.toNat = (frame ++ trailing).length → n ≤ maxLen → maxLen.toNat ≤ dst.length →
          decodeFrame (frame ++ trailing) bufLen hdr (some dst) maxLen len =
            some ⟨true, encodeHeader old opcode flags requestId n imageId blockOffset blockCount
              layerId, some (payload ++ dst.drop n.toNat), n⟩) ∧
    ∀ (buffer : Bytes) (bufLen maxLen len : UInt32) (hdr : FrameHeader) (dst : Bytes) (r : Decoded),
      bufLen.toNat ≤ buffer.length → maxLen.toNat ≤ dst.length →
      decodeFrame buffer bufLen hdr (some dst) maxLen len = some r → r.ok = true →
      40 + r.payloadLen.toNat ≤ bufLen.toNat →
      ∀ (out : Bytes) (outSize : UInt32), outSize.toNat ≤ out.length →
        40 + r.payloadLen.toNat ≤ outSize.toNat →
        ∃ after, encodeFrame out outSize r.hdr r.payload r.payloadLen =
          some ⟨true, frameHdrSize + r.payloadLen,
            buffer.take (40 + r.payloadLen.toNat) ++ after⟩ := by
  constructor
  · intro old opcode flags requestId imageId blockOffset blockCount layerId payload n buffer bufSize
      nonzero length _ owned room
    generalize same : encodeHeader old opcode flags requestId n imageId blockOffset blockCount
      layerId = hdr
    have size := header_length hdr
    refine ⟨headerLayout.encode hdr ++ payload, buffer.drop (40 + n.toNat), ?_, ?_, ?_⟩
    · rw [encodeFrame_eq hdr owned room (by omega), List.take_of_length_le (by omega)]
    · rw [List.length_append]
      omega
    · intro trailing bufLen maxLen len old' dst total allowed writable
      rw [List.append_assoc] at total ⊢
      have decoded := decode_encoded hdr (payload ++ trailing)
      have stated : hdr.payloadLen = n := by rw [← same]; rfl
      have valid : validateHeader hdr = true := by
        rw [validateHeader_iff, ← same]
        exact ⟨rfl, rfl, nonzero⟩
      simp only [List.length_append] at total
      rw [decodeFrame_eq old' len (by simp only [List.length_append]; omega) writable
        (by rw [decoded, valid]) (by rw [decoded, stated]; omega)
        (by rw [decoded, stated]; exact allowed),
        decoded, stated, field_of_append _ payload trailing size length]
  · intro buffer bufLen maxLen len hdr dst r owned writable result ok whole out outSize outOwned
      room
    obtain ⟨⟨long, valid, _, allowed⟩, _, len'⟩ := decodeFrame_accepted owned result ok
    rw [len'] at whole
    rw [decodeFrame_eq hdr len owned writable valid whole allowed] at result
    cases result
    dsimp only at room ⊢
    have fits := UInt32.le_iff_toNat_le.mp allowed
    have size : ((buffer.drop 40).take
        (headerLayout.decode (buffer.take 40)).payloadLen.toNat).length =
        (headerLayout.decode (buffer.take 40)).payloadLen.toNat := by
      rw [List.length_take, List.length_drop]
      omega
    have header : (buffer.take 40).length = headerLayout.size :=
      List.length_take_of_le (show 40 ≤ buffer.length by omega)
    refine ⟨out.drop (40 + (headerLayout.decode (buffer.take 40)).payloadLen.toNat), ?_⟩
    rw [encodeFrame_eq _ outOwned room (by rw [List.length_append]; omega), List.take_left' size,
      headerLayout.encode_decode _ header, ← List.take_add]

def heartbeat : FrameHeader :=
  encodeHeader ⟨0, 0, 0, 0, 0, 0, 0, 0, 0, 0, 0, 0, 0⟩ 0x10 0 7 2 1 0 0 0

theorem heartbeat_round_trip :
    (∃ frame after, encodeFrame (List.replicate 64 0) 64 heartbeat (some [8, 9]) 2 =
        some ⟨true, 42, frame ++ after⟩ ∧
      decodeFrame (frame ++ [5]) 43 heartbeat (some [0, 0, 0]) 3 0 =
        some ⟨true, heartbeat, some [8, 9, 0], 2⟩) ∧
    ∃ after, encodeFrame (List.replicate 64 0) 64 heartbeat (some [8, 9, 0]) 2 =
      some ⟨true, 42, headerLayout.encode heartbeat ++ [8, 9] ++ after⟩ := by
  obtain ⟨forth, back⟩ := frame_round_trip
  constructor
  · obtain ⟨frame, after, encoded, length, decodes⟩ := forth heartbeat 0x10 0 7 1 0 0 0 [8, 9] 2
      (List.replicate 64 0) 64 (by decide) rfl (by decide) (by decide) (by decide)
    refine ⟨frame, after, encoded, decodes [5] 43 3 0 heartbeat [0, 0, 0] ?_ (by decide)
      (by decide)⟩
    rw [List.length_append, length]
    rfl
  · exact back (headerLayout.encode heartbeat ++ [8, 9, 5]) 43 3 0 heartbeat [0, 0, 0]
      ⟨true, heartbeat, some [8, 9, 0], 2⟩ (by decide) (by decide) (by decide +kernel) rfl
        (by decide)
      (List.replicate 64 0) 64 (by decide) (by decide)

end FrameRoundTrip
