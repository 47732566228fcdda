import HyperDisk.Common.FrameRoundTrip

/- Which lengths the guards of EncodeFrame and DecodeFrame keep inside the buffers. Both add
   the header size to a 32-bit length in 32 bits, so the forty largest lengths look small. -/
namespace FrameBounds
open LittleEndian FrameCodec FrameRoundTrip

def EncodeSafe (buffer : Bytes) (bufSize : UInt32) (hdr : FrameHeader) (payload : Option Bytes)
    (payloadLen : UInt32) : Prop :=
  ∃ r, encodeFrame buffer bufSize hdr payload payloadLen = some r ∧
    (r.ok = true → 40 + payloadLen.toNat ≤ bufSize.toNat)

def DecodeSafe (buffer : Bytes) (bufLen : UInt32) (hdr : FrameHeader) (payload : Option Bytes)
    (maxPayloadLen payloadLen : UInt32) : Prop :=
  ∃ r, decodeFrame buffer bufLen hdr payload maxPayloadLen payloadLen = some r ∧
    (r.ok = true →
      40 + r.hdr.payloadLen.toNat ≤ bufLen.toNat ∧ r.hdr.payloadLen ≤ maxPayloadLen)

theorem totalLen_of_wraps (payloadLen : UInt32) (wraps : 2 ^ 32 ≤ 40 + payloadLen.toNat) :
    (frameHdrSize + payloadLen).toNat = 40 + payloadLen.toNat - 2 ^ 32 := by
  have bound := payloadLen.toNat_lt
  rw [UInt32.toNat_add, show frameHdrSize.toNat = 40 from rfl]
  omega

theorem encodeFrame_defined {buffer : Bytes} {bufSize len : UInt32} {payload : Option Bytes}
    (hdr : FrameHeader) (owned : bufSize.toNat ≤ buffer.length)
    (readable : ∀ src ∈ payload, len.toNat ≤ src.length) (room : 40 + len.toNat ≤ bufSize.toNat) :
    ∃ r, encodeFrame buffer bufSize hdr payload len = some r := by
  cases payload with
  | some src => exact ⟨_, encodeFrame_eq hdr owned room (readable src rfl)⟩
  | none =>
    have small := bufSize.toNat_lt
    have total := totalLen_of_fits len (by omega)
    have started := overwrite_eq_some (show 0 + (headerLayout.encode hdr).length ≤ buffer.length by
      rw [header_length]
      omega)
    rw [encodeFrame_passed (by omega), started]
    exact ⟨_, rfl⟩

theorem encode_safe_iff {buffer : Bytes} {bufSize : UInt32} (hdr : FrameHeader)
    {payload : Option Bytes} {len : UInt32} (owned : bufSize.toNat ≤ buffer.length)
    (readable : ∀ src ∈ payload, len.toNat ≤ src.length) :
    EncodeSafe buffer bufSize hdr payload len ↔
      40 + len.toNat < 2 ^ 32 ∨ bufSize.toNat < 40 + len.toNat - 2 ^ 32 := by
  have bound := bufSize.toNat_lt
  by_cases fits : 40 + len.toNat < 2 ^ 32
  · have total := totalLen_of_fits len fits
    refine iff_of_true ?_ (Or.inl fits)
    by_cases room : 40 + len.toNat ≤ bufSize.toNat
    · obtain ⟨r, result⟩ := encodeFrame_defined hdr owned readable room
      exact ⟨r, result, fun _ => room⟩
    · exact ⟨_, encodeFrame_refused (by omega) buffer hdr payload, by simp⟩
  · have total := totalLen_of_wraps len (by omega)
    constructor
    · rintro ⟨r, result, safe⟩
      by_contra wrapped
      rw [encodeFrame_passed (by omega)] at result
      obtain ⟨_, _, same⟩ := Option.map_eq_some_iff.mp result
      rw [← same] at safe
      have room := safe rfl
      omega
    · intro small
      exact ⟨_, encodeFrame_refused (by omega) buffer hdr payload, by simp⟩

theorem copyOut_defined {src : Bytes} {off : Nat} {dst : Option Bytes} {len : UInt32}
    (readable : off + len.toNat ≤ src.length) (writable : ∀ bytes ∈ dst, len.toNat ≤ bytes.length) :
    ∃ out, copyOut src off dst len = some out := by
  cases dst with
  | none => exact ⟨none, rfl⟩
  | some bytes => exact ⟨_, copyOut_eq readable (writable bytes rfl)⟩

/-- The headers whose length gets past both guards because the sum wraps. -/
def Wraps (buffer : Bytes) (bufLen maxPayloadLen : UInt32) : Prop :=
  40 ≤ bufLen.toNat ∧ validateHeader (headerLayout.decode (buffer.take 40)) = true ∧
    2 ^ 32 ≤ 40 + (headerLayout.decode (buffer.take 40)).payloadLen.toNat ∧
    (headerLayout.decode (buffer.take 40)).payloadLen ≤ maxPayloadLen

theorem wraps_passes {buffer : Bytes} {bufLen maxLen : UInt32}
    (wraps : Wraps buffer bufLen maxLen) : Passes buffer bufLen maxLen := by
  obtain ⟨long, valid, wrapped, allowed⟩ := wraps
  have total := totalLen_of_wraps _ wrapped
  have small := (headerLayout.decode (buffer.take 40)).payloadLen.toNat_lt
  exact ⟨long, valid, by omega, allowed⟩

theorem decode_safe_iff {buffer : Bytes} {bufLen maxLen : UInt32} (hdr : FrameHeader)
    {payload : Option Bytes} (len : UInt32) (owned : bufLen.toNat ≤ buffer.length)
    (writable : ∀ dst ∈ payload, maxLen.toNat ≤ dst.length) :
    DecodeSafe buffer bufLen hdr payload maxLen len ↔ ¬ Wraps buffer bufLen maxLen := by
  have bound := bufLen.toNat_lt
  constructor
  · rintro ⟨r, result, safe⟩ wraps
    have passed := result
    rw [decodeFrame_passed owned (wraps_passes wraps)] at passed
    obtain ⟨_, _, same⟩ := Option.map_eq_some_iff.mp passed
    rw [← same] at safe
    have room := (safe rfl).1
    have wrapped := wraps.2.2.1
    dsimp only at room
    omega
  · intro fits
    by_cases passes : Passes buffer bufLen maxLen
    · have small : 40 + (headerLayout.decode (buffer.take 40)).payloadLen.toNat < 2 ^ 32 := by
        by_contra wrapped
        exact fits ⟨passes.1, passes.2.1, by omega, passes.2.2.2⟩
      have total := totalLen_of_fits _ small
      have whole := passes.2.2.1
      have allowed := UInt32.le_iff_toNat_le.mp passes.2.2.2
      obtain ⟨out, copied⟩ := copyOut_defined (show
        40 + (headerLayout.decode (buffer.take 40)).payloadLen.toNat ≤ buffer.length by omega)
        (fun dst member => Nat.le_trans allowed (writable dst member))
      have room : 40 + (headerLayout.decode (buffer.take 40)).payloadLen.toNat ≤
          bufLen.toNat := by omega
      have result := decodeFrame_passed owned passes hdr payload len
      rw [copied, Option.map_some] at result
      exact ⟨_, result, fun _ => ⟨room, passes.2.2.2⟩⟩
    · obtain ⟨r, refused, no, _⟩ := decodeFrame_refused owned passes hdr payload len
      exact ⟨r, refused, by simp [no]⟩

/-- Both guards hold for every length below 2^32 - 40, and for longer ones only by chance: when
    the buffer is shorter than the wrapped sum, or another check of DecodeFrame fails. -/
theorem codec_safe_iff {frame received : Bytes} {bufSize bufLen len maxLen : UInt32}
    {payload dst : Option Bytes} (hdr oldHdr : FrameHeader) (oldLen : UInt32)
    (owned : bufSize.toNat ≤ frame.length) (readable : ∀ src ∈ payload, len.toNat ≤ src.length)
    (held : bufLen.toNat ≤ received.length)
    (writable : ∀ bytes ∈ dst, maxLen.toNat ≤ bytes.length) :
    (EncodeSafe frame bufSize hdr payload len ↔
      40 + len.toNat < 2 ^ 32 ∨ bufSize.toNat < 40 + len.toNat - 2 ^ 32) ∧
    (DecodeSafe received bufLen oldHdr dst maxLen oldLen ↔ ¬ Wraps received bufLen maxLen) := by
  constructor
  · exact encode_safe_iff hdr owned readable
  · exact decode_safe_iff oldHdr oldLen held writable

theorem heartbeat_safe :
    EncodeSafe (List.replicate 64 0) 64 heartbeat (some [8, 9]) 2 ∧
      DecodeSafe (headerLayout.encode heartbeat ++ [8, 9]) 42 heartbeat (some [0, 0, 0]) 3 0 := by
  have held : (42 : UInt32).toNat ≤ (headerLayout.encode heartbeat ++ [8, 9]).length := by
    rw [List.length_append, header_length]
    decide
  obtain ⟨encode, decode⟩ := codec_safe_iff heartbeat heartbeat 0
    (show (64 : UInt32).toNat ≤ (List.replicate 64 0).length by decide)
    (show ∀ src ∈ some ([8, 9] : Bytes), (2 : UInt32).toNat ≤ src.length by simp) held
    (show ∀ dst ∈ some ([0, 0, 0] : Bytes), (3 : UInt32).toNat ≤ dst.length by simp)
  constructor
  · exact encode.mpr (Or.inl (by decide))
  · apply decode.mpr
    rintro ⟨_, _, wrapped, _⟩
    rw [decode_encoded] at wrapped
    exact absurd wrapped (by decide)

def endless : FrameHeader := { heartbeat with payloadLen := 0xFFFFFFD8 }

/-- A payload of 2^32 - 40 bytes is a frame of no bytes to EncodeFrame, and forty received bytes
    that announce it are a whole frame to DecodeFrame. -/
theorem endless_frame_accepted :
    (encodeFrame (List.replicate 40 0) 40 endless none 0xFFFFFFD8).map
        (fun r => (r.ok, r.totalLen)) = some (true, 0) ∧
      (decodeFrame (headerLayout.encode endless) 40 heartbeat none 0xFFFFFFFF 0).map
        (fun r => (r.ok, r.hdr.payloadLen)) = some (true, 0xFFFFFFD8) ∧
      ¬ 40 + (0xFFFFFFD8 : UInt32).toNat ≤ (40 : UInt32).toNat := by
  decide +kernel

end FrameBounds
