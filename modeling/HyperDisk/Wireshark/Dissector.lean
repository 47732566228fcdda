import HyperDisk.Foundations.BigEndian
import HyperDisk.Common.FrameCodec

/- The HDXB dissector (hdxb_dissector.lua) on the bytes that EncodeFrame leaves in its buffer.
   A Lua error ends the call and keeps what was added to the packet before it. -/
namespace Dissector
open LittleEndian BigEndian PackedFields FrameCodec

inductive Field where
  | magic
  | version
  | opcode
  | flags
  | requestId
  | payloadLen
  | imageId
  | blockOffset
  | blockCount
  | layerId
  | reserved
  deriving DecidableEq, Repr

inductive Item where
  | field (field : Field) (value : Nat) (text : String)
  | bytes (range : Bytes) (text : String)
  deriving DecidableEq, Repr

structure Packet where
  protocol : String
  info : String
  subtree : List Item
  deriving DecidableEq, Repr

abbrev Lua := ExceptT String (StateM Packet)

def range (buffer : Bytes) (off width : Nat) : Lua Bytes :=
  match slice buffer off width with
  | some bytes => pure bytes
  | none => throw "Range is out of bounds"

def uint (bytes : Bytes) : Lua Nat :=
  if 1 ≤ bytes.length ∧ bytes.length ≤ 4 then pure (loadBe bytes)
  else throw "TvbRange:uint() does not handle this length"

def add (buffer : Bytes) (field : Field) (off width : Nat) (text : String) : Lua Unit := do
  let bytes ← range buffer off width
  modify fun packet =>
    { packet with subtree := packet.subtree ++ [.field field (loadBe bytes) text] }

def opcodes : Nat → Option String
  | 0x01 => some "BLOCK_READ_REQ"
  | 0x02 => some "BLOCK_READ_RSP"
  | 0x03 => some "BLOCK_WRITE_REQ"
  | 0x04 => some "BLOCK_WRITE_RSP"
  | 0x10 => some "HEARTBEAT"
  | 0x11 => some "HEARTBEAT_ACK"
  | 0x20 => some "CACHE_INVALIDATE"
  | 0x30 => some "PREFETCH_PUSH"
  | 0x40 => some "VECTOR_READ_REQ"
  | 0x41 => some "VECTOR_READ_RSP"
  | 0x42 => some "VECTOR_WRITE_REQ"
  | 0x43 => some "VECTOR_WRITE_RSP"
  | 0xFF => some "ERROR_RSP"
  | _ => none

def layers : Nat → Option String
  | 0 => some "OS"
  | 1 => some "DRIVER"
  | 2 => some "APP"
  | 3 => some "OVERLAY"
  | _ => none

def flagStr (flags : Nat) : String :=
  if flags = 0 then "NONE"
  else
    let parts := (if flags &&& 0x01 ≠ 0 then ["COMPRESSED"] else []) ++
      (if flags &&& 0x02 ≠ 0 then ["URGENT"] else []) ++
      (if flags &&& 0x04 ≠ 0 then ["CACHED"] else [])
    String.intercalate "|" parts

def hex16 (n : Nat) : String :=
  String.ofList (List.leftpad 16 '0' ((Nat.toDigits 16 n).map Char.toUpper))

def dissectFrame (buffer : Bytes) : Lua Unit := do
  modify fun packet => { packet with protocol := "HDXB" }
  add buffer .magic 0 4 ""
  add buffer .version 4 2 ""
  let opcode ← uint (← range buffer 6 1)
  let opcodeName := (opcodes opcode).getD "UNKNOWN"
  add buffer .opcode 6 1 (" (" ++ opcodeName ++ ")")
  let flags ← uint (← range buffer 7 1)
  add buffer .flags 7 1 (" (" ++ flagStr flags ++ ")")
  add buffer .requestId 8 4 ""
  add buffer .payloadLen 12 4 ""
  add buffer .imageId 16 8 ""
  add buffer .blockOffset 24 8 ""
  add buffer .blockCount 32 4 ""
  let layerId ← uint (← range buffer 36 1)
  let layerName := (layers layerId).getD "UNKNOWN"
  add buffer .layerId 36 1 (" (" ++ layerName ++ ")")
  add buffer .reserved 37 3 ""
  let payloadLen ← uint (← range buffer 12 4)
  if 40 < buffer.length ∧ 0 < payloadLen then
    let actualPayload := min payloadLen (buffer.length - 40)
    let payload ← range buffer 40 actualPayload
    modify fun packet => { packet with
      subtree := packet.subtree ++ [.bytes payload s!"Payload ({actualPayload} bytes)"] }
  let requestId ← uint (← range buffer 8 4)
  let imageId ← uint (← range buffer 16 8)
  modify fun packet => { packet with
    info := opcodeName ++ " ReqID=" ++ toString requestId ++ " Image=0x" ++ hex16 imageId }

def dissector (buffer : Bytes) : Lua Bool := do
  if buffer.length < 40 then return false
  let magic ← uint (← range buffer 0 4)
  if magic ≠ 0x48444B47 then return false
  dissectFrame buffer
  return true

/-- What the call returns, and the packet it leaves. -/
def dissect (buffer : Bytes) (packet : Packet) : Except String Bool × Packet :=
  (dissector buffer).run packet

theorem dissect_short {buffer : Bytes} (short : buffer.length < 40) (packet : Packet) :
    dissect buffer packet = (.ok false, packet) := by
  simp only [dissect, dissector, short, if_true]
  rfl

theorem dissect_long {buffer : Bytes} (long : 40 ≤ buffer.length) (packet : Packet) :
    dissect buffer packet = if loadBe (buffer.take 4) ≠ 0x48444B47 then (.ok false, packet)
      else (do dissectFrame buffer; return true : Lua Bool).run packet := by
  have first : range buffer 0 4 = pure (buffer.take 4) := by
    rw [range, slice_eq_some (by omega)]
    rfl
  have word : uint (buffer.take 4) = pure (loadBe (buffer.take 4)) := by
    rw [uint, if_pos (by rw [List.length_take_of_le (by omega)]; decide)]
  simp only [dissect, dissector, Nat.not_lt.mpr long, if_false, first, word, pure_bind]
  split <;> rfl

theorem lua_bind {α β : Type} (act : Lua α) (next : α → Lua β) (packet : Packet) :
    (act >>= next).run packet = match act.run packet with
      | (.ok value, after) => (next value).run after
      | (.error message, after) => (.error message, after) := by
  rcases ran : act packet with ⟨result, after⟩
  simp only [ExceptT.run, bind, ExceptT.bind, ExceptT.mk, StateT.bind, ran, ExceptT.bindCont]
  cases result with
  | ok value => rfl
  | error message => rfl

theorem returns_true (act : Lua Unit) (packet : Packet) :
    ((do act; return true : Lua Bool).run packet).1 ≠ .ok false := by
  rw [lua_bind]
  split
  · intro same
    cases same
  · intro same
    cases same

theorem recognised_iff (buffer : Bytes) (packet : Packet) :
    (dissect buffer packet).1 ≠ .ok false ↔
      40 ≤ buffer.length ∧ buffer.take 4 = [0x48, 0x44, 0x4B, 0x47] := by
  by_cases long : 40 ≤ buffer.length
  · have magic : loadBe (buffer.take 4) = 0x48444B47 ↔
        buffer.take 4 = [0x48, 0x44, 0x4B, 0x47] := by
      have size : (buffer.take 4).length = 4 := List.length_take_of_le (by omega)
      constructor
      · intro value
        rw [← storeBe_loadBe (buffer.take 4), value, size]
        decide
      · intro bytes
        rw [bytes]
        decide
    rw [dissect_long long, ← magic]
    by_cases here : loadBe (buffer.take 4) = 0x48444B47
    · rw [if_neg (not_not.mpr here)]
      exact ⟨fun _ => ⟨long, here⟩, fun _ => returns_true _ packet⟩
    · simp [here]
  · rw [dissect_short (by omega)]
    simp [long]

theorem copyIn_keeps_front {dst out : Bytes} {off width : Nat} {src : Option Bytes} {len : UInt32}
    (done : copyIn dst off src len = some out) (front : width ≤ off) :
    slice out 0 width = slice dst 0 width := by
  unfold copyIn at done
  split at done
  · cases done
    rfl
  · split at done
    · obtain ⟨bytes, _, written⟩ := Option.bind_eq_some_iff.mp done
      exact slice_overwrite_apart written (by omega)
    · cases done
      rfl

theorem encoded_header {buffer : Bytes} {bufSize payloadLen : UInt32} {hdr : FrameHeader}
    {payload : Option Bytes} {r : Encoded}
    (done : encodeFrame buffer bufSize hdr payload payloadLen = some r) (ok : r.ok = true) :
    slice r.buffer 0 40 = some (headerLayout.encode hdr) := by
  simp only [encodeFrame] at done
  split at done
  · cases done
    cases ok
  · obtain ⟨started, start, rest⟩ := Option.bind_eq_some_iff.mp done
    obtain ⟨filled, fill, result⟩ := Option.bind_eq_some_iff.mp rest
    cases result
    rw [copyIn_keeps_front fill (Nat.le_refl 40), ← header_length hdr]
    exact slice_overwrite_here start

def memberValues (hdr : FrameHeader) : List (Field × Nat) :=
  [(.magic, hdr.magic.toNat), (.version, hdr.version.toNat), (.opcode, hdr.opcode.toNat),
    (.flags, hdr.flags.toNat), (.requestId, hdr.requestId.toNat),
    (.payloadLen, hdr.payloadLen.toNat), (.imageId, hdr.imageId.toNat),
    (.blockOffset, hdr.blockOffset.toNat), (.blockCount, hdr.blockCount.toNat),
    (.layerId, hdr.layerId.toNat)]

/-- The frame is recognised and every member is shown with its value. -/
def ShowsHeader (frame : Bytes) (hdr : FrameHeader) (packet : Packet) : Prop :=
  (dissect frame packet).1 ≠ .ok false ∧
    ∀ member ∈ memberValues hdr,
      ∃ text, Item.field member.1 member.2 text ∈ (dissect frame packet).2.subtree

/-- The codec stores its magic little-endian, so no frame it encodes is recognised. -/
theorem encoded_frames_unrecognised (old : FrameHeader) (opcode flags : UInt8)
    (requestId statedLen : UInt32) (imageId blockOffset : UInt64) (blockCount : UInt32)
    (layerId : UInt8) (buffer : Bytes) (bufSize : UInt32) (payload : Option Bytes)
    (payloadLen : UInt32) (r : Encoded) (packet : Packet)
    (encoded : encodeFrame buffer bufSize
      (encodeHeader old opcode flags requestId statedLen imageId blockOffset blockCount layerId)
      payload payloadLen = some r)
    (ok : r.ok = true) :
    ¬ ShowsHeader (r.buffer.take r.totalLen.toNat)
      (encodeHeader old opcode flags requestId statedLen
      imageId blockOffset blockCount layerId) packet := by
  rintro ⟨shown, _⟩
  obtain ⟨long, magic⟩ := (recognised_iff _ packet).mp shown
  have header := encoded_header encoded ok
  rw [List.length_take] at long
  rw [slice_eq_some (by omega), Option.some_inj] at header
  have stored : (r.buffer.take r.totalLen.toNat).take 4 = store 4 frameMagic.toNat := by
    have first := congrArg (List.take 4) header
    rw [List.drop_zero, List.take_take] at first
    rw [List.take_take, Nat.min_eq_left (by omega)]
    exact first
  rw [stored] at magic
  exact absurd magic (by decide)

def tcpPacket : Packet := ⟨"TCP", "", []⟩

def readReq : FrameHeader := encodeHeader ⟨0, 0, 0, 0, 0, 0, 0, 0, 0, 0, 0, 0, 0⟩ 1 0 7 2 5 4096 8 3

def readReqFrame : Bytes := headerLayout.encode readReq ++ [8, 9]

theorem readReq_unrecognised :
    encodeFrame (List.replicate 42 0) 42 readReq (some [8, 9]) 2 = some ⟨true, 42, readReqFrame⟩ ∧
      ¬ ShowsHeader (readReqFrame.take 42) readReq tcpPacket :=
  ⟨by decide +kernel,
    encoded_frames_unrecognised ⟨0, 0, 0, 0, 0, 0, 0, 0, 0, 0, 0, 0, 0⟩ 1 0 7 2 5 4096 8 3
      (List.replicate 42 0) 42 (some [8, 9]) 2 ⟨true, 42, readReqFrame⟩ tcpPacket
        (by decide +kernel)
      rfl⟩

theorem readReq_not_dissected :
    encodeFrame (List.replicate 42 0) 42 readReq (some [8, 9]) 2 = some ⟨true, 42, readReqFrame⟩ ∧
      loadBe (readReqFrame.take 4) = 0x474B4448 ∧
      dissect readReqFrame tcpPacket = (.ok false, tcpPacket) :=
  ⟨by decide +kernel, by decide, by rfl⟩

end Dissector
