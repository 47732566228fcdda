import HyperDisk.Common.FrameCodec
import HyperDisk.Foundations.FileImages

/- The boot.meta cache of the boot agent. What the files and the network do is part of each
   call; `none` is an access outside one of the buffers. -/
namespace BootMeta
open LittleEndian PackedFields FileImages FrameCodec

def bootMetaMagic : UInt32 := 0x4844424D
def bootMetaVersion : UInt16 := 1

structure Meta where
  magic : UInt32
  version : UInt16
  imageId : UInt64
  diskSize : UInt64
  blockSize : UInt32
  blockCount : UInt32
  layerId : UInt8
  writePolicy : UInt8
  reserved1 : Chars 2
  primaryServer : Chars 64
  primaryPort : UInt16
  secondaryServer : Chars 64
  secondaryPort : UInt16
  overlayPath : Chars 128
  blockMapOffset : UInt64
  blockMapCount : UInt32
  crc32c : UInt32
  deriving DecidableEq

def metaLayout : Packed Meta :=
  struct (pair u32 <| pair u16 <| pair u64 <| pair u64 <| pair u32 <| pair u32 <| pair u8 <|
      pair u8 <| pair (chars 2) <| pair (chars 64) <| pair u16 <| pair (chars 64) <| pair u16 <|
      pair (chars 128) <| pair u64 <| pair u32 u32)
    { toFun := fun (magic, version, imageId, diskSize, blockSize, blockCount, layerId, writePolicy,
          reserved1, primaryServer, primaryPort, secondaryServer, secondaryPort, overlayPath,
          blockMapOffset, blockMapCount, crc32c) =>
        ⟨magic, version, imageId, diskSize, blockSize, blockCount, layerId, writePolicy, reserved1,
          primaryServer, primaryPort, secondaryServer, secondaryPort, overlayPath, blockMapOffset,
          blockMapCount, crc32c⟩
      invFun := fun m => (m.magic, m.version, m.imageId, m.diskSize, m.blockSize, m.blockCount,
        m.layerId, m.writePolicy, m.reserved1, m.primaryServer, m.primaryPort, m.secondaryServer,
        m.secondaryPort, m.overlayPath, m.blockMapOffset, m.blockMapCount, m.crc32c)
      left_inv := fun _ => rfl
      right_inv := fun _ => rfl }

def crc32c (data : Bytes) (len : Nat) : UInt32 :=
  Crc32c.loop (Crc32c.shiftByte Crc32c.shiftXor) (data.take len)

def crcOffset : Nat := 306

def computeCrc (m : Meta) : UInt32 := crc32c (metaLayout.encode m) crcOffset

def validateCrc (m : Meta) : Bool := m.crc32c == computeCrc m

theorem zeros_length (n : Nat) : (List.replicate n (0 : UInt8)).length = n := List.length_replicate

def zeroChars (n : Nat) : Chars n := ⟨List.replicate n 0, zeros_length n⟩

def zeroMeta : Meta :=
  ⟨0, 0, 0, 0, 0, 0, 0, 0, zeroChars 2, zeroChars 64, 0, zeroChars 64, 0, zeroChars 128, 0, 0, 0⟩

def defaultServer : Chars 64 :=
  ⟨[0x31, 0x30, 0x2E, 0x31, 0x30, 0x2E, 0x32, 0x30, 0x30, 0x2E, 0x31, 0x30] ++
    List.replicate 52 0, rfl⟩

def defaults : Meta :=
  { zeroMeta with
    magic := bootMetaMagic
    version := bootMetaVersion
    blockSize := 4096
    writePolicy := 0
    primaryServer := defaultServer
    primaryPort := 9527 }

structure BootMetaCache where
  md : Meta
  valid : Bool
  deriving DecidableEq

def newCache : BootMetaCache := ⟨zeroMeta, false⟩

/-- Load. A file that ends early overwrites a part of meta_, but then the defaults do so too. -/
def load (disk : Disk) (path : Path) : BootMetaCache × Bool :=
  match disk path with
  | none => (⟨defaults, false⟩, false)
  | some file =>
    let md := metaLayout.decode (file.take metaLayout.size)
    if file.length < metaLayout.size ∨ md.magic ≠ bootMetaMagic then (⟨defaults, false⟩, false)
    else if ¬ validateCrc md then (⟨defaults, false⟩, false)
    else (⟨md, true⟩, true)

def stamped (m : Meta) : Meta :=
  let m := { m with magic := bootMetaMagic, version := bootMetaVersion }
  { m with crc32c := computeCrc m }

/-- Save; whether the file opens, how much is written and whether the stream notices a failure
    is up to the system. -/
def save (s : BootMetaCache) (disk : Disk) (path : Path) (opens : Bool) (outcome : WriteOutcome)
    (good : Bool) : BootMetaCache × Disk × Bool :=
  let s := { s with md := stamped s.md }
  if ¬ opens then (s, disk, false)
  else
    let image := metaLayout.encode s.md
    (s, disk.put path (image.take (outcome.count image.length)), good)

def setMeta (m : Meta) : BootMetaCache := ⟨m, m.magic == bootMetaMagic⟩

structure BlockReadReqPayload where
  imageId : UInt64
  blockOffset : UInt64
  blockCount : UInt32
  layerId : UInt8
  deriving DecidableEq, Repr

def readReqLayout : Packed BlockReadReqPayload :=
  struct (pair u64 <| pair u64 <| pair u32 u8)
    { toFun := fun (imageId, blockOffset, blockCount, layerId) =>
        ⟨imageId, blockOffset, blockCount, layerId⟩
      invFun := fun r => (r.imageId, r.blockOffset, r.blockCount, r.layerId)
      left_inv := fun _ => rfl
      right_inv := fun _ => rfl }

structure BlockReadRspPayload where
  imageId : UInt64
  blockOffset : UInt64
  blockCount : UInt32
  status : Int32
  deriving DecidableEq, Repr

def readRspLayout : Packed BlockReadRspPayload :=
  struct (pair u64 <| pair u64 <| pair u32 i32)
    { toFun := fun (imageId, blockOffset, blockCount, status) =>
        ⟨imageId, blockOffset, blockCount, status⟩
      invFun := fun r => (r.imageId, r.blockOffset, r.blockCount, r.status)
      left_inv := fun _ => rfl
      right_inv := fun _ => rfl }

def blockReadReq : UInt8 := 0x01
def blockReadRsp : UInt8 := 0x02

def zeroHeader : FrameHeader := ⟨0, 0, 0, 0, 0, 0, 0, 0, 0, 0, 0, 0, 0⟩

def requestFrame (m : Meta) (sendBuf : Bytes) : Option Encoded :=
  encodeFrame sendBuf 65 (encodeHeader zeroHeader blockReadReq 0 1 21 m.imageId 0 1 m.layerId)
    (some (readReqLayout.encode ⟨m.imageId, 0, 1, m.layerId⟩)) 21

/-- How the calls to the network go. Nothing is received when recv fails or the peer has closed;
    the three buffers are what the stack holds before. -/
structure Exchange where
  wsaStarts : Bool
  socketOpens : Bool
  connects : Bool
  sends : Bool
  received : Bytes
  receivedFits : received.length ≤ 65536
  sendBuf : Chars 65
  recvBuf : Chars 65536
  payload : Chars 65536

def handleResponse (s : BootMetaCache) (opcode : UInt8) (payload : Bytes) (payloadLen : UInt32) :
    Option (BootMetaCache × Bool) :=
  if opcode = blockReadRsp ∧ 0 < payloadLen then do
    let bytes ← slice payload 0 readRspLayout.size
    if (readRspLayout.decode bytes).status = 0 ∧ readRspLayout.size < payloadLen.toNat then
      let dataLen := payloadLen.toNat - readRspLayout.size
      if metaLayout.size ≤ dataLen then do
        let bytes ← slice payload readRspLayout.size metaLayout.size
        let md := metaLayout.decode bytes
        let valid := md.magic == bootMetaMagic && validateCrc md
        some (⟨md, valid⟩, valid)
      else some (s, false)
    else some (s, false)
  else some (s, false)

def loadFromServer (s : BootMetaCache) (x : Exchange) : Option (BootMetaCache × Bool) :=
  if ¬ x.wsaStarts then some (s, false)
  else if ¬ x.socketOpens then some (s, false)
  else if ¬ x.connects then some (s, false)
  else do
    let request ← requestFrame s.md x.sendBuf.val
    if ¬ request.ok then some (s, false)
    else if ¬ x.sends then some (s, false)
    else if x.received = [] then some (s, false)
    else do
      let recvBuf ← overwrite x.recvBuf.val 0 x.received
      let rsp ← decodeFrame recvBuf (UInt32.ofNat x.received.length) zeroHeader
        (some x.payload.val) 65536 0
      if ¬ rsp.ok then some (s, false)
      else do
        let payload ← rsp.payload
        handleResponse s rsp.hdr.opcode payload rsp.payloadLen

inductive Call where
  | load (disk : Disk) (path : Path)
  | save (disk : Disk) (path : Path) (opens : Bool) (outcome : WriteOutcome) (good : Bool)
  | loadFromServer (x : Exchange)
  | setMeta (m : Meta)

def perform (s : BootMetaCache) : Call → Option BootMetaCache
  | .load disk path => some (load disk path).1
  | .save disk path opens outcome good => some (save s disk path opens outcome good).1
  | .loadFromServer x => (loadFromServer s x).map Prod.fst
  | .setMeta m => some (setMeta m)

def step (s : Option BootMetaCache) (call : Call) : Option BootMetaCache :=
  s.bind fun s => perform s call

end BootMeta
