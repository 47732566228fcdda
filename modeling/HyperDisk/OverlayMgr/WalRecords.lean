import HyperDisk.Common.Crc32c
import HyperDisk.Foundations.LittleEndian

/- The on-disk WAL record of wal_enhanced.cpp: builder, validator and parser.
   `none` is what the C++ leaves undefined: an access outside a buffer, or the store into
   the const CRC table where it does not take effect. Size sums mix uint8_t constants with
   a uint32_t and are therefore taken modulo 2^32. -/
namespace WalRecords
open LittleEndian

def walMagic : UInt32 := 0x48445857
def walVersion : UInt16 := 1
def walHeaderSize : UInt8 := 6
def walSeqIdSize : UInt8 := 8
def walCrcSize : UInt8 := 4
def walPayloadLenSize : UInt8 := 4

def crcRound (crc : UInt32) : UInt32 :=
  (crc >>> 1) ^^^ (if crc &&& 1 ≠ 0 then 0x82F63B78 else 0)

def crc32cTable (i : UInt32) : UInt32 := Nat.repeat crcRound 8 i

/-- What the store through const_cast into the static const CRC32C_TABLE does. C++ leaves it
    undefined; where the table lies in read-only memory it ends the process. -/
inductive TableStore where
  | takesEffect
  | faults
  deriving DecidableEq, Repr

def initCrc32cTable : TableStore → Option (UInt32 → UInt32)
  | .takesEffect => some crc32cTable
  | .faults => none

def computeCrc32c (init : TableStore) (data : Bytes) : Option UInt32 := do
  let table ← initCrc32cTable init
  some (data.foldl (fun crc b => table ((crc ^^^ b.toUInt32) &&& 0xFF) ^^^ (crc >>> 8))
    0xFFFFFFFF ^^^ 0xFFFFFFFF)

/-- The size expression shared by Build, Validate and ReadAllEntries, widened to size_t. -/
def entrySize (payloadLen : UInt32) : Nat :=
  (walHeaderSize.toUInt32 + walSeqIdSize.toUInt32 + walCrcSize.toUInt32 +
    walPayloadLenSize.toUInt32 + payloadLen + walCrcSize.toUInt32).toNat

def align8 (n : Nat) : Nat := (n + 7) &&& (2 ^ 64 - 8)

inductive WalEntryStatus where
  | ok
  | tornWriteDetected
  | seqIdViolation
  | crcMismatch
  deriving DecidableEq, Repr

structure WalEntryCheckResult where
  status : WalEntryStatus
  seqId : UInt64
  errorMsg : String
  deriving DecidableEq, Repr

structure WalEntryHeader where
  magic : UInt32
  version : UInt16
  deriving DecidableEq, Repr

structure WalEntry where
  header : WalEntryHeader
  seqId : UInt64
  headerCrc : UInt32
  payloadLen : UInt32
  payload : Bytes
  footerCrc : UInt32
  deriving DecidableEq, Repr

def word16 (bytes : Bytes) : UInt16 := UInt16.ofNat (load bytes)
def word32 (bytes : Bytes) : UInt32 := UInt32.ofNat (load bytes)
def word64 (bytes : Bytes) : UInt64 := UInt64.ofNat (load bytes)

def prologue (seqId : UInt64) : Bytes :=
  store 4 walMagic.toNat ++ store 2 walVersion.toNat ++ store 8 seqId.toNat

def copyPayload (buf : Bytes) (payload : Option Bytes) (payloadLen : UInt32) :
    Option (Bytes × Nat) :=
  match payload with
  | none => some (buf, 22)
  | some src =>
    if 0 < payloadLen then do
      let bytes ← slice src 0 payloadLen.toNat
      let buf ← overwrite buf 22 bytes
      some (buf, 22 + payloadLen.toNat)
    else some (buf, 22)

def build (init : TableStore) (seqId : UInt64) (payload : Option Bytes) (payloadLen : UInt32) :
    Option Bytes := do
  let aligned := align8 (entrySize payloadLen)
  let buf ← overwrite (List.replicate aligned 0) 0 (prologue seqId)
  let headerCrc ← computeCrc32c init (buf.take 14 ++ store 4 payloadLen.toNat)
  let buf ← overwrite buf 14 (store 4 headerCrc.toNat)
  let buf ← overwrite buf 18 (store 4 payloadLen.toNat)
  let (buf, off) ← copyPayload buf payload payloadLen
  let footerCrc ← computeCrc32c init (buf.take off)
  overwrite buf off (store 4 footerCrc.toNat)

def validateCrcs (init : TableStore) (data : Bytes) (seqId : UInt64)
    (storedHeaderCrc payloadLen : UInt32) : Option WalEntryCheckResult := do
  let front ← fetch data 0 14
  let computedHeaderCrc ← computeCrc32c init (front ++ store 4 payloadLen.toNat)
  if computedHeaderCrc ≠ storedHeaderCrc then
    some ⟨.tornWriteDetected, seqId, "Header CRC mismatch (torn write)"⟩
  else
    -- expected_len - WAL_CRC_SIZE is a size_t subtraction and wraps below four
    let footerOff := (entrySize payloadLen + (2 ^ 64 - walCrcSize.toNat)) % 2 ^ 64
    let storedFooterCrc ← fetch data footerOff 4
    let body ← slice data 0 footerOff
    let computedFooterCrc ← computeCrc32c init body
    if computedFooterCrc ≠ word32 storedFooterCrc then
      some ⟨.tornWriteDetected, seqId, "Footer CRC mismatch (torn write)"⟩
    else some ⟨.ok, seqId, ""⟩

def validate (init : TableStore) (data : Bytes) : Option WalEntryCheckResult :=
  if data.length < walHeaderSize.toNat + walSeqIdSize.toNat + walCrcSize.toNat +
      walPayloadLenSize.toNat + walCrcSize.toNat then
    some ⟨.tornWriteDetected, 0, "Entry too short"⟩
  else do
    let magic ← fetch data 0 4
    if word32 magic ≠ walMagic then
      some ⟨.tornWriteDetected, 0, "Magic mismatch"⟩
    else
      let seqId ← fetch data 6 8
      let storedHeaderCrc ← fetch data 14 4
      let payloadLen ← fetch data 18 4
      if data.length < entrySize (word32 payloadLen) then
        some ⟨.tornWriteDetected, word64 seqId, "Payload truncated"⟩
      else
        validateCrcs init data (word64 seqId) (word32 storedHeaderCrc) (word32 payloadLen)

/-- WalEntryBuilder::Parse; it trusts the stored length. -/
def parse (data : Bytes) : Option WalEntry := do
  let magic ← fetch data 0 4
  let version ← fetch data 4 2
  let seqId ← fetch data 6 8
  let headerCrc ← fetch data 14 4
  let payloadLen ← fetch data 18 4
  let n := (word32 payloadLen).toNat
  let payload ← slice data 22 n
  let footerCrc ← fetch data (22 + n) 4
  some ⟨⟨word32 magic, word16 version⟩, word64 seqId, word32 headerCrc, word32 payloadLen,
    payload, word32 footerCrc⟩

theorem computeCrc32c_eq (data : Bytes) :
    computeCrc32c .takesEffect data = some (Crc32c.crc32c data) := by
  have body : (fun crc (b : UInt8) => crc32cTable ((crc ^^^ b.toUInt32) &&& 0xFF) ^^^ (crc >>> 8)) =
      Crc32c.tableByte (Crc32c.tableEntry Crc32c.shiftXor) := by
    funext crc b
    exact UInt32.xor_comm _ _
  rw [← Crc32c.loop_table, Crc32c.loop, ← body]
  rfl

theorem computeCrc32c_faults (data : Bytes) : computeCrc32c .faults data = none := rfl

theorem computeCrc32c_iff (init : TableStore) (data : Bytes) :
    computeCrc32c init data = some (Crc32c.crc32c data) ↔ init = .takesEffect := by
  cases init with
  | takesEffect => simp [computeCrc32c_eq]
  | faults => simp [computeCrc32c_faults]

theorem entrySize_eq (payloadLen : UInt32) :
    entrySize payloadLen = (26 + payloadLen.toNat) % 2 ^ 32 := by
  have bound := payloadLen.toNat_lt
  simp only [entrySize, walHeaderSize, walSeqIdSize, walCrcSize, walPayloadLenSize,
    UInt32.toNat_add]
  simp
  omega

theorem entrySize_of_fits {payloadLen : UInt32} (fits : 26 + payloadLen.toNat < 2 ^ 32) :
    entrySize payloadLen = 26 + payloadLen.toNat := by
  rw [entrySize_eq, Nat.mod_eq_of_lt fits]

theorem align8_eq {n : Nat} (small : n + 7 < 2 ^ 64) : align8 n = (n + 7) / 8 * 8 := by
  have clear : (n + 7) / 8 * 8 = ((n + 7) >>> 3) <<< 3 := by
    simp [Nat.shiftRight_eq_div_pow, Nat.shiftLeft_eq]
  have mask : (2 ^ 64 - 8 : Nat) = (2 ^ 61 - 1) <<< 3 := by decide
  apply Nat.eq_of_testBit_eq
  intro i
  rw [align8, clear, mask, Nat.testBit_and, Nat.testBit_shiftLeft, Nat.testBit_shiftLeft,
    Nat.testBit_shiftRight, Nat.testBit_two_pow_sub_one]
  by_cases low : 3 ≤ i
  · by_cases high : i < 64
    · simp [low, show i - 3 < 61 by omega, show 3 + (i - 3) = i by omega]
    · have zero : (n + 7).testBit i = false :=
        Nat.testBit_lt_two_pow (lt_of_lt_of_le small (Nat.pow_le_pow_right (by omega) (by omega)))
      simp [zero, show 3 + (i - 3) = i by omega, low]
  · simp [low]

theorem align8_bounds {n : Nat} (small : n + 7 < 2 ^ 64) :
    n ≤ align8 n ∧ align8 n < n + 8 ∧ align8 n % 8 = 0 := by
  rw [align8_eq small]
  omega

end WalRecords
