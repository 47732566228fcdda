import HyperDisk.Foundations.LittleEndian
import HyperDisk.Foundations.ReflectedCrc

/- The CRC-32C loops of the repository. Each program has its own copy; they differ in how a byte
   is taken (through a table, or in eight shifts) and in how a shift is written. -/
namespace Crc32c
open LittleEndian

def shiftXor (crc : UInt32) : UInt32 := (crc >>> 1) ^^^ (if crc &&& 1 ≠ 0 then 0x82F63B78 else 0)

def shiftBranch (crc : UInt32) : UInt32 :=
  if crc &&& 1 ≠ 0 then (crc >>> 1) ^^^ 0x82F63B78 else crc >>> 1

def tableEntry (shift : UInt32 → UInt32) (i : UInt32) : UInt32 := Nat.repeat shift 8 i

def tableByte (table : UInt32 → UInt32) (crc : UInt32) (byte : UInt8) : UInt32 :=
  (crc >>> 8) ^^^ table ((crc ^^^ byte.toUInt32) &&& 0xFF)

def shiftByte (shift : UInt32 → UInt32) (crc : UInt32) (byte : UInt8) : UInt32 :=
  Nat.repeat shift 8 (crc ^^^ byte.toUInt32)

def loop (body : UInt32 → UInt8 → UInt32) (data : Bytes) : UInt32 :=
  data.foldl body 0xFFFFFFFF ^^^ 0xFFFFFFFF

def polynomial : BitVec 32 := 0x82F63B78#32

/-- The reflected CRC with polynomial 0x82F63B78, initial value and final xor 0xFFFFFFFF. -/
def crc32c (data : Bytes) : UInt32 :=
  ⟨ReflectedCrc.crc polynomial 0xFFFFFFFF#32 0xFFFFFFFF#32 (data.map UInt8.toBitVec)⟩

theorem lowest_bit (crc : UInt32) : crc &&& 1 ≠ 0 ↔ crc.toBitVec.getLsbD 0 = true := by
  rw [ne_eq, ← UInt32.toBitVec_inj, UInt32.toBitVec_and, show (1 : UInt32).toBitVec = 1#32 from rfl,
    BitVec.and_one_eq_setWidth_ofBool_getLsbD]
  cases crc.toBitVec.getLsbD 0 with
  | false => decide
  | true => decide

theorem shiftBranch_eq (crc : UInt32) : shiftBranch crc = shiftXor crc := by
  unfold shiftBranch shiftXor
  by_cases falls : crc &&& 1 ≠ 0
  · rw [if_pos falls, if_pos falls]
  · rw [if_neg falls, if_neg falls, UInt32.xor_zero]

theorem shiftXor_toBitVec (crc : UInt32) :
    (shiftXor crc).toBitVec = ReflectedCrc.shift polynomial crc.toBitVec := by
  unfold shiftXor ReflectedCrc.shift
  rw [UInt32.toBitVec_xor, UInt32.toBitVec_shiftRight]
  by_cases falls : crc &&& 1 ≠ 0
  · rw [if_pos falls, if_pos ((lowest_bit crc).mp falls)]
    rfl
  · rw [if_neg falls, if_neg fun set => falls ((lowest_bit crc).mpr set)]
    rfl

theorem shifts_toBitVec (n : Nat) (crc : UInt32) :
    (Nat.repeat shiftXor n crc).toBitVec = ReflectedCrc.shifts polynomial n crc.toBitVec := by
  induction n with
  | zero => rfl
  | succ n ih => exact (shiftXor_toBitVec _).trans (congrArg _ ih)

theorem byte_toBitVec (byte : UInt8) : byte.toUInt32.toBitVec = byte.toBitVec.setWidth 32 := rfl

theorem loop_eq {body : UInt32 → UInt8 → UInt32}
    (takes : ∀ crc byte, (body crc byte).toBitVec =
      (ReflectedCrc.bits byte.toBitVec).foldl (ReflectedCrc.feed polynomial) crc.toBitVec)
    (data : Bytes) : loop body data = crc32c data := by
  have steps : ∀ start : UInt32, (data.foldl body start).toBitVec =
      ReflectedCrc.register polynomial start.toBitVec (data.map UInt8.toBitVec) := by
    induction data with
    | nil => intro start; rfl
    | cons byte rest ih =>
      intro start
      rw [List.foldl_cons, ih, takes, List.map_cons, ReflectedCrc.register_cons]
  apply UInt32.toBitVec_inj.mp
  rw [loop, UInt32.toBitVec_xor, steps]
  rfl

theorem loop_shifts (data : Bytes) : loop (shiftByte shiftXor) data = crc32c data := by
  apply loop_eq
  intro crc byte
  rw [shiftByte, shifts_toBitVec, UInt32.toBitVec_xor, byte_toBitVec,
    ReflectedCrc.shifts_byte polynomial (by decide)]

theorem loop_table (data : Bytes) : loop (tableByte (tableEntry shiftXor)) data = crc32c data := by
  apply loop_eq
  intro crc byte
  rw [tableByte, tableEntry, UInt32.toBitVec_xor, shifts_toBitVec, UInt32.toBitVec_and,
    UInt32.toBitVec_xor, byte_toBitVec, BitVec.xor_comm]
  exact ReflectedCrc.table_byte polynomial (by decide) crc.toBitVec byte.toBitVec

theorem crc32c_detects (front rest : Bytes) {x y : UInt8} (differs : x ≠ y) :
    crc32c (front ++ x :: rest) ≠ crc32c (front ++ y :: rest) := by
  intro same
  have words := congrArg UInt32.toBitVec same
  simp only [crc32c, List.map_append, List.map_cons] at words
  have bytes : x.toBitVec ≠ y.toBitVec := fun equal => differs (UInt8.toBitVec_inj.mp equal)
  exact ReflectedCrc.crc_detects (by decide) (by decide) _ _ _ _ bytes words

theorem crc32c_set_ne {data : Bytes} {i : Nat} {b : UInt8} (inside : i < data.length)
    (changed : data[i]? ≠ some b) : crc32c (data.set i b) ≠ crc32c data := by
  have differs : b ≠ data[i] := by
    intro same
    exact changed (by rw [List.getElem?_eq_getElem inside, same])
  have split : data = data.take i ++ data[i] :: data.drop (i + 1) := by
    rw [List.getElem_cons_drop, List.take_append_drop]
  rw [List.set_eq_take_append_cons_drop, if_pos inside]
  nth_rewrite 3 [split]
  exact crc32c_detects _ _ differs

end Crc32c
