import Mathlib.Data.List.Basic

/- Reflected cyclic redundancy checks over a register of any width. The register moves towards
   its low end, and the polynomial is added whenever the bit that falls out differs from the
   next bit of the message, which is read from the low end of each byte. -/
namespace ReflectedCrc
variable {w : Nat} (poly : BitVec w)

def feed (crc : BitVec w) (bit : Bool) : BitVec w :=
  (crc >>> 1) ^^^ (if (crc.getLsbD 0 ^^ bit) = true then poly else 0#w)

def bits (byte : BitVec 8) : List Bool := (List.range 8).map byte.getLsbD

def register (start : BitVec w) (message : List (BitVec 8)) : BitVec w :=
  (message.flatMap bits).foldl (feed poly) start

def crc (start final : BitVec w) (message : List (BitVec 8)) : BitVec w :=
  register poly start message ^^^ final

def shift (crc : BitVec w) : BitVec w :=
  (crc >>> 1) ^^^ (if crc.getLsbD 0 = true then poly else 0#w)

def shifts (n : Nat) (crc : BitVec w) : BitVec w := Nat.repeat (shift poly) n crc

theorem shift_add (crc word : BitVec w) :
    shift poly (crc ^^^ word) = feed poly crc (word.getLsbD 0) ^^^ (word >>> 1) := by
  unfold shift feed
  rw [BitVec.getLsbD_xor, BitVec.ushiftRight_xor_distrib, BitVec.xor_assoc, BitVec.xor_assoc,
    BitVec.xor_comm (word >>> 1)]

theorem shifts_add (n : Nat) (crc word : BitVec w) :
    shifts poly n (crc ^^^ word) =
      ((List.range n).map word.getLsbD).foldl (feed poly) crc ^^^ (word >>> n) := by
  induction n with
  | zero => rw [BitVec.ushiftRight_zero]; rfl
  | succ n ih =>
    have next : shifts poly (n + 1) (crc ^^^ word) = shift poly (shifts poly n (crc ^^^ word)) :=
      rfl
    have lowest : (word >>> n).getLsbD 0 = word.getLsbD n := by
      rw [BitVec.getLsbD_ushiftRight, Nat.add_zero]
    rw [next, ih, shift_add, lowest, List.range_succ, List.map_append, List.foldl_append,
      BitVec.shiftRight_add]
    rfl

theorem byte_shifted_out (byte : BitVec 8) : (byte.setWidth w) >>> 8 = 0#w := by
  apply BitVec.eq_of_getLsbD_eq
  intro i _
  rw [BitVec.getLsbD_ushiftRight, BitVec.getLsbD_setWidth,
    BitVec.getLsbD_of_ge byte (8 + i) (by omega), Bool.and_false, BitVec.getLsbD_zero]

/-- A byte added to the register at once and shifted out bit by bit. -/
theorem shifts_byte (wide : 8 ≤ w) (crc : BitVec w) (byte : BitVec 8) :
    shifts poly 8 (crc ^^^ byte.setWidth w) = (bits byte).foldl (feed poly) crc := by
  have low : (List.range 8).map (byte.setWidth w).getLsbD = bits byte := by
    apply List.map_congr_left
    intro i inside
    have small := List.mem_range.mp inside
    rw [BitVec.getLsbD_setWidth, decide_eq_true (by omega), Bool.true_and]
  rw [shifts_add, low, byte_shifted_out, BitVec.xor_zero]

theorem low_byte_bit (word : BitVec w) (i : Nat) :
    (word &&& 255#w).getLsbD i = (word.getLsbD i && decide (i < 8)) := by
  rw [BitVec.getLsbD_and, BitVec.getLsbD_ofNat, show 255 = 2 ^ 8 - 1 from rfl,
    Nat.testBit_two_pow_sub_one]
  by_cases inside : i < w
  · rw [decide_eq_true inside, Bool.true_and]
  · rw [BitVec.getLsbD_of_ge word i (by omega), Bool.false_and, Bool.false_and]

theorem shifts_eight (word : BitVec w) :
    shifts poly 8 word = shifts poly 8 (word &&& 255#w) ^^^ (word >>> 8) := by
  have same : (List.range 8).map (word &&& 255#w).getLsbD = (List.range 8).map word.getLsbD := by
    apply List.map_congr_left
    intro i inside
    rw [low_byte_bit, decide_eq_true (List.mem_range.mp inside), Bool.and_true]
  have gone : (word &&& 255#w) >>> 8 = 0#w := by
    apply BitVec.eq_of_getLsbD_eq
    intro i _
    rw [BitVec.getLsbD_ushiftRight, low_byte_bit, decide_eq_false (by omega), Bool.and_false,
      BitVec.getLsbD_zero]
  have whole := shifts_add poly 8 0#w word
  have lowest := shifts_add poly 8 0#w (word &&& 255#w)
  rw [BitVec.zero_xor] at whole lowest
  rw [whole, lowest, same, gone, BitVec.xor_zero]

theorem table_byte (wide : 8 ≤ w) (crc : BitVec w) (byte : BitVec 8) :
    shifts poly 8 ((crc ^^^ byte.setWidth w) &&& 255#w) ^^^ (crc >>> 8) =
      (bits byte).foldl (feed poly) crc := by
  rw [← shifts_byte poly wide, shifts_eight poly (crc ^^^ byte.setWidth w),
    BitVec.ushiftRight_xor_distrib, byte_shifted_out, BitVec.xor_zero]

theorem register_cons (start : BitVec w) (byte : BitVec 8) (rest : List (BitVec 8)) :
    register poly start (byte :: rest) =
      register poly ((bits byte).foldl (feed poly) start) rest := by
  rw [register, register, List.flatMap_cons, List.foldl_append]

section Detection
variable {poly} (top : poly.msb = true)
include top

theorem feed_msb (crc : BitVec w) (bit : Bool) :
    (feed poly crc bit).msb = (crc.getLsbD 0 ^^ bit) := by
  rw [feed, BitVec.msb_xor, BitVec.msb_ushiftRight]
  cases crc.getLsbD 0 ^^ bit <;> simp [top]

theorem feed_injective {a b : BitVec w} {bit : Bool} (same : feed poly a bit = feed poly b bit) :
    a = b := by
  have lowest : (a.getLsbD 0 ^^ bit) = (b.getLsbD 0 ^^ bit) := by
    rw [← feed_msb top, ← feed_msb top, same]
  rw [feed, feed, lowest] at same
  have rest : a >>> 1 = b >>> 1 := (BitVec.xor_left_inj _).mp same
  apply BitVec.eq_of_getLsbD_eq
  intro i _
  cases i with
  | zero => simpa using lowest
  | succ i =>
    have bits := congrArg (fun word => word.getLsbD i) rest
    simpa only [BitVec.getLsbD_ushiftRight, Nat.add_comm 1 i] using bits

theorem feeds_injective (message : List Bool) {a b : BitVec w}
    (same : message.foldl (feed poly) a = message.foldl (feed poly) b) : a = b := by
  induction message generalizing a b with
  | nil => exact same
  | cons bit message ih => exact feed_injective top (ih same)

theorem shifts_injective (n : Nat) {a b : BitVec w} (same : shifts poly n a = shifts poly n b) :
    a = b := by
  induction n with
  | zero => exact same
  | succ n ih =>
    apply ih
    have stepped : ∀ crc, shift poly crc = feed poly crc false := by
      intro crc
      rw [shift, feed, Bool.xor_false]
    have last : shift poly (shifts poly n a) = shift poly (shifts poly n b) := same
    rw [stepped, stepped] at last
    exact feed_injective top last

theorem byte_injective (wide : 8 ≤ w) (crc : BitVec w) {x y : BitVec 8}
    (same : (bits x).foldl (feed poly) crc = (bits y).foldl (feed poly) crc) : x = y := by
  rw [← shifts_byte poly wide, ← shifts_byte poly wide] at same
  have words : x.setWidth w = y.setWidth w :=
    (BitVec.xor_right_inj _).mp (shifts_injective top 8 same)
  apply BitVec.eq_of_getLsbD_eq
  intro i small
  have bit := congrArg (fun word => word.getLsbD i) words
  simpa [show i < w by omega] using bit

/-- A check value tells two messages apart that differ in one byte. -/
theorem crc_detects (wide : 8 ≤ w) (start final : BitVec w) (front rest : List (BitVec 8))
    {x y : BitVec 8} (differs : x ≠ y) :
    crc poly start final (front ++ x :: rest) ≠ crc poly start final (front ++ y :: rest) := by
  intro same
  have registers : register poly start (front ++ x :: rest) =
      register poly start (front ++ y :: rest) :=
    (BitVec.xor_left_inj _).mp same
  simp only [register, List.flatMap_append, List.flatMap_cons, List.foldl_append] at registers
  exact differs (byte_injective top wide _ (feeds_injective top _ registers))

end Detection
end ReflectedCrc
