import Mathlib.Data.Nat.Digits.Lemmas
import HyperDisk.Foundations.LittleEndian

/- Numbers in hexadecimal as printf writes them with `%0<width>x` and `%0<width>X`. -/
namespace HexText
open LittleEndian

inductive Letters where
  | lower
  | upper
  deriving DecidableEq, Repr

def hexDigit (letters : Letters) (d : Nat) : UInt8 :=
  if d < 10 then UInt8.ofNat (48 + d)
  else match letters with
    | .lower => UInt8.ofNat (87 + d)
    | .upper => UInt8.ofNat (55 + d)

def hexFixed (letters : Letters) : Nat → Nat → Bytes
  | 0, _ => []
  | width + 1, n => hexFixed letters width (n / 16) ++ [hexDigit letters (n % 16)]

/-- The printf conversion: zeros fill up to the width, and a longer number is written out. -/
def hexPadded (letters : Letters) (width n : Nat) : Bytes :=
  hexFixed letters (max width (max 1 (Nat.digits 16 n).length)) n

def digitValue (b : UInt8) : Nat :=
  if b.toNat < 58 then b.toNat - 48 else if b.toNat < 97 then b.toNat - 55 else b.toNat - 87

def hexValue (text : Bytes) : Nat := text.foldl (fun acc b => acc * 16 + digitValue b) 0

def IsHex (letters : Letters) (b : UInt8) : Prop := ∃ d, d < 16 ∧ b = hexDigit letters d

variable {letters : Letters} {width n m : Nat}

theorem digitValue_digit {d : Nat} (small : d < 16) : digitValue (hexDigit letters d) = d := by
  cases letters <;> interval_cases d <;> rfl

theorem hexFixed_length (width n : Nat) : (hexFixed letters width n).length = width := by
  induction width generalizing n with
  | zero => rfl
  | succ width ih => rw [hexFixed, List.length_append, ih, List.length_singleton]

theorem hexFixed_hex (width n : Nat) : ∀ b ∈ hexFixed letters width n, IsHex letters b := by
  induction width generalizing n with
  | zero => simp [hexFixed]
  | succ width ih =>
    intro b here
    rcases List.mem_append.mp here with front | last
    · exact ih _ b front
    · exact ⟨n % 16, Nat.mod_lt n (by decide), List.mem_singleton.mp last⟩

theorem hexValue_snoc (text : Bytes) (b : UInt8) :
    hexValue (text ++ [b]) = hexValue text * 16 + digitValue b := by
  simp [hexValue]

theorem hexValue_fixed (letters : Letters) (width n : Nat) :
    hexValue (hexFixed letters width n) = n % 16 ^ width := by
  induction width generalizing n with
  | zero => simp [hexFixed, hexValue, Nat.mod_one]
  | succ width ih =>
    rw [hexFixed, hexValue_snoc, ih, digitValue_digit (Nat.mod_lt n (by decide)), Nat.pow_succ',
      Nat.mod_mul]
    omega

theorem hexFixed_eq_iff : hexFixed letters width m = hexFixed letters width n ↔
    m % 16 ^ width = n % 16 ^ width := by
  constructor
  · intro same
    rw [← hexValue_fixed letters width m, same, hexValue_fixed]
  · intro same
    induction width generalizing m n with
    | zero => rfl
    | succ width ih =>
      rw [Nat.pow_succ', Nat.mod_mul, Nat.mod_mul] at same
      have last : m % 16 = n % 16 := by omega
      have front : m / 16 % 16 ^ width = n / 16 % 16 ^ width := by omega
      rw [hexFixed, hexFixed, last, ih front]

theorem hexFixed_getElem? {i : Nat} (inside : i < width) :
    (hexFixed letters width n)[i]? = some (hexDigit letters (n / 16 ^ (width - 1 - i) % 16)) := by
  induction width generalizing n with
  | zero => omega
  | succ width ih =>
    rw [hexFixed]
    by_cases last : i = width
    · rw [List.getElem?_append_right (by rw [hexFixed_length]; omega), hexFixed_length, last]
      simp
    · rw [List.getElem?_append_left (by rw [hexFixed_length]; omega), ih (by omega),
        Nat.div_div_eq_div_mul, ← Nat.pow_succ', show (width - 1 - i).succ =
        width + 1 - 1 - i by omega]

theorem hexPadded_of_lt (positive : 0 < width) (small : n < 16 ^ width) :
    hexPadded letters width n = hexFixed letters width n := by
  have short := (Nat.digits_length_le_iff (by decide : 1 < 16) n).mpr small
  rw [hexPadded, max_eq_left (by omega)]

end HexText
