import Mathlib.Data.List.TakeWhile
import Mathlib.Data.Nat.Digits.Lemmas
import HyperDisk.Foundations.LittleEndian

/- Decimal text as the C library writes and reads it: to_string, strtok_r and strtoull
   on byte strings without their terminating NUL. -/
namespace DecimalText
open LittleEndian

def digitByte (d : Nat) : UInt8 := UInt8.ofNat (48 + d)

def decimal (n : Nat) : Bytes :=
  if n = 0 then [48] else (Nat.digits 10 n).reverse.map digitByte

def signedDecimal (n : Int) : Bytes :=
  if n < 0 then 45 :: decimal n.natAbs else decimal n.natAbs

def zeroPadded (width : Nat) (n : Int) : Bytes :=
  if n < 0 then
    45 :: (List.replicate (width - 1 - (decimal n.natAbs).length) 48 ++ decimal n.natAbs)
  else List.replicate (width - (decimal n.natAbs).length) 48 ++ decimal n.natAbs

def ascii (text : List Char) : Bytes := text.map fun c => UInt8.ofNat c.toNat

def isSpace (b : UInt8) : Bool := b == 32 || (9 ≤ b && b ≤ 13)
def isDigit (b : UInt8) : Bool := 48 ≤ b && b ≤ 57

def digitsValue (s : Bytes) : Nat := s.foldl (fun acc b => acc * 10 + (b.toNat - 48)) 0

def splitSign : Bytes → Bool × Bytes
  | 43 :: rest => (false, rest)
  | 45 :: rest => (true, rest)
  | s => (false, s)

/-- strtoull in base 10: no digits read as 0, and too many saturate at ULLONG_MAX. -/
def strtoull (s : Bytes) : UInt64 :=
  let (negative, rest) := splitSign (s.dropWhile isSpace)
  let value := digitsValue (rest.takeWhile isDigit)
  if 2 ^ 64 ≤ value then UInt64.ofNat (2 ^ 64 - 1)
  else if negative then 0 - UInt64.ofNat value
  else UInt64.ofNat value

/-- std::stoi, with `none` for its exceptions: no digits, or a number that is no int. -/
def stoi (s : Bytes) : Option Int :=
  let (negative, rest) := splitSign (s.dropWhile isSpace)
  let digits := rest.takeWhile isDigit
  let value : Int := if negative then -(digitsValue digits : Int) else digitsValue digits
  if digits = [] then none
  else if -2 ^ 31 ≤ value ∧ value < 2 ^ 31 then some value
  else none

/-- One call of strtok_r with a single delimiter: the token, and what the save pointer
    is left at. A delimiter run in front of the token is skipped. -/
def strtok (delim : UInt8) (s : Bytes) : Option Bytes × Bytes :=
  match s.dropWhile (· == delim) with
  | [] => (none, [])
  | b :: bs =>
    (some ((b :: bs).takeWhile (· != delim)), ((b :: bs).dropWhile (· != delim)).drop 1)

theorem digitByte_toNat {d : Nat} (small : d < 10) : (digitByte d).toNat = 48 + d := by
  rw [digitByte, UInt8.toNat_ofNat']
  omega

theorem isDigit_iff (b : UInt8) : isDigit b = true ↔ 48 ≤ b.toNat ∧ b.toNat ≤ 57 := by
  simp [isDigit, UInt8.le_iff_toNat_le]

theorem decimal_ne_nil (n : Nat) : decimal n ≠ [] := by
  unfold decimal
  split
  · simp
  · rename_i positive
    simpa [Nat.digits_eq_nil_iff_eq_zero] using positive

theorem decimal_digits (n : Nat) : ∀ b ∈ decimal n, isDigit b = true := by
  intro b member
  unfold decimal at member
  split at member
  · simp at member
    subst b
    decide
  · simp only [List.mem_map, List.mem_reverse] at member
    obtain ⟨d, digit, rfl⟩ := member
    have small := Nat.digits_lt_base (by decide) digit
    rw [isDigit_iff, digitByte_toNat small]
    omega

theorem takeWhile_ended {rest : Bytes} (ends : ∀ b ∈ rest.head?, isDigit b = false) :
    rest.takeWhile isDigit = [] := by
  cases rest with
  | nil => rfl
  | cons b bs => exact List.takeWhile_cons_of_neg (by simp [ends b rfl])

theorem digitsValue_append_one (s : Bytes) (b : UInt8) :
    digitsValue (s ++ [b]) = digitsValue s * 10 + (b.toNat - 48) := by
  simp [digitsValue]

theorem digitsValue_map_reverse (ds : List Nat) (small : ∀ d ∈ ds, d < 10) :
    digitsValue (ds.reverse.map digitByte) = Nat.ofDigits 10 ds := by
  induction ds with
  | nil => rfl
  | cons d ds ih =>
    have last := digitByte_toNat (small d (by simp))
    rw [List.reverse_cons, List.map_append, List.map_cons, List.map_nil, digitsValue_append_one,
      ih (by intro x hx; exact small x (by simp [hx])), last, Nat.ofDigits_cons]
    omega

theorem digitsValue_take_decimal (n k : Nat) :
    digitsValue ((decimal n).take k) = n / 10 ^ ((decimal n).length - k) := by
  by_cases zero : n = 0
  · subst zero
    cases k <;> simp [decimal, digitsValue]
  · have text : decimal n = (Nat.digits 10 n).reverse.map digitByte := if_neg zero
    have length : (decimal n).length = (Nat.digits 10 n).length := by simp [text]
    rw [length, text, ← List.map_take, List.take_reverse]
    rw [digitsValue_map_reverse _ (by
      intro d member
      exact Nat.digits_lt_base (by decide) (List.mem_of_mem_drop member))]
    exact (Nat.self_div_pow_eq_ofDigits_drop _ n (by decide)).symm

theorem digitsValue_decimal (n : Nat) : digitsValue (decimal n) = n := by
  have h := digitsValue_take_decimal n (decimal n).length
  simpa using h

theorem decimal_injective {m n : Nat} (same : decimal m = decimal n) : m = n := by
  rw [← digitsValue_decimal m, same, digitsValue_decimal]

theorem decimal_append_inj {m n : Nat} {x y : Bytes} (endsX : ∀ b ∈ x.head?, isDigit b = false)
    (endsY : ∀ b ∈ y.head?, isDigit b = false) (same : decimal m ++ x = decimal n ++ y) :
    m = n ∧ x = y := by
  have read : ∀ (k : Nat) {rest : Bytes}, (∀ b ∈ rest.head?, isDigit b = false) →
      (decimal k ++ rest).takeWhile isDigit = decimal k := by
    intro k rest ends
    rw [List.takeWhile_append_of_pos (decimal_digits k), takeWhile_ended ends, List.append_nil]
  have digits := congrArg (List.takeWhile isDigit) same
  rw [read m endsX, read n endsY] at digits
  obtain rfl := decimal_injective digits
  exact ⟨rfl, List.append_cancel_left same⟩

theorem decimal_length_le {n k : Nat} (positive : 0 < k) (small : n < 10 ^ k) :
    (decimal n).length ≤ k := by
  by_cases zero : n = 0
  · simp [decimal, zero]
    omega
  · have text : decimal n = (Nat.digits 10 n).reverse.map digitByte := if_neg zero
    rw [text, List.length_map, List.length_reverse]
    exact (Nat.digits_length_le_iff (by decide) n).mpr small

theorem digitsValue_zeros (k : Nat) (s : Bytes) :
    digitsValue (List.replicate k 48 ++ s) = digitsValue s := by
  induction k with
  | zero => rfl
  | succ k ih =>
    rw [List.replicate_succ, List.cons_append]
    exact ih

theorem zeroPadded_injective {width : Nat} {m n : Int}
    (same : zeroPadded width m = zeroPadded width n) : m = n := by
  have noSign : ∀ (k : Nat) (i : Nat) (t : Bytes), List.replicate k 48 ++ decimal i ≠ 45 :: t := by
    intro k i t eq
    have member : (45 : UInt8) ∈ List.replicate k 48 ++ decimal i := by simp [eq]
    rcases List.mem_append.mp member with zero | digit
    · simp at zero
    · exact absurd (decimal_digits i 45 digit) (by decide)
  have value : ∀ {j k a b : Nat}, List.replicate j 48 ++ decimal a =
      List.replicate k 48 ++ decimal b →
      a = b := by
    intro j k a b eq
    have values := congrArg digitsValue eq
    simpa only [digitsValue_zeros, digitsValue_decimal] using values
  unfold zeroPadded at same
  split at same <;> split at same
  · have := value (List.cons.inj same).2
    omega
  · exact absurd same.symm (noSign _ _ _)
  · exact absurd same (noSign _ _ _)
  · have := value same
    omega

theorem strtoull_of_digits {s : Bytes} (digits : ∀ b ∈ s, isDigit b = true)
    (small : digitsValue s < 2 ^ 64) : strtoull s = UInt64.ofNat (digitsValue s) := by
  have all : s.takeWhile isDigit = s := List.takeWhile_eq_self_iff.mpr digits
  have plain : splitSign (s.dropWhile isSpace) = (false, s) := by
    cases s with
    | nil => rfl
    | cons b bs =>
      have bounds := (isDigit_iff b).mp (digits b (by simp))
      have blank : isSpace b = false := by
        by_contra h
        simp [isSpace, UInt8.le_iff_toNat_le, ← UInt8.toNat_inj] at h
        omega
      rw [List.dropWhile_cons_of_neg (by simp [blank])]
      unfold splitSign
      split
      · rename_i eq
        cases List.cons.inj eq
        simp_all
      · rename_i eq
        simp_all
      · rfl
  unfold strtoull
  rw [plain]
  simp only [all, if_neg (Nat.not_le.mpr small), Bool.false_eq_true, if_false]

theorem strtok_word {s : Bytes} {delim : UInt8} (rest : Bytes) (nonempty : s ≠ [])
    (free : delim ∉ s) :
    strtok delim (s ++ delim :: rest) = (some s, rest) ∧ strtok delim s = (some s, []) := by
  have differs : ∀ b ∈ s, b ≠ delim := by
    rintro b member rfl
    exact free member
  have word : ∀ b ∈ s, (b != delim) = true := by
    intro b member
    simpa using differs b member
  have front : ∀ tail, (s ++ tail).dropWhile (· == delim) = s ++ tail := by
    intro tail
    obtain ⟨b, bs, rfl⟩ := List.exists_cons_of_ne_nil nonempty
    exact List.dropWhile_cons_of_neg (by simpa using differs b (by simp))
  have token : ∀ tail, strtok delim (s ++ tail) =
      (some ((s ++ tail).takeWhile (· != delim)), ((s ++ tail).dropWhile (· != delim)).drop 1) := by
    intro tail
    unfold strtok
    rw [front]
    obtain ⟨b, bs, rfl⟩ := List.exists_cons_of_ne_nil nonempty
    rfl
  constructor
  · rw [token, List.takeWhile_append_of_pos word, List.dropWhile_append_of_pos word]
    simp
  · have alone := token []
    rw [List.append_nil] at alone
    rw [alone, List.takeWhile_eq_self_iff.mpr word, List.dropWhile_eq_nil_iff.mpr word]
    rfl

theorem strtok_digits {s : Bytes} {delim : UInt8} (rest : Bytes) (nonempty : s ≠ [])
    (digits : ∀ b ∈ s, isDigit b = true) (other : isDigit delim = false) :
    strtok delim (s ++ delim :: rest) = (some s, rest) ∧ strtok delim s = (some s, []) := by
  apply strtok_word rest nonempty
  intro member
  rw [digits delim member] at other
  cases other

theorem strtoull_decimal {n : Nat} (small : n < 2 ^ 64) :
    strtoull (decimal n) = UInt64.ofNat n := by
  rw [strtoull_of_digits (decimal_digits n) (by rwa [digitsValue_decimal]), digitsValue_decimal]

theorem splitSign_digits {s : Bytes} (nonempty : s ≠ []) (digits : ∀ b ∈ s, isDigit b = true)
    (rest : Bytes) : splitSign ((s ++ rest).dropWhile isSpace) = (false, s ++ rest) := by
  obtain ⟨b, bs, rfl⟩ := List.exists_cons_of_ne_nil nonempty
  have bounds := (isDigit_iff b).mp (digits b (by simp))
  have differs : ∀ c : UInt8, c.toNat < 48 → b ≠ c := by
    rintro c small rfl
    omega
  have blank : isSpace b = false := by
    by_contra space
    simp [isSpace, UInt8.le_iff_toNat_le, ← UInt8.toNat_inj] at space
    omega
  rw [List.cons_append, List.dropWhile_cons_of_neg (by simp [blank])]
  unfold splitSign
  split
  · rename_i same
    exact absurd (List.cons.inj same).1 (differs _ (by decide))
  · rename_i same
    exact absurd (List.cons.inj same).1 (differs _ (by decide))
  · rfl

theorem stoi_decimal (n : Nat) (rest : Bytes) (ends : ∀ b ∈ rest.head?, isDigit b = false) :
    stoi (decimal n ++ rest) = if n < 2 ^ 31 then some (n : Int) else none := by
  unfold stoi
  rw [splitSign_digits (decimal_ne_nil n) (decimal_digits n)]
  simp only [List.takeWhile_append_of_pos (decimal_digits n), takeWhile_ended ends, List.append_nil,
    decimal_ne_nil, digitsValue_decimal, Bool.false_eq_true, if_false]
  by_cases small : n < 2 ^ 31
  · rw [if_pos small, if_pos (by omega)]
  · rw [if_neg small, if_neg (by omega)]

end DecimalText
