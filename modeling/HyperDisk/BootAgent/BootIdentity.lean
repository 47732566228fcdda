import Mathlib.Data.Nat.Bitwise
import Mathlib.Tactic.IntervalCases
import HyperDisk.Foundations.DecimalText
import HyperDisk.Foundations.HexText

/- The ids under which the boot agent reports a boot: GenerateUUID, the text of the MAC address
   and GenerateBootId (boot_agent/main.cpp). Texts are byte strings without their NUL. The
   steady clock is not negative, so its signed count shifts like an unsigned one. -/
namespace BootIdentity
open LittleEndian DecimalText HexText

structure Words where
  d0 : UInt32
  d1 : UInt32
  d2 : UInt32
  d3 : UInt32
  deriving DecidableEq, Repr

def clockWords (now : UInt64) : Words :=
  ⟨(now &&& 0xFFFFFFFF).toUInt32, (now >>> 32).toUInt32, (now >>> 16).toUInt32,
    (now >>> 48).toUInt32⟩

def uuidText (w : Words) : Bytes :=
  let d0 := (w.d0 &&& 0xFFFF0FFF) ||| 0x00004000
  let d1 := (w.d1 &&& 0x0FFFFFFF) ||| 0x80000000
  hexPadded .lower 8 d0.toNat ++ 45 :: hexPadded .lower 4 (d1 >>> 16).toNat ++
    45 :: hexPadded .lower 4 (d1 &&& 0xFFFF).toNat ++
      45 :: hexPadded .lower 4 (w.d2 >>> 16).toNat ++
    45 :: hexPadded .lower 4 (w.d2 &&& 0xFFFF).toNat ++ hexPadded .lower 8 w.d3.toNat

/-- GenerateUUID; the random words are missing when BCryptGenRandom fails. -/
def generateUUID (random : Option Words) (now : UInt64) : Bytes :=
  match random with
  | some words => uuidText words
  | none => uuidText (clockWords now)

def macText (b0 b1 b2 b3 b4 b5 : UInt8) : Bytes :=
  hexPadded .upper 2 b0.toNat ++ 58 :: hexPadded .upper 2 b1.toNat ++
    58 :: hexPadded .upper 2 b2.toNat ++
    58 :: hexPadded .upper 2 b3.toNat ++ 58 :: hexPadded .upper 2 b4.toNat ++
      58 :: hexPadded .upper 2 b5.toNat

structure Adapter where
  physicalAddress : Bytes
  ifType : UInt32
  deriving DecidableEq, Repr

def ifTypeEthernetCsmacd : UInt32 := 6
def ifTypeIeee80211 : UInt32 := 71

def usableAdapter (a : Adapter) : Bool :=
  a.physicalAddress.length == 6 && (a.ifType == ifTypeEthernetCsmacd || a.ifType == ifTypeIeee80211)

/-- BootAgent::GetMacAddress: the first usable adapter gives the address; without one, or when
    the adapters cannot be listed, the address stays as it is. -/
def getMacAddress (adapters : Option (List Adapter)) (macAddress : Bytes) : Bytes :=
  match (adapters.getD []).find? usableAdapter with
  | some a =>
    match a.physicalAddress with
    | [b0, b1, b2, b3, b4, b5] => macText b0 b1 b2 b3 b4 b5
    | _ => macAddress
  | none => macAddress

structure Entropy where
  random : Option Words
  now : UInt64
  deriving DecidableEq, Repr

def Entropy.uuid (e : Entropy) : Bytes := generateUUID e.random e.now

def generateBootId (macAddress : Bytes) (first second : Entropy) : Bytes × Bytes :=
  (first.uuid, if macAddress ≠ [] then macAddress else second.uuid)

theorem version_bits (d : UInt32) :
    ((d &&& 0xFFFF0FFF) ||| 0x00004000).toNat =
      d.toNat / 65536 * 65536 + 16384 + d.toNat % 4096 := by
  have small := d.toNat_lt
  have whole : d.toNat / 65536 * 65536 + 16384 + d.toNat % 4096 =
      (d.toNat / 2 ^ 16) <<< 16 ||| (1 <<< 14 ||| d.toNat % 2 ^ 12) := by
    rw [← Nat.shiftLeft_add_eq_or_of_lt (show d.toNat % 2 ^ 12 < 2 ^ 14 by omega),
      ← Nat.shiftLeft_add_eq_or_of_lt (show 1 <<< 14 + d.toNat % 2 ^ 12 < 2 ^ 16 by omega)]
    simp only [Nat.shiftLeft_eq]
    omega
  rw [whole]
  apply Nat.eq_of_testBit_eq
  intro i
  by_cases low : i < 32
  · simp only [UInt32.toNat_or, UInt32.toNat_and, Nat.testBit_or, Nat.testBit_and,
      Nat.testBit_shiftLeft, Nat.testBit_mod_two_pow, Nat.testBit_div_two_pow]
    interval_cases i <;> simp [Nat.testBit]
  · have big : ∀ {n : Nat}, n < 2 ^ 32 → n.testBit i = false := fun bound =>
      Nat.testBit_eq_false_of_lt (bound.trans_le (Nat.pow_le_pow_right (by decide) (by omega)))
    rw [big (UInt32.toNat_lt _), big (by rw [← whole]; omega)]

theorem variant_bits (d : UInt32) :
    ((d &&& 0x0FFFFFFF) ||| 0x80000000).toNat = d.toNat % 2 ^ 28 + 2 ^ 31 := by
  have mask : d.toNat &&& 0x0FFFFFFF = d.toNat % 2 ^ 28 := Nat.and_two_pow_sub_one_eq_mod d.toNat 28
  have sum := Nat.shiftLeft_add_eq_or_of_lt (show d.toNat % 2 ^ 28 < 2 ^ 31 by omega) 1
  rw [UInt32.toNat_or, UInt32.toNat_and]
  show d.toNat &&& 0x0FFFFFFF ||| 1 <<< 31 = _
  rw [mask, Nat.or_comm, ← sum, Nat.shiftLeft_eq]
  omega

theorem low_bits (d : UInt32) : (d &&& 0xFFFF).toNat = d.toNat % 2 ^ 16 := by
  rw [UInt32.toNat_and]
  exact Nat.and_two_pow_sub_one_eq_mod d.toNat 16

theorem high_bits (d : UInt32) : (d >>> 16).toNat = d.toNat / 2 ^ 16 := by
  rw [UInt32.toNat_shiftRight]
  exact Nat.shiftRight_eq_div_pow d.toNat 16

theorem uuidText_eq (w : Words) : uuidText w =
    hexFixed .lower 8 (w.d0.toNat / 65536 * 65536 + 16384 + w.d0.toNat % 4096) ++
    (45 :: hexFixed .lower 4 ((w.d1.toNat % 2 ^ 28 + 2 ^ 31) / 2 ^ 16)) ++
    (45 :: hexFixed .lower 4 ((w.d1.toNat % 2 ^ 28 + 2 ^ 31) % 2 ^ 16)) ++
    (45 :: hexFixed .lower 4 (w.d2.toNat / 2 ^ 16)) ++
    (45 :: hexFixed .lower 4 (w.d2.toNat % 2 ^ 16)) ++ hexFixed .lower 8 w.d3.toNat := by
  have s0 := w.d0.toNat_lt
  have s2 := w.d2.toNat_lt
  have s3 := w.d3.toNat_lt
  simp only [uuidText, version_bits, low_bits, high_bits, variant_bits]
  rw [hexPadded_of_lt (by decide) (by omega), hexPadded_of_lt (by decide) (by omega),
    hexPadded_of_lt (by decide) (by omega), hexPadded_of_lt (by decide) (by omega),
    hexPadded_of_lt (by decide) (by omega), hexPadded_of_lt (by decide) (by omega)]

theorem append_iff {x x' y y' : Bytes} (length : x.length = x'.length) :
    x ++ y = x' ++ y' ↔ x = x' ∧ y = y' := by
  constructor
  · intro same
    exact List.append_inj same length
  · rintro ⟨rfl, rfl⟩
    rfl

theorem uuidText_eq_iff (v w : Words) : uuidText v = uuidText w ↔
    (v.d0.toNat / 65536 = w.d0.toNat / 65536 ∧ v.d0.toNat % 4096 = w.d0.toNat % 4096) ∧
    v.d1.toNat % 2 ^ 28 = w.d1.toNat % 2 ^ 28 ∧ v.d2 = w.d2 ∧ v.d3 = w.d3 := by
  have v0 := v.d0.toNat_lt
  have w0 := w.d0.toNat_lt
  have v2 := v.d2.toNat_lt
  have w2 := w.d2.toNat_lt
  have v3 := v.d3.toNat_lt
  have w3 := w.d3.toNat_lt
  rw [uuidText_eq, uuidText_eq]
  simp only [List.append_assoc, List.cons_append]
  rw [append_iff (by simp [hexFixed_length]), List.cons.injEq,
    append_iff (by simp [hexFixed_length]), List.cons.injEq, append_iff (by simp [hexFixed_length]),
    List.cons.injEq,
    append_iff (by simp [hexFixed_length]), List.cons.injEq, append_iff (by simp [hexFixed_length])]
  simp only [hexFixed_eq_iff, true_and, ← UInt32.toNat_inj]
  omega

structure Grouped (a b c d e : Bytes) : Prop where
  lengths : a.length = 8 ∧ b.length = 4 ∧ c.length = 4 ∧ d.length = 4 ∧ e.length = 12
  digits : ∀ x ∈ a ++ b ++ c ++ d ++ e, IsHex .lower x
  four : a[4]? = some 52
  eight : b[0]? = some 56

theorem uuidText_grouped (w : Words) : ∃ a b c d e,
    uuidText w = a ++ 45 :: b ++ 45 :: c ++ 45 :: d ++ 45 :: e ∧ Grouped a b c d e := by
  have small := w.d0.toNat_lt
  rw [uuidText_eq]
  refine ⟨hexFixed .lower 8 (w.d0.toNat / 65536 * 65536 + 16384 + w.d0.toNat % 4096),
    hexFixed .lower 4 ((w.d1.toNat % 2 ^ 28 + 2 ^ 31) / 2 ^ 16),
    hexFixed .lower 4 ((w.d1.toNat % 2 ^ 28 + 2 ^ 31) % 2 ^ 16),
      hexFixed .lower 4 (w.d2.toNat / 2 ^ 16),
    hexFixed .lower 4 (w.d2.toNat % 2 ^ 16) ++ hexFixed .lower 8 w.d3.toNat, ?_, ?_⟩
  · simp only [List.append_assoc, List.cons_append]
  · constructor
    · simp [hexFixed_length]
    · intro x here
      simp only [List.mem_append] at here
      rcases here with (((h | h) | h) | h) | h | h <;> exact hexFixed_hex _ _ x h
    · rw [hexFixed_getElem? (by decide)]
      have digit : (w.d0.toNat / 65536 * 65536 + 16384 +
          w.d0.toNat % 4096) / 16 ^ (8 - 1 - 4) % 16 = 4 := by omega
      rw [digit]
      rfl
    · rw [hexFixed_getElem? (by decide)]
      have digit : (w.d1.toNat % 2 ^ 28 + 2 ^ 31) / 2 ^ 16 / 16 ^ (4 - 1 - 0) % 16 = 8 := by omega
      rw [digit]
      rfl

theorem uuid_length (e : Entropy) : e.uuid.length = 36 := by
  have text : ∀ w : Words, (uuidText w).length = 36 := by
    intro w
    simp [uuidText_eq, hexFixed_length]
  unfold Entropy.uuid generateUUID
  split <;> exact text _

theorem clockWords_eq_iff (now later : UInt64) :
    uuidText (clockWords now) = uuidText (clockWords later) ↔
      now.toNat / 65536 = later.toNat / 65536 ∧ now.toNat % 4096 = later.toNat % 4096 := by
  have s := now.toNat_lt
  have t := later.toNat_lt
  have low : ∀ n : UInt64, (n &&& 0xFFFFFFFF).toUInt32.toNat = n.toNat % 2 ^ 32 := by
    intro n
    rw [UInt64.toNat_toUInt32, UInt64.toNat_and]
    have mask : n.toNat &&& 0xFFFFFFFF = n.toNat % 2 ^ 32 :=
      Nat.and_two_pow_sub_one_eq_mod n.toNat 32
    show (n.toNat &&& 0xFFFFFFFF) % 2 ^ 32 = _
    rw [mask, Nat.mod_mod]
  have shifted : ∀ (n k : UInt64), k.toNat < 64 →
      (n >>> k).toUInt32.toNat = n.toNat / 2 ^ k.toNat % 2 ^ 32 := by
    intro n k small
    rw [UInt64.toNat_toUInt32, UInt64.toNat_shiftRight, Nat.mod_eq_of_lt small,
      Nat.shiftRight_eq_div_pow]
  rw [uuidText_eq_iff]
  simp only [clockWords, ← UInt32.toNat_inj, low, shifted _ 32 (by decide),
    shifted _ 16 (by decide), shifted _ 48 (by decide), UInt64.reduceToNat]
  constructor
  · intro same
    omega
  · rintro ⟨high, rest⟩
    have word : now.toNat / 2 ^ 32 = later.toNat / 2 ^ 32 := by omega
    have top : now.toNat / 2 ^ 48 = later.toNat / 2 ^ 48 := by omega
    rw [word, top, show now.toNat / 2 ^ 16 = later.toNat / 2 ^ 16 from high]
    exact ⟨⟨by omega, by omega⟩, rfl, rfl, rfl⟩

/-- The boot id is always five groups of lowercase digits, 36 bytes in all, the fifth digit a 4
    and the ninth an 8. With random words two ids agree exactly when the words agree outside
    the eight bits those digits overwrite; without them, exactly when the clock readings agree
    outside their bits 12 to 15. -/
theorem boot_id_text :
    (∀ random now, ∃ a b c d e,
      generateUUID random now = a ++ 45 :: b ++ 45 :: c ++ 45 :: d ++ 45 :: e ∧ Grouped a b c d e) ∧
    (∀ (v w : Words) (now later : UInt64),
      generateUUID (some v) now = generateUUID (some w) later ↔
        (v.d0.toNat / 65536 = w.d0.toNat / 65536 ∧ v.d0.toNat % 4096 = w.d0.toNat % 4096) ∧
        v.d1.toNat % 2 ^ 28 = w.d1.toNat % 2 ^ 28 ∧ v.d2 = w.d2 ∧ v.d3 = w.d3) ∧
    ∀ now later : UInt64, generateUUID none now = generateUUID none later ↔
      now.toNat / 65536 = later.toNat / 65536 ∧ now.toNat % 4096 = later.toNat % 4096 := by
  refine ⟨?_, fun v w _ _ => uuidText_eq_iff v w, clockWords_eq_iff⟩
  intro random now
  cases random with
  | some words => exact uuidText_grouped words
  | none => exact uuidText_grouped (clockWords now)

end BootIdentity
