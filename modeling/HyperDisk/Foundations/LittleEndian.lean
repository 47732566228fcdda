import Mathlib.Data.Nat.Bitwise
import Mathlib.Data.List.Basic
import Mathlib.Tactic.Ring

/- Little-endian words in byte buffers. A buffer is a list; an access outside it
   is `none`, so an in-bounds result certifies every index the access used. -/
namespace LittleEndian

abbrev Bytes := List UInt8

/-- The loop `buf[off++] = (x >> (i * 8)) & 0xFF` for i below width. -/
def store : Nat → Nat → Bytes
  | 0, _ => []
  | width + 1, x => UInt8.ofNat (x &&& 0xFF) :: store width (x >>> 8)

def load : Bytes → Nat
  | [] => 0
  | b :: bs => b.toNat ||| load bs <<< 8

def slice (data : Bytes) (off width : Nat) : Option Bytes :=
  if off + width ≤ data.length then some ((data.drop off).take width) else none

/-- Indices are size_t values, so each one is reduced modulo 2^64 before the access. -/
def fetch (data : Bytes) : Nat → Nat → Option Bytes
  | _, 0 => some []
  | off, width + 1 => do
    let b ← data[off % 2 ^ 64]?
    let bs ← fetch data (off + 1) width
    some (b :: bs)

def overwrite (buf : Bytes) (off : Nat) (src : Bytes) : Option Bytes :=
  if off + src.length ≤ buf.length then
    some (buf.take off ++ src ++ buf.drop (off + src.length))
  else none

@[simp] theorem store_length (width x : Nat) : (store width x).length = width := by
  induction width generalizing x with
  | zero => rfl
  | succ width ih => simp [store, ih]

theorem load_cons (b : UInt8) (bs : Bytes) : load (b :: bs) = b.toNat + 256 * load bs := by
  have small : b.toNat < 2 ^ 8 := b.toNat_lt
  rw [load, Nat.or_comm, ← Nat.shiftLeft_add_eq_or_of_lt small, Nat.shiftLeft_eq]
  ring

theorem load_store (width x : Nat) : load (store width x) = x % 256 ^ width := by
  induction width generalizing x with
  | zero => simp [store, load, Nat.mod_one]
  | succ width ih =>
    have low : (UInt8.ofNat (x &&& 0xFF)).toNat = x % 256 := by
      have mask : x &&& 0xFF = x % 256 := Nat.and_two_pow_sub_one_eq_mod x 8
      rw [mask, UInt8.toNat_ofNat']
      omega
    rw [store, load_cons, ih, low, Nat.shiftRight_eq_div_pow, Nat.pow_succ' (n := width),
      Nat.mod_mul]

theorem load_store_of_lt {width x : Nat} (fits : x < 256 ^ width) :
    load (store width x) = x := by
  rw [load_store, Nat.mod_eq_of_lt fits]

theorem load_lt (bytes : Bytes) : load bytes < 256 ^ bytes.length := by
  induction bytes with
  | nil => decide
  | cons b bs ih =>
    have small : b.toNat < 256 := b.toNat_lt
    rw [load_cons, List.length_cons, Nat.pow_succ]
    omega

theorem store_load (bytes : Bytes) : store bytes.length (load bytes) = bytes := by
  induction bytes with
  | nil => rfl
  | cons b bs ih =>
    have small : b.toNat < 256 := b.toNat_lt
    have low : load (b :: bs) &&& 0xFF = b.toNat := by
      rw [Nat.and_two_pow_sub_one_eq_mod (load (b :: bs)) 8, load_cons]
      omega
    have high : load (b :: bs) >>> 8 = load bs := by
      rw [Nat.shiftRight_eq_div_pow, load_cons]
      omega
    rw [List.length_cons, store, low, high, ih, UInt8.ofNat_toNat]

theorem load_append (front back : Bytes) :
    load (front ++ back) = load front + 256 ^ front.length * load back := by
  induction front with
  | nil => simp [load]
  | cons b bs ih =>
    rw [List.cons_append, load_cons, load_cons, ih, List.length_cons, Nat.pow_succ]
    ring

theorem load_inj {bytes bytes' : Bytes} (length : bytes.length = bytes'.length)
    (same : load bytes = load bytes') : bytes = bytes' := by
  rw [← store_load bytes, ← store_load bytes', length, same]

theorem slice_eq_some {data : Bytes} {off width : Nat} (inside : off + width ≤ data.length) :
    slice data off width = some ((data.drop off).take width) := if_pos inside

theorem field_of_append (front mid back : Bytes) {off width : Nat} (start : front.length = off)
    (size : mid.length = width) : ((front ++ (mid ++ back)).drop off).take width = mid := by
  subst start; subst size
  rw [List.drop_left, List.take_left]

theorem fetch_eq_slice {data : Bytes} {off width : Nat} (inside : off + width ≤ data.length)
    (small : off + width ≤ 2 ^ 64) : fetch data off width = slice data off width := by
  rw [slice_eq_some inside]
  induction width generalizing off with
  | zero => simp [fetch]
  | succ width ih =>
    have first : data[off % 2 ^ 64]? = some (data[off]) := by
      rw [Nat.mod_eq_of_lt (by omega)]
      exact List.getElem?_eq_getElem (by omega)
    rw [fetch, first, ih (by omega) (by omega)]
    rw [List.drop_eq_getElem_cons (show off < data.length by omega), List.take_succ_cons]
    rfl

theorem fetch_eq_some {data : Bytes} {off width : Nat} (inside : off + width ≤ data.length)
    (small : off + width ≤ 2 ^ 64) : fetch data off width = some ((data.drop off).take width) := by
  rw [fetch_eq_slice inside small, slice_eq_some inside]

theorem fetch_in_bounds {data bytes : Bytes} {off width i : Nat}
    (h : fetch data off width = some bytes) (hi : i < width) :
    (off + i) % 2 ^ 64 < data.length := by
  induction width generalizing off i bytes with
  | zero => omega
  | succ width ih =>
    simp only [fetch, Option.bind_eq_bind, Option.bind_eq_some_iff] at h
    obtain ⟨b, hb, bs, hbs, _⟩ := h
    cases i with
    | zero => exact (List.getElem?_eq_some_iff.mp hb).1
    | succ i =>
      have next := ih hbs (i := i) (by omega)
      rwa [show off + (i + 1) = off + 1 + i by omega]

theorem overwrite_eq_some {buf src : Bytes} {off : Nat} (inside : off + src.length ≤ buf.length) :
    overwrite buf off src = some (buf.take off ++ src ++ buf.drop (off + src.length)) :=
  if_pos inside

theorem overwrite_middle (front old back : Bytes) {src : Bytes} {off : Nat}
    (start : front.length = off) (same : src.length = old.length) :
    overwrite (front ++ (old ++ back)) off src = some (front ++ (src ++ back)) := by
  subst start
  rw [overwrite_eq_some (by simp only [List.length_append]; omega), List.take_left, same,
    ← List.drop_drop, List.drop_left, List.drop_left, List.append_assoc]

theorem overwrite_length {buf buf' src : Bytes} {off : Nat}
    (done : overwrite buf off src = some buf') :
    buf'.length = buf.length ∧ off + src.length ≤ buf.length := by
  unfold overwrite at done
  split at done
  · rename_i inside
    cases done
    simp only [List.length_append, List.length_take, List.length_drop]
    omega
  · cases done

theorem splice_byte {buf : Bytes} {off : Nat} (src : Bytes) (inside : off ≤ buf.length) (i : Nat) :
    (buf.take off ++ src ++ buf.drop (off + src.length))[i]? =
      if off ≤ i ∧ i < off + src.length then src[i - off]? else buf[i]? := by
  have front : (buf.take off).length = off := List.length_take_of_le inside
  rw [List.append_assoc]
  by_cases before : i < off
  · rw [if_neg (by omega), List.getElem?_append_left (by omega), List.getElem?_take_of_lt before]
  · rw [List.getElem?_append_right (by omega), front]
    by_cases within : i < off + src.length
    · rw [if_pos (by omega), List.getElem?_append_left (by omega)]
    · rw [if_neg (by omega), List.getElem?_append_right (by omega), List.getElem?_drop]
      congr 1
      omega

theorem overwrite_byte {buf buf' src : Bytes} {off : Nat} (done : overwrite buf off src = some buf')
    (i : Nat) : buf'[i]? = if off ≤ i ∧ i < off + src.length then src[i - off]? else buf[i]? := by
  have inside := (overwrite_length done).2
  rw [overwrite_eq_some inside] at done
  cases done
  exact splice_byte src (by omega) i

theorem slice_overwrite_here {buf buf' src : Bytes} {off : Nat}
    (done : overwrite buf off src = some buf') : slice buf' off src.length = some src := by
  obtain ⟨length, inside⟩ := overwrite_length done
  rw [slice_eq_some (by omega), Option.some_inj]
  apply List.ext_getElem?
  intro i
  by_cases small : i < src.length
  · rw [List.getElem?_take_of_lt small, List.getElem?_drop, overwrite_byte done, if_pos (by omega),
      Nat.add_sub_cancel_left]
  · rw [List.getElem?_eq_none (by simp; omega), List.getElem?_eq_none (by omega)]

theorem slice_overwrite_apart {buf buf' src : Bytes} {off start width : Nat}
    (done : overwrite buf off src = some buf')
    (apart : start + width ≤ off ∨ off + src.length ≤ start) :
    slice buf' start width = slice buf start width := by
  have length := (overwrite_length done).1
  unfold slice
  rw [length]
  split
  · rw [Option.some_inj]
    apply List.ext_getElem?
    intro i
    by_cases small : i < width
    · rw [List.getElem?_take_of_lt small, List.getElem?_take_of_lt small, List.getElem?_drop,
        List.getElem?_drop, overwrite_byte done, if_neg (by omega)]
    · rw [List.getElem?_eq_none (by simp; omega), List.getElem?_eq_none (by simp; omega)]
  · rfl

theorem field_set_apart (data : Bytes) (b : UInt8) {off width i : Nat}
    (apart : i < off ∨ off + width ≤ i) :
    ((data.set i b).drop off).take width = (data.drop off).take width := by
  apply List.ext_getElem?
  intro j
  by_cases small : j < width
  · rw [List.getElem?_take_of_lt small, List.getElem?_take_of_lt small, List.getElem?_drop,
      List.getElem?_drop, List.getElem?_set_ne (by omega)]
  · rw [List.getElem?_eq_none (by simp; omega), List.getElem?_eq_none (by simp; omega)]

theorem field_set_differs {data : Bytes} {b : UInt8} {off width i : Nat} (above : off ≤ i)
    (below : i < off + width) (inside : i < data.length) (changed : data[i]? ≠ some b) :
    ((data.set i b).drop off).take width ≠ (data.drop off).take width := by
  intro same
  have byte := congrArg (fun bytes : Bytes => bytes[i - off]?) same
  simp only [List.getElem?_take_of_lt (show i - off < width by omega), List.getElem?_drop,
    Nat.add_sub_cancel' above, List.getElem?_set_self inside] at byte
  exact changed byte.symm

theorem overwrite_zeros (done src : Bytes) (room : Nat) (fits : src.length ≤ room) :
    overwrite (done ++ List.replicate room 0) done.length src =
      some (done ++ src ++ List.replicate (room - src.length) 0) := by
  rw [overwrite_eq_some (by simp; omega), List.take_left, List.drop_append]
  simp

end LittleEndian
