import Mathlib.Logic.Equiv.Defs
import HyperDisk.Foundations.LittleEndian

/- Packed structs on a little-endian machine. A packed type has as many values as there are
   byte strings of its size, so copying the bytes out and in again loses nothing. -/
namespace PackedFields
open LittleEndian
variable {α β : Type}

structure Packed (α : Type) where
  size : Nat
  encode : α → Bytes
  decode : Bytes → α
  encode_length : ∀ a, (encode a).length = size
  decode_encode : ∀ a, decode (encode a) = a
  encode_decode : ∀ bytes, bytes.length = size → encode (decode bytes) = bytes

theorem Packed.decode_inj (layout : Packed α) {bytes bytes' : Bytes}
    (size : bytes.length = layout.size) (size' : bytes'.length = layout.size)
    (same : layout.decode bytes = layout.decode bytes') : bytes = bytes' := by
  rw [← layout.encode_decode bytes size, same, layout.encode_decode bytes' size']

def word (width : Nat) (toNat : α → Nat) (ofNat : Nat → α) (bound : ∀ a, toNat a < 256 ^ width)
    (ofNat_toNat : ∀ a, ofNat (toNat a) = a)
    (toNat_ofNat : ∀ n, n < 256 ^ width → toNat (ofNat n) = n) : Packed α where
  size := width
  encode a := store width (toNat a)
  decode bytes := ofNat (load bytes)
  encode_length a := store_length width _
  decode_encode a := by rw [load_store_of_lt (bound a), ofNat_toNat]
  encode_decode bytes length := by
    have small := load_lt bytes
    rw [length] at small
    rw [toNat_ofNat _ small, ← length, store_load]

def u8 : Packed UInt8 :=
  word 1 UInt8.toNat UInt8.ofNat (fun a => a.toNat_lt) (fun _ => UInt8.ofNat_toNat)
    fun _ small => UInt8.toNat_ofNat_of_lt' small

def u16 : Packed UInt16 :=
  word 2 UInt16.toNat UInt16.ofNat (fun a => a.toNat_lt) (fun _ => UInt16.ofNat_toNat)
    fun _ small => UInt16.toNat_ofNat_of_lt' small

def u32 : Packed UInt32 :=
  word 4 UInt32.toNat UInt32.ofNat (fun a => a.toNat_lt) (fun _ => UInt32.ofNat_toNat)
    fun _ small => UInt32.toNat_ofNat_of_lt' small

def u64 : Packed UInt64 :=
  word 8 UInt64.toNat UInt64.ofNat (fun a => a.toNat_lt) (fun _ => UInt64.ofNat_toNat)
    fun _ small => UInt64.toNat_ofNat_of_lt' small

abbrev Chars (n : Nat) : Type := { text : Bytes // text.length = n }

def chars (n : Nat) : Packed (Chars n) where
  size := n
  encode text := text.val
  decode bytes := if length : bytes.length = n then ⟨bytes, length⟩
    else ⟨List.replicate n 0, List.length_replicate⟩
  encode_length text := text.property
  decode_encode text := by rw [dif_pos text.property]
  encode_decode bytes length := by rw [dif_pos length]

/-- Two members, the first at the lower address and nothing between them. -/
def pair (first : Packed α) (second : Packed β) : Packed (α × β) where
  size := first.size + second.size
  encode v := first.encode v.1 ++ second.encode v.2
  decode bytes := (first.decode (bytes.take first.size), second.decode (bytes.drop first.size))
  encode_length v := by rw [List.length_append, first.encode_length, second.encode_length]
  decode_encode v := by
    rw [List.take_left' (first.encode_length v.1), List.drop_left' (first.encode_length v.1),
      first.decode_encode, second.decode_encode]
  encode_decode bytes length := by
    rw [first.encode_decode _ (by rw [List.length_take]; omega),
      second.encode_decode _ (by rw [List.length_drop]; omega), List.take_append_drop]

def struct (members : Packed α) (same : α ≃ β) : Packed β where
  size := members.size
  encode v := members.encode (same.symm v)
  decode bytes := same (members.decode bytes)
  encode_length v := members.encode_length _
  decode_encode v := by rw [members.decode_encode, Equiv.apply_symm_apply]
  encode_decode bytes length := by rw [Equiv.symm_apply_apply, members.encode_decode bytes length]

def i32 : Packed Int32 :=
  struct u32
    { toFun := Int32.ofUInt32
      invFun := Int32.toUInt32
      left_inv := fun _ => rfl
      right_inv := fun _ => rfl }

end PackedFields
