import HyperDisk.Foundations.PackedFields

/- Records of one packed type, one behind another: writing them all, and reading records until
   a number is reached or the bytes do not hold a whole one. -/
namespace PackedRecords
open LittleEndian PackedFields
variable {α : Type} (layout : Packed α)

def writeAll (records : List α) : Bytes := records.flatMap layout.encode

def readUpTo : Nat → Bytes → List α
  | 0, _ => []
  | count + 1, bytes =>
    if bytes.length < layout.size then []
    else layout.decode (bytes.take layout.size) :: readUpTo count (bytes.drop layout.size)

theorem writeAll_length (records : List α) :
    (writeAll layout records).length = layout.size * records.length := by
  induction records with
  | nil => rfl
  | cons r rest ih =>
    have size := layout.encode_length r
    rw [writeAll, List.flatMap_cons, List.length_append, size, List.length_cons, Nat.mul_succ,
      Nat.add_comm]
    exact congrArg (· + layout.size) ih

theorem readUpTo_short (count : Nat) {bytes : Bytes} (short : bytes.length < layout.size) :
    readUpTo layout count bytes = [] := by
  cases count with
  | zero => rfl
  | succ count => rw [readUpTo, if_pos short]

theorem readUpTo_writeAll (count : Nat) (records : List α) {tail : Bytes}
    (short : tail.length < layout.size) :
    readUpTo layout count (writeAll layout records ++ tail) = records.take count := by
  induction count generalizing records with
  | zero => rfl
  | succ count ih =>
    cases records with
    | nil => exact readUpTo_short layout (count + 1) short
    | cons r rest =>
      have size := layout.encode_length r
      have bytes : writeAll layout (r :: rest) ++ tail =
          layout.encode r ++ (writeAll layout rest ++ tail) := by
        simp [writeAll]
      rw [bytes, readUpTo, if_neg (by rw [List.length_append]; omega), List.take_left' size,
        List.drop_left' size, layout.decode_encode, ih, List.take_succ_cons]

theorem writeAll_readUpTo (count : Nat) (bytes tail : Bytes)
    (exact : bytes.length = layout.size * count) :
    writeAll layout (readUpTo layout count (bytes ++ tail)) = bytes := by
  induction count generalizing bytes with
  | zero => exact (List.length_eq_zero_iff.mp exact).symm
  | succ count ih =>
    have enough : layout.size ≤ bytes.length := by
      rw [exact, Nat.mul_succ]
      exact Nat.le_add_left _ _
    have rest : (bytes.drop layout.size).length = layout.size * count := by
      rw [List.length_drop, exact, Nat.mul_succ, Nat.add_sub_cancel]
    rw [readUpTo, if_neg (by rw [List.length_append]; omega), List.take_append_of_le_length enough,
      List.drop_append_of_le_length enough, writeAll, List.flatMap_cons,
      layout.encode_decode _ (List.length_take_of_le enough)]
    exact (congrArg (bytes.take layout.size ++ ·) (ih _ rest)).trans (List.take_append_drop _ _)

end PackedRecords
