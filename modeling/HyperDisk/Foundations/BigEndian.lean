import HyperDisk.Foundations.LittleEndian

/- Big-endian words: the bytes of the little-endian word, read from the other end. -/
namespace BigEndian
open LittleEndian

def storeBe (width n : Nat) : Bytes := (store width n).reverse

def loadBe (bytes : Bytes) : Nat := load bytes.reverse

@[simp] theorem storeBe_length (width n : Nat) : (storeBe width n).length = width := by
  rw [storeBe, List.length_reverse, store_length]

theorem loadBe_storeBe {width n : Nat} (fits : n < 256 ^ width) : loadBe (storeBe width n) = n := by
  rw [loadBe, storeBe, List.reverse_reverse, load_store_of_lt fits]

theorem storeBe_loadBe (bytes : Bytes) : storeBe bytes.length (loadBe bytes) = bytes := by
  have back := store_load bytes.reverse
  rw [List.length_reverse] at back
  rw [storeBe, loadBe, back, List.reverse_reverse]

theorem storeBe_inj {width m n : Nat} (left : m < 256 ^ width) (right : n < 256 ^ width) :
    storeBe width m = storeBe width n ↔ m = n := by
  constructor
  · intro same
    rw [← loadBe_storeBe left, same, loadBe_storeBe right]
  · rintro rfl
    rfl

end BigEndian
