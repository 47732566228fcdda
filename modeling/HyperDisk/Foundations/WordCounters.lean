import Mathlib.Algebra.Group.Nat.Defs
import Mathlib.Data.List.Nodup

/- A 32-bit counter that goes up and down by one, and a 64-bit one that goes up, as natural
   numbers. -/
namespace WordCounters
variable {c : UInt32} {n : Nat}

theorem succ_mod (c : UInt32) : (c + 1).toNat = (c.toNat + 1) % 2 ^ 32 := by
  rw [UInt32.toNat_add, UInt32.toNat_one]

theorem succ_of_room (room : c.toNat + 1 < 2 ^ 32) : (c + 1).toNat = c.toNat + 1 := by
  rw [succ_mod]
  exact Nat.mod_eq_of_lt room

theorem succ64_of_room {c : UInt64} (room : c.toNat + 1 < 2 ^ 64) :
    (c + 1).toNat = c.toNat + 1 := by
  rw [UInt64.toNat_add, UInt64.toNat_one]
  exact Nat.mod_eq_of_lt room

theorem succ_iff : (c + 1).toNat = c.toNat + 1 ↔ c.toNat + 1 < 2 ^ 32 := by
  constructor
  · intro same
    rw [← same]
    exact (c + 1).toNat_lt
  · exact succ_of_room

theorem pred_mod (c : UInt32) : (c - 1).toNat = (2 ^ 32 - 1 + c.toNat) % 2 ^ 32 := by
  rw [UInt32.toNat_sub, UInt32.toNat_one]

theorem pred_of_succ (positive : c.toNat = n + 1) : (c - 1).toNat = n := by
  have below := c.toNat_lt
  rw [pred_mod]
  omega

theorem pred_ne (c : UInt32) : (c - 1).toNat ≠ c.toNat := by
  have below := c.toNat_lt
  rw [pred_mod]
  omega

theorem nodup_values_iff (first : UInt32) (n : Nat) :
    ((List.range n).map fun k => first + UInt32.ofNat k).Nodup ↔ n ≤ 2 ^ 32 := by
  constructor
  · intro distinct
    by_contra more
    -- value 2^32 is the first one again
    apply List.nodup_iff_getElem?_ne_getElem?.mp distinct 0 (2 ^ 32) (by decide)
    · rw [List.length_map, List.length_range]
      omega
    · rw [List.getElem?_map, List.getElem?_map, List.getElem?_range (by omega),
        List.getElem?_range (by omega)]
      rfl
  · intro few
    apply List.Nodup.map_on _ List.nodup_range
    intro i hi j hj same
    rw [List.mem_range] at hi hj
    have offset := congrArg UInt32.toNat ((UInt32.add_right_inj first).mp same)
    rwa [UInt32.toNat_ofNat_of_lt' (Nat.lt_of_lt_of_le hi few),
      UInt32.toNat_ofNat_of_lt' (Nat.lt_of_lt_of_le hj few)] at offset

end WordCounters
