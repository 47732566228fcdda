import Mathlib.Data.List.TakeWhile
import HyperDisk.Foundations.LittleEndian

/- snprintf into a character array, and what is later read from the array. A text is given
   without its NUL; `none` is an access outside the array. -/
namespace PrintBuffers
open LittleEndian

/-- snprintf with the array from an offset on: as much of the text as fits in front of a NUL,
    and the length of the whole text. -/
def snprintf (buf : Bytes) (off size : Nat) (text : Bytes) : Option (Bytes × Nat) :=
  if size = 0 then some (buf, text.length)
  else do
    let out ← overwrite buf off (text.take (size - 1) ++ [0])
    some (out, text.length)

/-- A text is printed to an array, and as many bytes are sent from it as snprintf returned. -/
def printAndSend (buf : Bytes) (size : Nat) (text : Bytes) : Option Bytes := do
  let (out, len) ← snprintf buf 0 size text
  slice out 0 len

def cString (buf : Bytes) : Bytes := buf.takeWhile (· ≠ 0)

variable {buf text : Bytes} {off size : Nat}

theorem cString_append {front : Bytes} (plain : 0 ∉ front) (rest : Bytes) :
    cString (front ++ 0 :: rest) = front := by
  unfold cString
  rw [List.takeWhile_append_of_pos]
  · simp
  · intro b here
    simpa using ne_of_mem_of_not_mem here plain

theorem snprintf_eq (text : Bytes) (room : off + size = buf.length) (some_room : 0 < size) :
    snprintf buf off size text = some (buf.take off ++ text.take (size - 1) ++
      0 :: buf.drop (off + (text.take (size - 1)).length + 1), text.length) := by
  have short : (text.take (size - 1)).length ≤ size - 1 := List.length_take_le _ _
  rw [snprintf, if_neg (by omega), overwrite_eq_some (by simp; omega)]
  simp [Nat.add_assoc]

theorem snprintf_length {out : Bytes} {returned : Nat}
    (done : snprintf buf off size text = some (out, returned)) : out.length = buf.length := by
  unfold snprintf at done
  split at done
  · cases done
    rfl
  · unfold overwrite at done
    split at done
    · rename_i inside
      cases done
      rw [List.length_append, List.length_append, List.length_take, List.length_drop]
      omega
    · cases done

theorem snprintf_continues {front rest : Bytes} (plain : 0 ∉ front) (unbroken : 0 ∉ text)
    (start : front.length = off) (room : off + size = (front ++ rest).length)
    (some_room : 0 < size) :
    ∃ out, snprintf (front ++ rest) off size text = some (out, text.length) ∧
      cString out = front ++ text.take (size - 1) := by
  refine ⟨_, snprintf_eq text room some_room, ?_⟩
  rw [List.take_left' start]
  apply cString_append
  intro zero
  rcases List.mem_append.mp zero with inside | inside
  · exact plain inside
  · exact unbroken (List.mem_of_mem_take inside)

theorem snprintf_appends (front rest text : Bytes) {size : Nat}
    (room : front.length + size = (front ++ 0 :: rest).length) (fits : text.length < size) :
    ∃ rest', snprintf (front ++ 0 :: rest) front.length size text =
      some (front ++ text ++ 0 :: rest', text.length) ∧
      (front ++ text ++ 0 :: rest').length = (front ++ 0 :: rest).length := by
  have printed := snprintf_eq text room (by omega)
  rw [List.take_left, List.take_of_length_le (show text.length ≤ size - 1 by omega)] at printed
  exact ⟨_, printed, snprintf_length printed⟩

theorem snprintf_whole (buf : Bytes) {size : Nat} (unbroken : 0 ∉ text) (room : size = buf.length)
    (some_room : 0 < size) :
    ∃ out, snprintf buf 0 size text = some (out, text.length) ∧
      cString out = text.take (size - 1) :=
  snprintf_continues List.not_mem_nil unbroken List.length_nil ((Nat.zero_add size).trans room)
    some_room

/-- The text goes out as it is if it fitted together with its NUL. One byte more and the NUL goes
    out in place of its end; what is longer is read outside the array. -/
theorem printAndSend_eq (room : size = buf.length) (some_room : 0 < size) :
    printAndSend buf size text =
      if text.length < size then some text
      else if text.length = size then some (text.take (size - 1) ++ [0])
      else none := by
  have cut : (text.take (size - 1)).length = min (size - 1) text.length := List.length_take
  have printed := snprintf_eq text (show 0 + size = buf.length by omega) some_room
  rw [List.take_zero, List.nil_append] at printed
  generalize rest : buf.drop (0 + (text.take (size - 1)).length + 1) = tail at printed
  have whole : (text.take (size - 1) ++ 0 :: tail).length = size := by
    rw [List.length_append, List.length_cons, ← rest, List.length_drop]
    omega
  have sent : printAndSend buf size text =
      slice (text.take (size - 1) ++ 0 :: tail) 0 text.length := by
    rw [printAndSend, printed]
    rfl
  rw [sent]
  by_cases fits : text.length < size
  · have all : text.take (size - 1) = text := List.take_of_length_le (by omega)
    rw [if_pos fits, slice_eq_some (by omega), List.drop_zero, all, List.take_left]
  · rw [if_neg fits]
    by_cases exact_fit : text.length = size
    · have none_left : tail = [] := by
        rw [← rest]
        exact List.drop_of_length_le (by omega)
      rw [if_pos exact_fit, slice_eq_some (by omega), List.drop_zero,
        List.take_of_length_le (by omega), none_left]
    · rw [if_neg exact_fit]
      unfold slice
      rw [if_neg (by omega)]

end PrintBuffers
