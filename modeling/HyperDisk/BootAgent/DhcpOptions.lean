import HyperDisk.Foundations.LittleEndian

/- The option parser of the DHCP client, against the format of the options. `none` is a read
   outside the buffer, or a loop that does not end. No buffer comes near 2^64 bytes, so the sums
   of size_t are those of natural numbers. -/
namespace DhcpOptions
open LittleEndian

structure DhcpOption where
  code : UInt8
  length : UInt8
  data : Bytes
  deriving DecidableEq, Repr

def parseLoop (data : Bytes) (len : Nat) : Nat → Nat → Option (List DhcpOption)
  | 0, _ => none
  | fuel + 1, offset =>
    if offset + 2 ≤ len then do
      let code ← data[offset]?
      if code = 0xFF then some []
      else if code = 0 then parseLoop data len fuel (offset + 1)
      else do
        let length ← data[offset + 1]?
        if len < offset + 2 + length.toNat then some []
        else do
          let bytes ← slice data (offset + 2) length.toNat
          let options ← parseLoop data len fuel (offset + 2 + length.toNat)
          some (⟨code, length, bytes⟩ :: options)
    else some []

def parseOptions (data : Bytes) (len : Nat) : Option (List DhcpOption) :=
  parseLoop data len (len + 1) 0

structure OptionField where
  code : UInt8
  data : Bytes
  notPad : code ≠ 0
  notEnd : code ≠ 0xFF
  short : data.length ≤ 255

def OptionField.parsed (f : OptionField) : DhcpOption := ⟨f.code, UInt8.ofNat f.data.length, f.data⟩

def OptionField.bytes (f : OptionField) : Bytes := f.code :: UInt8.ofNat f.data.length :: f.data

def encodeOptions : List (Nat × OptionField) → Bytes
  | [] => []
  | (pads, f) :: rest => List.replicate pads 0 ++ (f.bytes ++ encodeOptions rest)

def parsed (fields : List (Nat × OptionField)) : List DhcpOption :=
  fields.map fun field => field.2.parsed

/-- Where the parser has to stop: too few bytes for an option, the end marker, or an option whose
    data would run past the end. -/
inductive Stops : Bytes → Prop where
  | short {rest : Bytes} (few : rest.length < 2) : Stops rest
  | finished (rest : Bytes) : Stops (0xFF :: rest)
  | truncated {code length : UInt8} {rest : Bytes} (notPad : code ≠ 0) (notEnd : code ≠ 0xFF)
      (few : rest.length < length.toNat) : Stops (code :: length :: rest)

theorem parseLoop_drop (front rest : Bytes) (fuel offset : Nat) :
    parseLoop (front ++ rest) (front ++ rest).length fuel (front.length + offset) =
      parseLoop rest rest.length fuel offset := by
  induction fuel generalizing offset with
  | zero => rfl
  | succ fuel ih =>
    have byte : ∀ k, (front ++ rest)[front.length + k]? = rest[k]? := by
      intro k
      rw [List.getElem?_append_right (Nat.le_add_right _ _), Nat.add_sub_cancel_left]
    have bytes : ∀ k width, slice (front ++ rest) (front.length + k) width =
        slice rest k width := by
      intro k width
      unfold slice
      rw [List.length_append, ← List.drop_drop, List.drop_left]
      simp only [Nat.add_assoc, Nat.add_le_add_iff_left]
    rw [List.length_append] at ih ⊢
    rw [parseLoop, parseLoop]
    simp only [Nat.add_assoc, byte, bytes, ih, Nat.add_le_add_iff_left, Nat.add_lt_add_iff_left]

theorem parsed_length (f : OptionField) : f.parsed.length.toNat = f.data.length :=
  UInt8.toNat_ofNat_of_lt' (Nat.lt_succ_of_le f.short)

section Steps
variable {fuel : Nat}

theorem parse_stopped {rest : Bytes} (stops : Stops rest) :
    parseLoop rest rest.length (fuel + 1) 0 = some [] := by
  rw [parseLoop]
  cases stops with
  | short few => rw [if_neg (by omega)]
  | finished rest =>
    split
    · rfl
    · rfl
  | truncated notPad notEnd few =>
    rename_i code length rest
    have size : (code :: length :: rest).length = rest.length + 2 := rfl
    rw [if_pos (by omega)]
    simp only [List.getElem?_cons_zero, Option.bind_eq_bind, Option.bind_some, notEnd, notPad,
      if_false, Nat.zero_add, List.getElem?_cons_succ]
    rw [if_pos (by omega)]

theorem parse_pad {rest : Bytes} (more : rest ≠ []) :
    parseLoop (0 :: rest) (0 :: rest).length (fuel + 1) 0 = parseLoop rest rest.length fuel 0 := by
  have positive : 0 < rest.length := List.length_pos_iff.mpr more
  rw [parseLoop, if_pos (by rw [List.length_cons]; omega)]
  exact parseLoop_drop [0] rest fuel 0

theorem parse_field (f : OptionField) (rest : Bytes) :
    parseLoop (f.bytes ++ rest) (f.bytes ++ rest).length (fuel + 1) 0 =
      (parseLoop rest rest.length fuel 0).map (f.parsed :: ·) := by
  have size : (UInt8.ofNat f.data.length).toNat = f.data.length := parsed_length f
  have length : (f.bytes ++ rest).length = f.data.length + 2 + rest.length := by
    rw [List.length_append]
    rfl
  have data : slice (f.bytes ++ rest) 2 f.data.length = some f.data := by
    rw [slice_eq_some (by omega)]
    exact congrArg some (List.take_left ..)
  have next := parseLoop_drop f.bytes rest fuel 0
  rw [show f.bytes.length + 0 = 0 + 2 +
    f.data.length from by simp [OptionField.bytes]; omega] at next
  have code : (f.bytes ++ rest)[0]? = some f.code := rfl
  have count : (f.bytes ++ rest)[0 + 1]? = some (UInt8.ofNat f.data.length) := rfl
  rw [parseLoop, if_pos (by omega)]
  simp only [code, count, Option.bind_eq_bind, Option.bind_some, f.notEnd, f.notPad, if_false, size,
    data, next]
  rw [if_neg (by omega)]
  exact (Option.map_eq_bind ..).symm

theorem parse_padded_stop {rest : Bytes} (stops : Stops rest) {pads : Nat} (enough : pads < fuel) :
    parseLoop (List.replicate pads 0 ++ rest) (List.replicate pads 0 ++ rest).length fuel 0 =
      some [] := by
  induction pads generalizing fuel with
  | zero =>
    obtain ⟨fuel, rfl⟩ := Nat.exists_eq_succ_of_ne_zero (Nat.ne_of_gt enough)
    exact parse_stopped stops
  | succ pads ih =>
    obtain ⟨fuel, rfl⟩ := Nat.exists_eq_succ_of_ne_zero (Nat.ne_zero_of_lt enough)
    rw [List.replicate_succ, List.cons_append]
    by_cases last : List.replicate pads 0 ++ rest = []
    · rw [last]
      exact parse_stopped (.short (by decide))
    · rw [parse_pad last]
      exact ih (Nat.lt_of_succ_lt_succ enough)

theorem parse_padded_field (f : OptionField) (rest : Bytes) (pads : Nat) :
    parseLoop (List.replicate pads 0 ++ (f.bytes ++ rest))
        (List.replicate pads 0 ++ (f.bytes ++ rest)).length (fuel + pads + 1) 0 =
      (parseLoop rest rest.length fuel 0).map (f.parsed :: ·) := by
  induction pads with
  | zero => exact parse_field f rest
  | succ pads ih =>
    have more : List.replicate pads 0 ++ (f.bytes ++ rest) ≠ [] := by
      rw [OptionField.bytes]
      simp
    rw [List.replicate_succ, List.cons_append, ← Nat.add_assoc, parse_pad more]
    exact ih

end Steps

theorem encodeOptions_length (pads : Nat) (f : OptionField) (fields : List (Nat × OptionField)) :
    (encodeOptions ((pads, f) :: fields)).length =
      pads + (f.data.length + 2) + (encodeOptions fields).length := by
  rw [encodeOptions, List.length_append, List.length_append, List.length_replicate,
    OptionField.bytes, List.length_cons, List.length_cons]
  omega

theorem parse_encoded (fields : List (Nat × OptionField)) (pads : Nat) {rest : Bytes}
    (stops : Stops rest) {fuel : Nat} (enough : (encodeOptions fields).length + pads < fuel) :
    parseLoop (encodeOptions fields ++ (List.replicate pads 0 ++ rest))
        (encodeOptions fields ++ (List.replicate pads 0 ++ rest)).length fuel 0 =
      some (parsed fields) := by
  induction fields generalizing fuel with
  | nil => exact parse_padded_stop stops (by simpa [encodeOptions] using enough)
  | cons field fields ih =>
    obtain ⟨before, f⟩ := field
    rw [encodeOptions_length] at enough
    obtain ⟨spare, rfl⟩ := Nat.exists_eq_add_of_le (show before + 1 ≤ fuel by omega)
    rw [encodeOptions, List.append_assoc, List.append_assoc,
      show before + 1 + spare = spare + before + 1 by omega, parse_padded_field, ih (by omega)]
    rfl

theorem buffer_cases (data : Bytes) :
    ∃ fields pads rest, data = encodeOptions fields ++ (List.replicate pads 0 ++ rest) ∧
      Stops rest := by
  induction size : data.length using Nat.strongRecOn generalizing data with
  | ind n ih =>
    match data, size with
    | [], _ => exact ⟨[], 0, [], rfl, .short (by decide)⟩
    | [b], _ => exact ⟨[], 0, [b], rfl, .short (by simp)⟩
    | code :: length :: rest, size =>
      by_cases ends : code = 0xFF
      · exact ⟨[], 0, _, rfl, ends ▸ .finished _⟩
      · by_cases pad : code = 0
        · obtain ⟨fields, pads, stop, split, stops⟩ :=
            ih _ (by rw [← size]; simp) (length :: rest) rfl
          cases fields with
          | nil =>
            refine ⟨[], pads + 1, stop, ?_, stops⟩
            rw [pad, split]
            rfl
          | cons field fields =>
            refine ⟨(field.1 + 1, field.2) :: fields, pads, stop, ?_, stops⟩
            rw [pad, split]
            rfl
        · by_cases few : rest.length < length.toNat
          · exact ⟨[], 0, _, rfl, .truncated pad ends few⟩
          · have whole : (rest.take length.toNat).length = length.toNat :=
              List.length_take_of_le (Nat.not_lt.mp few)
            have small : (rest.take length.toNat).length ≤ 255 := by
              have bound := length.toNat_lt
              omega
            obtain ⟨fields, pads, stop, split, stops⟩ :=
              ih _ (by rw [← size, List.length_drop, List.length_cons, List.length_cons]; omega)
                (rest.drop length.toNat) rfl
            refine ⟨(0, ⟨code, rest.take length.toNat, pad, ends, small⟩) :: fields, pads, stop,
              ?_, stops⟩
            rw [encodeOptions, OptionField.bytes, whole, UInt8.ofNat_toNat, List.append_assoc,
              List.append_assoc, ← split]
            simp

/-- ParseOptions returns the options that were encoded, in order and with the lengths of their data;
    and of any buffer it returns the options that are there as a whole, up to the first place where
    it has to stop. -/
theorem options_exact :
    (∀ f : OptionField, f.parsed.length.toNat = f.data.length) ∧
    (∀ (fields : List (Nat × OptionField)) (tail : Bytes),
      (tail = [] ∨ ∃ more, tail = 0xFF :: more) →
      parseOptions (encodeOptions fields ++ tail) (encodeOptions fields ++ tail).length =
        some (parsed fields)) ∧
    ∀ data : Bytes, ∃ fields pads rest,
      data = encodeOptions fields ++ (List.replicate pads 0 ++ rest) ∧ Stops rest ∧
      parseOptions data data.length = some (parsed fields) := by
  refine ⟨parsed_length, ?_, ?_⟩
  · intro fields tail ended
    have stops : Stops tail := by
      rcases ended with rfl | ⟨more, rfl⟩
      · exact .short (by decide)
      · exact .finished more
    exact parse_encoded fields 0 stops (by rw [List.length_append]; omega)
  · intro data
    obtain ⟨fields, pads, rest, split, stops⟩ := buffer_cases data
    refine ⟨fields, pads, rest, split, stops, ?_⟩
    rw [split]
    apply parse_encoded fields pads stops
    rw [List.length_append, List.length_append, List.length_replicate]
    omega

example : parseOptions [0, 53, 1, 2, 0, 0, 54, 4, 10, 0, 0, 1, 255, 9] 14 =
    some [⟨53, 1, [2]⟩, ⟨54, 4, [10, 0, 0, 1]⟩] := by decide

example : parseOptions [53, 1, 2, 54, 4, 10, 0] 7 = some [⟨53, 1, [2]⟩] := by decide

end DhcpOptions
