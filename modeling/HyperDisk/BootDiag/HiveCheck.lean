import HyperDisk.BootDiag.FileHeaders
import HyperDisk.Foundations.PrintBuffers

/- The sixth check of bootdiag (bootdiag_checks.c): the four registry hives, and a line of text
   that is printed piece by piece into an array of 256 characters. `none` is a write outside that
   array. -/
namespace HiveCheck
open LittleEndian DecimalText DiagChecks FileHeaders PrintBuffers

def hives : List (Bytes × List Bytes) :=
  [(text "SYSTEM", [text "\\Windows\\System32\\config\\SYSTEM",
    text "C:\\Windows\\System32\\config\\SYSTEM",
      text "X:\\Windows\\System32\\config\\SYSTEM"]),
    (text "SOFTWARE", [text "\\Windows\\System32\\config\\SOFTWARE",
      text "C:\\Windows\\System32\\config\\SOFTWARE",
      text "X:\\Windows\\System32\\config\\SOFTWARE"]),
    (text "SAM", [text "\\Windows\\System32\\config\\SAM",
      text "C:\\Windows\\System32\\config\\SAM", text "X:\\Windows\\System32\\config\\SAM"]),
    (text "SECURITY", [text "\\Windows\\System32\\config\\SECURITY",
      text "C:\\Windows\\System32\\config\\SECURITY",
      text "X:\\Windows\\System32\\config\\SECURITY"])]

inductive HiveState where
  | notFound
  | sigInvalid
  | version (major minor : UInt32)
  deriving DecidableEq, Repr

def hiveState (f : Files) (paths : List Bytes) : HiveState :=
  match readFirst f paths with
  | none => .notFound
  | some header => if header.take 4 ≠ text "regf" then .sigInvalid
      else .version (le32 header 20) (le32 header 24)

def HiveState.text : HiveState → Bytes
  | .notFound => DiagChecks.text ":NOT_FOUND "
  | .sigInvalid => DiagChecks.text ":SIG_INVALID "
  | .version major minor =>
    DiagChecks.text ":v" ++ decimal major.toNat ++ DiagChecks.text "." ++ decimal minor.toNat ++
      DiagChecks.text " "

def HiveState.good : HiveState → Bool
  | .version _ _ => true
  | _ => false

/-- The loop over the hives; the room left is a size_t, so it wraps once the offset is behind the
    array. -/
def hiveLoop (f : Files) : List (Bytes × List Bytes) → Bool → Bytes → Nat → Option (Bool × Bytes)
  | [], allPass, buf, _ => some (allPass, buf)
  | (name, paths) :: rest, allPass, buf, offset => do
    let state := hiveState f paths
    let (buf, printed) ← snprintf buf offset ((2 ^ 64 + 256 - offset) % 2 ^ 64) (name ++ state.text)
    hiveLoop f rest (allPass && state.good) buf (offset + printed)

def bootdiagV6Hive (f : Files) (r : BootdiagResult) : Option (UInt32 × BootdiagResult) := do
  let (allPass, buf) ← hiveLoop f hives true (List.replicate 256 0) 0
  if !allPass then some (failWith r 6001 (cString buf)) else some (passWith r (cString buf))

theorem text_plain (state : HiveState) : 0 ∉ state.text := by
  have digits : ∀ n, 0 ∉ decimal n := by
    intro n zero
    have digit := decimal_digits n 0 zero
    revert digit
    decide
  cases state with
  | notFound => decide
  | sigInvalid => decide
  | version major minor =>
    simp only [HiveState.text, List.mem_append, not_or]
    exact ⟨⟨⟨⟨by decide, digits _⟩, by decide⟩, digits _⟩, by decide⟩

theorem text_short (state : HiveState) : state.text.length ≤ 24 := by
  cases state with
  | notFound => decide
  | sigInvalid => decide
  | version major minor =>
    have first := decimal_length_le (k := 10) (by decide) (Nat.lt_trans major.toNat_lt (by decide))
    have second := decimal_length_le (k := 10) (by decide) (Nat.lt_trans minor.toNat_lt (by decide))
    have parts : (HiveState.version major minor).text.length =
        2 + (decimal major.toNat).length + 1 + (decimal minor.toNat).length + 1 := by
      simp only [HiveState.text, List.length_append]
      rfl
    omega

def budget : List (Bytes × List Bytes) → Nat
  | [] => 0
  | (name, _) :: rest => name.length + 24 + budget rest

def line (f : Files) (hs : List (Bytes × List Bytes)) : Bytes :=
  hs.flatMap fun h => h.1 ++ (hiveState f h.2).text

theorem hiveLoop_prints (f : Files) (hs : List (Bytes × List Bytes)) (allPass : Bool)
    (front rest : Bytes) (size : (front ++ 0 :: rest).length = 256)
    (fits : front.length + budget hs < 256) :
    ∃ rest', hiveLoop f hs allPass (front ++ 0 :: rest) front.length =
      some (allPass && hs.all fun h => (hiveState f h.2).good,
        front ++ line f hs ++ 0 :: rest') := by
  induction hs generalizing allPass front rest with
  | nil => exact ⟨rest, by simp [hiveLoop, line]⟩
  | cons h hs ih =>
    obtain ⟨name, paths⟩ := h
    have short := text_short (hiveState f paths)
    have total : budget ((name, paths) :: hs) = name.length + 24 + budget hs := rfl
    have room : (2 ^ 64 + 256 - front.length) % 2 ^ 64 = 256 - front.length := by omega
    generalize one : name ++ (hiveState f paths).text = piece
    have length : piece.length = name.length +
        (hiveState f paths).text.length := by rw [← one, List.length_append]
    obtain ⟨rest', printed, same⟩ := snprintf_appends front rest piece (by rw [size]; omega)
      (show piece.length < 256 - front.length by omega)
    obtain ⟨final, ran⟩ := ih (allPass && (hiveState f paths).good) _ _ (same.trans size)
      (by rw [List.length_append]; omega)
    rw [List.length_append] at ran
    refine ⟨final, ?_⟩
    simp only [hiveLoop, one, room, printed, Option.bind_eq_bind, Option.bind_some, ran]
    simp [line, ← one, Bool.and_assoc]

theorem line_plain (f : Files) {hs : List (Bytes × List Bytes)} (plain : ∀ h ∈ hs, 0 ∉ h.1) :
    0 ∉ line f hs := by
  intro zero
  obtain ⟨h, here, inside⟩ := List.mem_flatMap.mp zero
  rcases List.mem_append.mp inside with name | state
  · exact plain h here name
  · exact text_plain _ state

theorem hives_plain : ∀ h ∈ hives, 0 ∉ h.1 := by decide

theorem line_short (f : Files) (hs : List (Bytes × List Bytes)) :
    (line f hs).length ≤ budget hs := by
  induction hs with
  | nil => exact Nat.le_refl 0
  | cons h hs ih =>
    have short := text_short (hiveState f h.2)
    change ((h.1 ++ (hiveState f h.2).text) ++ line f hs).length ≤ h.1.length + 24 + budget hs
    rw [List.length_append, List.length_append]
    omega

theorem good_iff (f : Files) (paths : List Bytes) :
    (hiveState f paths).good = true ↔ ∃ header, readFirst f paths = some header ∧
      header.take 4 = text "regf" := by
  unfold hiveState
  cases readFirst f paths with
  | none => simp [HiveState.good]
  | some header => by_cases signed : header.take 4 = text "regf" <;> simp [signed, HiveState.good]

/-- The check passes exactly if all four hives can be read and have their signature, and its line
    always has room for what it says about each of them. -/
theorem hive_verdict (f : Files) (r : BootdiagResult) :
    ∃ verdict, bootdiagV6Hive f r = some verdict ∧
      (verdict.1 = resultPass ↔
        ∀ h ∈ hives, ∃ header, readFirst f h.2 = some header ∧ header.take 4 = text "regf") ∧
      verdict.2.detail = line f hives := by
  have short : budget hives < 255 := by decide
  have size : ([] ++ 0 :: List.replicate 255 (0 : UInt8)).length = 256 := by
    rw [List.nil_append, List.length_cons, List.length_replicate]
  have fits : ([] : Bytes).length + budget hives < 256 := by
    rw [List.length_nil, Nat.zero_add]
    exact Nat.lt_succ_of_lt short
  obtain ⟨rest, ran⟩ := hiveLoop_prints f hives true [] (List.replicate 255 0) size fits
  have shown : cString (line f hives ++ 0 :: rest) = line f hives :=
    cString_append (line_plain f hives_plain) rest
  have whole : (line f hives).take 255 = line f hives :=
    List.take_of_length_le (Nat.le_trans (line_short f hives) (Nat.le_of_lt short))
  have looped : hiveLoop f hives true (List.replicate 256 0) 0 =
      some (hives.all fun h => (hiveState f h.2).good, line f hives ++ 0 :: rest) := by
    rw [List.replicate_succ]
    exact ran
  have passes : (hives.all fun h => (hiveState f h.2).good) = true ↔
      ∀ h ∈ hives, ∃ header, readFirst f h.2 = some header ∧ header.take 4 = text "regf" := by
    rw [List.all_eq_true]
    exact forall₂_congr fun h _ => good_iff f h.2
  rw [bootdiagV6Hive, looped, Option.bind_eq_bind, Option.bind_some, ← passes]
  dsimp only
  cases hives.all fun h => (hiveState f h.2).good with
  | true => exact ⟨_, rfl, by simp [passWith], by simp [passWith, shown, whole]⟩
  | false => exact ⟨_, rfl, by simp [failWith, resultFail, resultPass],
      by simp [failWith, shown, whole]⟩

end HiveCheck
