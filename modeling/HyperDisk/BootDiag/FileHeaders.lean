import HyperDisk.BootDiag.DiagChecks
import HyperDisk.Foundations.Markers

/- The checks of bootdiag that look at the first 4096 bytes of a file: the BCD store and
   winload.efi. `none` is an index outside those bytes. e_lfanew is below 4092 where offsets are
   added to it, so the sums of uint32_t are those of natural numbers. -/
namespace FileHeaders
open LittleEndian DecimalText DiagChecks Markers

structure Files where
  read : (path : Bytes) → (offset : UInt64) → (size : UInt32) → Except ReadError Bytes
  sized : ∀ path offset size bytes, read path offset size = .ok bytes → bytes.length = size.toNat

/-- The header of the first file that can be read. -/
def readFirst (f : Files) : List Bytes → Option Bytes
  | [] => none
  | path :: paths =>
    match f.read path 0 4096 with
    | .ok header => some header
    | .error _ => readFirst f paths

def bcdPaths : List Bytes :=
  [text "\\EFI\\Microsoft\\Boot\\BCD", text "C:\\EFI\\Microsoft\\Boot\\BCD",
    text "X:\\EFI\\Microsoft\\Boot\\BCD"]

def bootmgrGuid : Bytes := text "\x7b9dea8622-5cdd-4e70-acc1-f832d7f0cfb8\x7d"
def osloaderGuid : Bytes := text "\x7b466fda14-11a7-4c38-8b39-0eb4ddc42b0c\x7d"

structure Entries where
  hasBootmgr : Bool
  hasOsloader : Bool
  deriving DecidableEq, Repr

def guidAt (header : Bytes) (off : Nat) (guid : Bytes) : Option Bool :=
  if off + 38 < 4096 then (slice header off 38).map (· == guid) else some false

def scanGuids (header : Bytes) : Nat → Nat → Entries → Option Entries
  | 0, _, found => some found
  | left + 1, off, found => do
    if (← header[off]?) = 0x7B then do
      let bootmgr ← guidAt header off bootmgrGuid
      let osloader ← guidAt header off osloaderGuid
      scanGuids header left (off + 1) ⟨found.hasBootmgr || bootmgr, found.hasOsloader || osloader⟩
    else scanGuids header left (off + 1) found

def checkBcd (r : BootdiagResult) (header : Bytes) : Option (UInt32 × BootdiagResult) := do
  let signature ← slice header 0 4
  if signature ≠ text "regf" then
    -- %.4s stops at a NUL
    some (failWith r 2002 (text "BCD hive signature invalid: " ++ signature.takeWhile (· ≠ 0) ++
      text " (expected 'regf')"))
  else do
    let found ← scanGuids header 4092 0 ⟨false, false⟩
    if !found.hasBootmgr then
      some (failWith r 2003 (text "Boot Manager entry \x7b9dea8622\x7d not found in BCD"))
    else if !found.hasOsloader then
      some (failWith r 2004 (text "OS Loader entry \x7b466fda14\x7d not found in BCD"))
    else some (passWith r (text "2 entries: BootMgr=" ++ flag found.hasBootmgr ++
      text " OSLoader=" ++
      flag found.hasOsloader))

def bootdiagV2Bcd (f : Files) (r : BootdiagResult) : Option (UInt32 × BootdiagResult) :=
  match readFirst f bcdPaths with
  | none => some (failWith r 2001 (text "BCD file not found or cannot open"))
  | some header => checkBcd r header

def winloadPaths : List Bytes :=
  [text "\\Windows\\System32\\winload.efi", text "C:\\Windows\\System32\\winload.efi",
    text "X:\\Windows\\System32\\winload.efi"]

def peSignature : Bytes := [0x50, 0x45, 0, 0]

def word (header : Bytes) (off : Nat) : Option UInt16 :=
  (slice header off 2).map fun bytes => UInt16.ofNat (load bytes)

def checkMachine (r : BootdiagResult) (header : Bytes) (eLfanew : Nat) :
    Option (UInt32 × BootdiagResult) := do
  let machine ← word header (eLfanew + 4)
  if machine ≠ 0x8664 then
    some (failWith r 3005 (text "Machine=0x" ++ hex 4 machine.toNat ++
      text " (expected 0x8664 AMD64)"))
  else
    let peOffset := eLfanew + 24
    if 4096 < peOffset + 2 then some (failWith r 3006 (text "PE optional header out of range"))
    else do
      let magic ← word header peOffset
      if magic ≠ 0x20B then
        some (failWith r 3007 (text "PE Magic=0x" ++ hex 4 magic.toNat ++
          text " (expected 0x20B PE32+)"))
      else
        let subsystemOffset := peOffset + 68
        if subsystemOffset + 2 ≤ 4096 then do
          let subsystem ← word header subsystemOffset
          if subsystem ≠ 10 ∧ subsystem ≠ 11 then
            some (failWith r 3008 (text "Subsystem=" ++ decimal subsystem.toNat ++
              text " (expected 10=EFI_APP or 11=EFI_BOOT)"))
          else some (passWith r (text "PE64+ EFI, Subsystem=" ++ decimal subsystem.toNat))
        else some (passWith r (text "PE64+ EFI (AMD64)"))

def checkWinload (r : BootdiagResult) (header : Bytes) : Option (UInt32 × BootdiagResult) := do
  let m ← header[0]?
  let z ← header[1]?
  if m ≠ 0x4D ∨ z ≠ 0x5A then
    some (failWith r 3002 (text "MZ signature mismatch: 0x" ++ hex 2 z.toNat ++ hex 2 m.toNat))
  else do
    let eLfanew := load (← slice header 60 4)
    if eLfanew = 0 ∨ 4092 ≤ eLfanew then
      some (failWith r 3003 (text "e_lfanew=" ++ decimal eLfanew ++ text " invalid"))
    else if !(← startsWith peSignature (header.drop eLfanew)) then
      some (failWith r 3004 (text "PE signature mismatch at offset " ++ decimal eLfanew))
    else checkMachine r header eLfanew

def bootdiagV3Winload (f : Files) (r : BootdiagResult) : Option (UInt32 × BootdiagResult) :=
  match readFirst f winloadPaths with
  | none => some (failWith r 3001 (text "winload.efi not found"))
  | some header => checkWinload r header

theorem readFirst_length {f : Files} {paths : List Bytes} {header : Bytes}
    (found : readFirst f paths = some header) : header.length = 4096 := by
  induction paths with
  | nil => cases found
  | cons path paths ih =>
    rw [readFirst] at found
    split at found
    · rename_i read
      cases found
      exact f.sized _ _ _ _ read
    · exact ih found

section Header
variable {header : Bytes} (size : header.length = 4096)
include size

theorem guidAt_isSome (off : Nat) (guid : Bytes) : (guidAt header off guid).isSome := by
  unfold guidAt
  split
  · rw [slice_eq_some (by omega)]
    rfl
  · rfl

theorem scanGuids_isSome (left off : Nat) (inside : off + left ≤ 4096) (found : Entries) :
    (scanGuids header left off found).isSome := by
  induction left generalizing off found with
  | zero => rfl
  | succ left ih =>
    obtain ⟨bootmgr, first⟩ := Option.isSome_iff_exists.mp (guidAt_isSome size off bootmgrGuid)
    obtain ⟨osloader, second⟩ := Option.isSome_iff_exists.mp (guidAt_isSome size off osloaderGuid)
    rw [scanGuids, List.getElem?_eq_getElem (by omega), first, second]
    simp only [Option.bind_eq_bind, Option.bind_some]
    split
    · exact ih _ (by omega) _
    · exact ih _ (by omega) _

theorem checkBcd_isSome (r : BootdiagResult) : (checkBcd r header).isSome := by
  obtain ⟨found, scanned⟩ :=
    Option.isSome_iff_exists.mp (scanGuids_isSome size 4092 0 (by decide) ⟨false, false⟩)
  unfold checkBcd
  rw [slice_eq_some (by omega)]
  simp only [Option.bind_eq_bind, Option.bind_some, scanned]
  apply guard_isSome
  intro _
  apply guard_isSome
  intro _
  apply guard_isSome
  intro _
  rfl

theorem word_isSome {off : Nat} (inside : off + 2 ≤ 4096) :
    ∃ value, word header off = some value := by
  rw [word, slice_eq_some (by omega)]
  exact ⟨_, rfl⟩

theorem checkMachine_isSome_iff (r : BootdiagResult) (eLfanew : Nat) :
    (checkMachine r header eLfanew).isSome ↔ eLfanew + 6 ≤ 4096 := by
  unfold checkMachine
  by_cases inside : eLfanew + 6 ≤ 4096
  · obtain ⟨machine, read⟩ := word_isSome size (show eLfanew + 4 + 2 ≤ 4096 by omega)
    rw [read]
    simp only [Option.bind_eq_bind, Option.bind_some, inside, iff_true]
    apply guard_isSome
    intro _
    apply guard_isSome
    intro near
    obtain ⟨magic, magicRead⟩ := word_isSome size (Nat.not_lt.mp near)
    rw [magicRead]
    apply guard_isSome
    intro _
    split
    · rename_i room
      obtain ⟨subsystem, subsystemRead⟩ := word_isSome size room
      rw [subsystemRead]
      apply guard_isSome
      intro _
      rfl
    · rfl
  · rw [word, slice, if_neg (by omega)]
    simp [inside]

end Header

def CutMachine (header : Bytes) : Prop :=
  header[0]? = some 0x4D ∧ header[1]? = some 0x5A ∧ load ((header.drop 60).take 4) = 4091 ∧
    peSignature <+: header.drop 4091

theorem checkWinload_isSome_iff {header : Bytes} (size : header.length = 4096)
    (r : BootdiagResult) : (checkWinload r header).isSome ↔ ¬ CutMachine header := by
  unfold checkWinload CutMachine
  rw [List.getElem?_eq_getElem (by omega), List.getElem?_eq_getElem (by omega),
    slice_eq_some (by omega)]
  simp only [Option.bind_eq_bind, Option.bind_some, Option.some.injEq]
  by_cases dos : header[0] = 0x4D ∧ header[1] = 0x5A
  · rw [if_neg (by rw [not_or, not_not, not_not]; exact dos)]
    generalize load ((header.drop 60).take 4) = eLfanew
    simp only [dos, true_and]
    by_cases far : eLfanew = 0 ∨ 4092 ≤ eLfanew
    · have other : eLfanew ≠ 4091 := by omega
      rw [if_pos far]
      simp [other]
    · rw [if_neg far, startsWith_room (by rw [List.length_drop]; change 4 ≤ _; omega)]
      simp only [Option.bind_some]
      by_cases pe : peSignature <+: header.drop eLfanew
      · rw [decide_eq_true pe]
        change (checkMachine r header eLfanew).isSome ↔ _
        rw [checkMachine_isSome_iff size]
        constructor
        · intro inside
          omega
        · intro whole
          have last : eLfanew ≠ 4091 := fun same => whole ⟨same, same ▸ pe⟩
          omega
      · rw [decide_eq_false pe]
        apply iff_of_true rfl
        rintro ⟨rfl, starts⟩
        exact pe starts
  · rw [if_pos (by rw [ne_eq, ne_eq, ← not_and_or]; exact dos)]
    apply iff_of_true rfl
    intro cut
    exact dos ⟨cut.1, cut.2.1⟩

/-- The BCD check never leaves the header. The winload check does when the machine type is cut off
    by its end, and only then. -/
theorem header_bounds (f : Files) (r : BootdiagResult) :
    (bootdiagV2Bcd f r).isSome ∧
      ((bootdiagV3Winload f r).isSome ↔
        ∀ header, readFirst f winloadPaths = some header → ¬ CutMachine header) := by
  constructor
  · unfold bootdiagV2Bcd
    cases found : readFirst f bcdPaths with
    | none => rfl
    | some header => exact checkBcd_isSome (readFirst_length found) r
  · unfold bootdiagV3Winload
    cases found : readFirst f winloadPaths with
    | none => simp
    | some header =>
      simp only [Option.some.injEq, forall_eq']
      exact checkWinload_isSome_iff (readFirst_length found) r

def sameFile (header : Bytes) (size : UInt32) : Except ReadError Bytes :=
  if header.length = size.toNat then .ok header else .error .shortRead

theorem sameFile_sized (header : Bytes) (size : UInt32) (bytes : Bytes)
    (read : sameFile header size = .ok bytes) : bytes.length = size.toNat := by
  unfold sameFile at read
  split at read
  · cases read
    assumption
  · cases read

def sameFiles (header : Bytes) : Files :=
  ⟨fun _ _ size => sameFile header size, fun _ _ size bytes => sameFile_sized header size bytes⟩

def cutHeader : Bytes :=
  0x4D :: 0x5A :: (List.replicate 58 0 ++
    (store 4 4091 ++ (List.replicate 4027 0 ++ (peSignature ++ [0x64]))))

theorem cut_header_outside :
    cutHeader.length = 4096 ∧
      bootdiagV3Winload (sameFiles cutHeader) ⟨3, text "winload.efi", 0, 0, [], 0⟩ = none := by
  decide +kernel

end FileHeaders
