import HyperDisk.OverlayMgr.WalManager

/- The text of the checkpoint file. A line that was written whole is read back as it was.
   WriteCheckpoint truncates in place, so a crash leaves a prefix of that line;
   ReadCheckpoint then takes the digits it finds for the whole number. -/
namespace CheckpointText
open LittleEndian FileImages DecimalText WalManager

def flushed (w : World) : UInt64 := (readCheckpoint w.disk w.mgr.dataDir true).flushedSeqId

def digits (n : UInt64) : Nat := (decimal n.toNat).length

theorem digits_bounds (n : UInt64) : 0 < digits n ∧ digits n ≤ 20 := by
  have bound := n.toNat_lt
  refine ⟨List.length_pos_iff.mpr (decimal_ne_nil _), decimal_length_le (by decide) ?_⟩
  omega

theorem parseCheckpoint_digits {s : Bytes} (nonempty : s ≠ []) (numeric : ∀ b ∈ s, isDigit b = true)
    (short : s.length ≤ 20) (small : digitsValue s < 2 ^ 64) {image : Bytes}
    (shape : image = s ∨ ∃ rest, image = s ++ 44 :: rest) :
    (parseCheckpoint image).flushedSeqId.toNat = digitsValue s := by
  have printable : ∀ b ∈ s, (b != 0) = true := by
    intro b member
    have bounds := (isDigit_iff b).mp (numeric b member)
    simp only [bne_iff_ne, ne_eq]
    rintro rfl
    simp at bounds
  have value : (strtoull s).toNat = digitsValue s := by
    rw [strtoull_of_digits numeric small, UInt64.toNat_ofNat_of_lt' small]
  have token : (strtok 44 ((image.take 1023).takeWhile (· != 0))).1 = some s := by
    rcases shape with rfl | ⟨rest, rfl⟩
    · rw [List.take_of_length_le (by omega), List.takeWhile_eq_self_iff.mpr printable,
        (strtok_digits [] nonempty numeric (by decide)).2]
    · have cut : ((s ++ 44 :: rest).take 1023).takeWhile (· != 0) =
          s ++ 44 :: ((rest.take (1022 - s.length)).takeWhile (· != 0)) := by
        rw [List.take_append, List.take_of_length_le (by omega),
          show 1023 - s.length = 1022 - s.length + 1 by omega, List.take_succ_cons,
          List.takeWhile_append_of_pos printable]
        rfl
      rw [cut, (strtok_digits _ nonempty numeric (by decide)).1]
  have present : image.take 1023 ≠ [] := by
    rcases shape with rfl | ⟨rest, rfl⟩ <;> simp [nonempty]
  simp only [parseCheckpoint, if_neg present, token, Option.map_some, Option.getD_some, value]

theorem flushed_of_prefix (n : UInt64) (now : Int) (path : Path) (k : Nat) :
    (parseCheckpoint ((checkpointLine n now path).take k)).flushedSeqId.toNat =
      n.toNat / 10 ^ (digits n - k) := by
  have bounds := digits_bounds n
  have small := n.toNat_lt
  have quotient : n.toNat / 10 ^ (digits n - k) < 2 ^ 64 :=
    Nat.lt_of_le_of_lt (Nat.div_le_self _ _) small
  by_cases all : digits n < k
  · have shape : (checkpointLine n now path).take k = decimal n.toNat ++
        44 :: ((signedDecimal now ++ 44 :: (path ++ [10])).take (k - digits n - 1)) := by
      rw [checkpointLine, List.take_append, List.take_of_length_le (by unfold digits at all; omega),
        ← digits, show k - digits n = k - digits n - 1 + 1 by omega, List.take_succ_cons]
      rfl
    rw [parseCheckpoint_digits (decimal_ne_nil n.toNat) (decimal_digits n.toNat) bounds.2
        (by rwa [digitsValue_decimal]) (Or.inr ⟨_, shape⟩), digitsValue_decimal,
      Nat.sub_eq_zero_of_le (by omega), Nat.pow_zero, Nat.div_one]
  · have shape : (checkpointLine n now path).take k = (decimal n.toNat).take k := by
      rw [checkpointLine, List.take_append_of_le_length (by unfold digits at all; omega)]
    have value := digitsValue_take_decimal n.toNat k
    rw [← digits] at value
    by_cases none : k = 0
    · subst none
      rw [List.take_zero] at value ⊢
      rw [← value]
      rfl
    · have nonempty : (decimal n.toNat).take k ≠ [] := by simp [none, decimal_ne_nil]
      have numeric : ∀ b ∈ (decimal n.toNat).take k, isDigit b = true := fun b member =>
        decimal_digits n.toNat b (List.mem_of_mem_take member)
      have short : ((decimal n.toNat).take k).length ≤ 20 := by
        rw [List.length_take]
        unfold digits at bounds
        omega
      rw [shape, parseCheckpoint_digits nonempty numeric short (by rwa [value]) (Or.inl rfl), value]

/-- A point inside WriteCheckpoint: before the open, or after O_TRUNC with some prefix
    of the line in the file. -/
inductive CrashPoint where
  | beforeOpen
  | afterPrefix (k : Nat)
  deriving DecidableEq, Repr

def CrashPoint.io : CrashPoint → Io
  | .beforeOpen => { opens := false }
  | .afterPrefix k => { outcome := .partly k }

def flushedAfterCrash (w : World) (new : UInt64) (now : Int) (point : CrashPoint) : UInt64 :=
  flushed (writeCheckpoint w new now point.io).1

def OldOrNew (w : World) (new : UInt64) (now : Int) (point : CrashPoint) : Prop :=
  flushedAfterCrash w new now point = flushed w ∨ flushedAfterCrash w new now point = new

/-- Every digit of the new id has reached the file, or those that have spell the old id;
    a new id of 0 reads as 0 however little arrived. -/
def Survives (old new : UInt64) : CrashPoint → Prop
  | .beforeOpen => True
  | .afterPrefix k => digits new ≤ k ∨ new = 0 ∨ new.toNat / 10 ^ (digits new - k) = old.toNat

theorem readCheckpoint_put (disk : Disk) (dataDir : Path) (image : Bytes) :
    readCheckpoint (disk.put (checkpointPath dataDir) image) dataDir true =
      parseCheckpoint image := by
  simp [readCheckpoint, Disk.put]

theorem flushed_put (w : World) (image : Bytes) :
    flushed { w with disk := w.disk.put (checkpointPath w.mgr.dataDir) image } =
      (parseCheckpoint image).flushedSeqId := by
  rw [flushed, readCheckpoint_put]

theorem flushedAfterCrash_prefix (w : World) (new : UInt64) (now : Int) (k : Nat) :
    (flushedAfterCrash w new now (.afterPrefix k)).toNat = new.toNat / 10 ^ (digits new - k) := by
  simp only [flushedAfterCrash, CrashPoint.io, writeCheckpoint, WriteOutcome.count, if_true]
  rw [flushed_put, ← List.take_eq_take_min, flushed_of_prefix]

theorem flushedAfterCrash_beforeOpen (w : World) (new : UInt64) (now : Int) :
    flushedAfterCrash w new now .beforeOpen = flushed w := by
  simp [flushedAfterCrash, CrashPoint.io, writeCheckpoint]

theorem flushed_writeCheckpoint (w : World) (new : UInt64) (now : Int) :
    flushed (writeCheckpoint w new now .clean).1 = new := by
  apply UInt64.toNat_inj.mp
  simp only [writeCheckpoint, Io.clean, WriteOutcome.count, if_true]
  rw [flushed_put, flushed_of_prefix, Nat.sub_eq_zero_of_le (by simp [checkpointLine, digits])]
  simp

theorem leading_digits_lt {n : UInt64} {k : Nat} (cut : k < digits n) (positive : n ≠ 0) :
    n.toNat / 10 ^ (digits n - k) < n.toNat := by
  have nonzero : 0 < n.toNat := Nat.pos_of_ne_zero fun zero => positive (UInt64.toNat_inj.mp zero)
  have base : 1 < 10 ^ (digits n - k) := Nat.one_lt_pow (by omega) (by decide)
  exact Nat.div_lt_self nonzero base

theorem oldOrNew_iff_survives (w : World) (new : UInt64) (now : Int) (point : CrashPoint) :
    OldOrNew w new now point ↔ Survives (flushed w) new point := by
  cases point with
  | beforeOpen => simp [OldOrNew, Survives, flushedAfterCrash_beforeOpen]
  | afterPrefix k =>
    have read := flushedAfterCrash_prefix w new now k
    simp only [OldOrNew, Survives, ← UInt64.toNat_inj, read]
    by_cases cut : k < digits new
    · by_cases zero : new = 0
      · simp [zero]
      · have smaller := leading_digits_lt cut zero
        have nonzero : ¬ new.toNat = (0 : UInt64).toNat := fun h => zero (UInt64.toNat_inj.mp h)
        constructor
        · rintro (old | same)
          · exact Or.inr (Or.inr old)
          · omega
        · rintro (arrived | zero' | old)
          · omega
          · exact absurd zero' nonzero
          · exact Or.inl old
    · have whole : new.toNat / 10 ^ (digits new - k) = new.toNat := by
        rw [Nat.sub_eq_zero_of_le (by omega), Nat.pow_zero, Nat.div_one]
      exact iff_of_true (Or.inr whole) (Or.inl (by omega))

theorem leading_digit_positive {n : UInt64} (positive : n ≠ 0) :
    0 < n.toNat / 10 ^ (digits n - 1) := by
  have nonzero : n.toNat ≠ 0 := fun zero => positive (UInt64.toNat_inj.mp zero)
  have text : digits n = (Nat.digits 10 n.toNat).length := by
    rw [digits, decimal, if_neg nonzero]
    simp
  have bounds := digits_bounds n
  apply Nat.div_pos _ (Nat.pow_pos (by decide))
  exact (Nat.lt_digits_length_iff (by decide) n.toNat).mp (by omega)

theorem digits_le_one_iff (n : UInt64) : digits n ≤ 1 ↔ n.toNat < 10 := by
  by_cases zero : n = 0
  · subst zero
    decide
  · have nonzero : n.toNat ≠ 0 := fun h => zero (UInt64.toNat_inj.mp h)
    have text : digits n = (Nat.digits 10 n.toNat).length := by
      rw [digits, decimal, if_neg nonzero]
      simp
    rw [text, Nat.digits_length_le_iff (by decide), Nat.pow_one]

theorem survives_everywhere_iff (old new : UInt64) :
    (∀ point, Survives old new point) ↔ new = 0 ∨ (old = 0 ∧ new.toNat < 10) := by
  constructor
  · intro every
    by_cases zero : new = 0
    · exact Or.inl zero
    · have bounds := digits_bounds new
      have nothing : new.toNat / 10 ^ digits new = 0 := (digitsValue_take_decimal new.toNat 0).symm
      have truncated := every (.afterPrefix 0)
      have first := every (.afterPrefix 1)
      have leading := leading_digit_positive zero
      simp only [Survives, Nat.sub_zero, nothing] at truncated
      simp only [Survives, digits_le_one_iff] at first
      have oldZero : old.toNat = 0 := by
        rcases truncated with none | none | same
        · omega
        · exact absurd none zero
        · exact same.symm
      refine Or.inr ⟨UInt64.toNat_inj.mp oldZero, ?_⟩
      rcases first with one | none | same
      · exact one
      · exact absurd none zero
      · omega
  · rintro (zero | ⟨oldZero, small⟩) point
    · cases point with
      | beforeOpen => trivial
      | afterPrefix k => exact Or.inr (Or.inl zero)
    · cases point with
      | beforeOpen => trivial
      | afterPrefix k =>
        have one := (digits_le_one_iff new).mpr small
        have bounds := digits_bounds new
        by_cases arrived : digits new ≤ k
        · exact Or.inl arrived
        · refine Or.inr (Or.inr ?_)
          rw [show digits new - k = 1 by omega, Nat.pow_one, Nat.div_eq_of_lt small, oldZero]
          rfl

/-- When replacing the checkpoint is crash-atomic: at each point, and at all of them. -/
theorem checkpoint_replacement_atomic_iff (w : World) (new : UInt64) (now : Int) :
    (∀ point, OldOrNew w new now point ↔ Survives (flushed w) new point) ∧
      ((∀ point, OldOrNew w new now point) ↔
        new = 0 ∨ (flushed w = 0 ∧ new.toNat < 10)) := by
  refine ⟨oldOrNew_iff_survives w new now, ?_⟩
  rw [← survives_everywhere_iff]
  exact forall_congr' (oldOrNew_iff_survives w new now)

theorem checkpoint_replacement_torn :
    flushed (writeCheckpoint ⟨fun _ => none, newManager []⟩ 7 0 .clean).1 = 7 ∧
      flushedAfterCrash (writeCheckpoint ⟨fun _ => none, newManager []⟩ 7 0 .clean).1 10 0
        (.afterPrefix 0) = 0 ∧
      flushedAfterCrash (writeCheckpoint ⟨fun _ => none, newManager []⟩ 7 0 .clean).1 10 0
        (.afterPrefix 1) = 1 ∧
      ¬ ∀ point, OldOrNew (writeCheckpoint ⟨fun _ => none, newManager []⟩ 7 0 .clean).1 10 0
        point := by
  have old : flushed (writeCheckpoint ⟨fun _ => none, newManager []⟩ 7 0 .clean).1 = 7 := by
    decide +kernel
  have empty : flushedAfterCrash (writeCheckpoint ⟨fun _ => none, newManager []⟩ 7 0 .clean).1 10 0
      (.afterPrefix 0) = 0 := by decide +kernel
  have one : flushedAfterCrash (writeCheckpoint ⟨fun _ => none, newManager []⟩ 7 0 .clean).1 10 0
      (.afterPrefix 1) = 1 := by decide +kernel
  refine ⟨old, empty, one, ?_⟩
  intro atomic
  rcases atomic (.afterPrefix 1) with same | same
  · rw [one, old] at same
    exact absurd same (by decide)
  · rw [one] at same
    exact absurd same (by decide)

theorem strtok_line_end {path : Path} (oneLine : 10 ∉ path) :
    (strtok 10 (path ++ [10])).1.getD [] = path := by
  by_cases absent : path = []
  · subst absent
    rfl
  · rw [(strtok_word [] absent oneLine).1]
    rfl

theorem checkpointLine_printable (n m : Nat) {path : Path} (noNul : 0 ∉ path) :
    (decimal n ++ 44 :: (decimal m ++ 44 :: (path ++ [10]))).takeWhile (· != 0) =
      decimal n ++ 44 :: (decimal m ++ 44 :: (path ++ [10])) := by
  rw [List.takeWhile_eq_self_iff]
  intro b member
  simp only [bne_iff_ne, ne_eq]
  rintro rfl
  have noDigit : ∀ k, (0 : UInt8) ∉ decimal k := by
    intro k digit
    exact absurd (decimal_digits k 0 digit) (by decide)
  simp [noNul, noDigit] at member

theorem parseCheckpoint_line (flushedSeqId : UInt64) {now : Int} {path : Path}
    (nonnegative : 0 ≤ now) (fits : now < 2 ^ 64) (noNul : 0 ∉ path) (oneLine : 10 ∉ path)
    (short : (checkpointLine flushedSeqId now path).length ≤ 1023) :
    parseCheckpoint (checkpointLine flushedSeqId now path) =
      ⟨flushedSeqId, UInt64.ofNat now.toNat, path⟩ := by
  have time : signedDecimal now = decimal now.toNat := by
    rw [signedDecimal, if_neg (by omega)]
    congr 1
    omega
  have comma : isDigit 44 = false := by decide
  unfold parseCheckpoint
  rw [List.take_of_length_le short, if_neg (by simp [checkpointLine]), checkpointLine, time,
    checkpointLine_printable _ _ noNul]
  dsimp only
  rw [(strtok_digits _ (decimal_ne_nil _) (decimal_digits _) comma).1]
  dsimp only
  rw [(strtok_digits _ (decimal_ne_nil _) (decimal_digits _) comma).1]
  dsimp only
  rw [strtok_line_end oneLine, Option.map_some, Option.map_some, Option.getD_some, Option.getD_some,
    strtoull_decimal flushedSeqId.toNat_lt, strtoull_decimal (by omega), UInt64.ofNat_toNat]

def activePath (w : World) : Path := (w.mgr.activeSegment.map WalSegments.Segment.path).getD []

theorem writeCheckpoint_whole {w : World} {flushedSeqId : UInt64} {now : Int} {io : Io}
    {line : Bytes} (text : checkpointLine flushedSeqId now (activePath w) = line)
    (opens : io.opens = true) (whole : io.outcome.count line.length = line.length) :
    writeCheckpoint w flushedSeqId now io =
      ({ w with disk := w.disk.put (checkpointPath w.mgr.dataDir) line }, true) := by
  have some : 0 < line.length := by simp [← text, checkpointLine]
  have returned : 0 < io.outcome.returned line.length := by
    cases outcome : io.outcome with
    | failed =>
      rw [outcome, WriteOutcome.count] at whole
      omega
    | full =>
      simp only [WriteOutcome.returned, WriteOutcome.count]
      omega
    | partly n =>
      rw [outcome] at whole
      simp only [WriteOutcome.returned, whole]
      omega
  unfold activePath at text
  simp only [writeCheckpoint, opens, if_true, text, whole, List.take_length,
    decide_eq_true returned]

/-- A checkpoint whose line was written whole is read back: the id, the time, and the path of
    the active segment, whatever commas it has. -/
theorem checkpoint_round_trip (w : World) (flushedSeqId : UInt64) (now : Int64) (io : Io)
    (nonnegative : 0 ≤ now.toInt) (noNul : 0 ∉ activePath w) (oneLine : 10 ∉ activePath w)
    (short : (checkpointLine flushedSeqId now.toInt (activePath w)).length ≤ 1023)
    (opens : io.opens = true)
    (whole : io.outcome.count (checkpointLine flushedSeqId now.toInt (activePath w)).length =
      (checkpointLine flushedSeqId now.toInt (activePath w)).length) :
    (writeCheckpoint w flushedSeqId now.toInt io).2 = true ∧
      readCheckpoint (writeCheckpoint w flushedSeqId now.toInt io).1.disk w.mgr.dataDir true =
        ⟨flushedSeqId, UInt64.ofNat now.toInt.toNat, activePath w⟩ := by
  have fits : now.toInt < 2 ^ 64 := by
    have := now.toInt_lt
    omega
  rw [writeCheckpoint_whole rfl opens whole]
  refine ⟨rfl, ?_⟩
  rw [readCheckpoint_put]
  exact parseCheckpoint_line flushedSeqId nonnegative fits noNul oneLine short

theorem checkpoint_round_trip_commas :
    let w := openWal ⟨fun _ => none, newManager (ascii [',', 'a', ',', ',', 'b'])⟩ .clean
    readCheckpoint (writeCheckpoint w 18446744073709551615 7 .clean).1.disk w.mgr.dataDir true =
      ⟨18446744073709551615, 7, ascii [',', 'a', ',', ',', 'b', '/', 'w', 'a', 'l', '-', 's', 'e',
        'g', '-',
        '0', '0', '0', '0', '0', '1', '.', 'l', 'o', 'g']⟩ := by
  have back := (checkpoint_round_trip
    (openWal ⟨fun _ => none, newManager (ascii [',', 'a', ',', ',', 'b'])⟩ .clean)
    18446744073709551615 7 .clean (by decide) (by decide +kernel) (by decide +kernel)
    (by decide +kernel) rfl rfl).2
  exact back

end CheckpointText
