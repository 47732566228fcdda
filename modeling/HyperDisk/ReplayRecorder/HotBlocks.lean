import HyperDisk.Foundations.DecimalText
import HyperDisk.Foundations.Tallies
import HyperDisk.Foundations.WordCounters
import HyperDisk.ReplayRecorder.ReplayFiles

/- Train of the boot replay analyzer: the list of hot blocks for the static prefetch. std::sort is
   any function that orders a list, however it breaks ties. -/
namespace HotBlocks
open LittleEndian DecimalText FileImages Tallies RingBuffer ReplayFiles

structure LbaFreq where
  lba : UInt64
  freq : UInt32
  deriving DecidableEq, Repr

def LbaFreq.note (f : LbaFreq) : LbaFreq := { f with freq := f.freq + 1 }

def countLbas (entries : List ReplayEntry) : List LbaFreq :=
  tally LbaFreq.lba (fun lba => ⟨lba, 1⟩) LbaFreq.note (entries.map ReplayEntry.lba)

structure FreqSort where
  run : List LbaFreq → List LbaFreq
  permutes : ∀ freqs, (run freqs).Perm freqs
  ordered : ∀ freqs, (run freqs).Pairwise fun a b => b.freq ≤ a.freq

inductive Phase where
  | bootstart
  | driverload
  | desktop
  deriving DecidableEq, Repr

def Phase.text : Phase → Bytes
  | .bootstart => ascii "bootstart".toList
  | .driverload => ascii "driverload".toList
  | .desktop => ascii "desktop".toList

def phaseAt (timestampMs : UInt32) : Phase :=
  if 15000 < timestampMs then .desktop
  else if 10000 < timestampMs then .driverload
  else .bootstart

def phaseOf (entries : List ReplayEntry) (lba : UInt64) : Phase :=
  match entries.find? fun e => e.lba = lba with
  | some e => phaseAt e.timestampMs
  | none => .bootstart

structure HotBlock where
  lba : UInt64
  priority : UInt32
  phase : Phase
  deriving DecidableEq, Repr

def HotBlock.line (b : HotBlock) : Bytes :=
  decimal b.lba.toNat ++ ascii ",4096,".toList ++ decimal b.priority.toNat ++ ascii ",".toList ++
    b.phase.text ++ [10]

def listHeader : Bytes :=
  ascii "# HTKIS HyperDisk X Static Prefetch Hot Block List".toList ++ [10] ++
    ascii "# Format: lba,size,priority,phase".toList ++ [10]

/-- The loop over the first top_k blocks; `none` is an index outside freqs. -/
def listLoop (entries : List ReplayEntry) (freqs : List LbaFreq) (topK : UInt32) :
    Nat → UInt32 → Option (List HotBlock)
  | 0, _ => some []
  | left + 1, i => do
    let f ← freqs[i.toNat]?
    let blocks ← listLoop entries freqs topK left (i + 1)
    some (⟨f.lba, topK - i, phaseOf entries f.lba⟩ :: blocks)

def topCount (freqs : List LbaFreq) : UInt32 :=
  if 500 < UInt32.ofNat freqs.length then 500 else UInt32.ofNat freqs.length

def hotBlocks (sort : FreqSort) (entries : List ReplayEntry) : Option (List HotBlock) :=
  let freqs := sort.run (countLbas entries)
  listLoop entries freqs (topCount freqs) (topCount freqs).toNat 0

def allEntries (disk : Disk) (header : ReplayFileHeader) (paths : List Path) : List ReplayEntry :=
  paths.flatMap fun path => (readEntries disk path header).1

/-- Train; whether the output opens and how much of it is written is up to the system, and a short
    write is not reported. -/
def train (sort : FreqSort) (disk : Disk) (header : ReplayFileHeader) (paths : List Path)
    (outputPath : Path) (opens : Bool) (outcome : WriteOutcome) : Option (Disk × Bool) :=
  if allEntries disk header paths = [] then some (disk, false)
  else if ¬ opens then some (disk, false)
  else do
    let blocks ← hotBlocks sort (allEntries disk header paths)
    let image := listHeader ++ blocks.flatMap HotBlock.line
    some (disk.put outputPath (image.take (outcome.count image.length)), true)

def occurrences (entries : List ReplayEntry) (lba : UInt64) : Nat :=
  (entries.map ReplayEntry.lba).count lba

def distinctLbas (entries : List ReplayEntry) : Nat := (entries.map ReplayEntry.lba).dedup.length

structure HotSet (entries : List ReplayEntry) (blocks : List HotBlock) : Prop where
  size : blocks.length = min (distinctLbas entries) 500
  distinct : (blocks.map HotBlock.lba).Nodup
  occurring : ∀ b ∈ blocks, 0 < occurrences entries b.lba
  hottest : ∀ b ∈ blocks, ∀ lba ∉ blocks.map HotBlock.lba,
    occurrences entries lba ≤ occurrences entries b.lba
  ordered : blocks.Pairwise fun a b => occurrences entries b.lba ≤ occurrences entries a.lba
  priorities : blocks.map (fun b => b.priority.toNat) =
    (List.range (min (distinctLbas entries) 500)).map (min (distinctLbas entries) 500 - ·)
  phases : ∀ b ∈ blocks, ∃ e, entries.find? (fun e => e.lba = b.lba) = some e ∧
    b.phase = phaseAt e.timestampMs

theorem countLbas_lawful : Lawful LbaFreq.lba (fun lba => ⟨lba, 1⟩) LbaFreq.note :=
  ⟨fun _ => rfl, fun _ => rfl⟩

theorem note_iterate (n : Nat) (lba : UInt64) :
    LbaFreq.note^[n] ⟨lba, 1⟩ = ⟨lba, UInt32.ofNat (n + 1)⟩ := by
  induction n with
  | zero => rfl
  | succ n ih =>
    rw [Function.iterate_succ_apply', ih, LbaFreq.note, UInt32.ofNat_add (n + 1) 1]
    rfl

theorem countLbas_freq {entries : List ReplayEntry} (few : entries.length < 2 ^ 32) {f : LbaFreq}
    (mem : f ∈ countLbas entries) : f.freq.toNat = occurrences entries f.lba := by
  have value := tally_value countLbas_lawful _ mem
  rw [note_iterate] at value
  have found : 0 < occurrences entries f.lba :=
    List.count_pos_iff.mpr (((tally_keys countLbas_lawful _).2 f.lba).mp (List.mem_map_of_mem mem))
  have bound : occurrences entries f.lba ≤ entries.length := by
    rw [← List.length_map ReplayEntry.lba]
    exact List.count_le_length
  have freq := congrArg LbaFreq.freq value
  change f.freq = UInt32.ofNat (occurrences entries f.lba - 1 + 1) at freq
  rw [Nat.sub_add_cancel found] at freq
  rw [freq, UInt32.toNat_ofNat_of_lt' (Nat.lt_of_le_of_lt bound few)]

theorem listLoop_spec (entries : List ReplayEntry) (freqs : List LbaFreq) (topK : UInt32)
    {i : UInt32} {left : Nat} (counted : i.toNat + left = topK.toNat)
    (inside : topK.toNat ≤ freqs.length) :
    ∃ blocks, listLoop entries freqs topK left i = some blocks ∧
      blocks.map HotBlock.lba = ((freqs.drop i.toNat).take left).map LbaFreq.lba ∧
      blocks.map (fun b => b.priority.toNat) = (List.range left).map (left - ·) ∧
      ∀ b ∈ blocks, b.phase = phaseOf entries b.lba := by
  induction left generalizing i with
  | zero => exact ⟨[], rfl, by simp, rfl, fun _ mem => absurd mem List.not_mem_nil⟩
  | succ left ih =>
    have here : i.toNat < freqs.length := by omega
    have small := topK.toNat_lt
    have next : (i + 1).toNat = i.toNat + 1 := WordCounters.succ_of_room (by omega)
    obtain ⟨blocks, listed, lbas, priorities, phases⟩ := ih (i := i + 1) (by omega)
    refine ⟨⟨freqs[i.toNat].lba, topK - i, phaseOf entries freqs[i.toNat].lba⟩ :: blocks, ?_,
      ?_, ?_, ?_⟩
    · rw [listLoop, List.getElem?_eq_getElem here, listed]
      rfl
    · rw [List.map_cons, lbas, next, List.drop_eq_getElem_cons here]
      rfl
    · have first : (topK - i).toNat = left + 1 := by
        rw [UInt32.toNat_sub_of_le _ _ (UInt32.le_iff_toNat_le.mpr (by omega))]
        omega
      rw [List.map_cons, priorities, first, List.range_succ_eq_map, List.map_cons, List.map_map]
      congr 1
      apply List.map_congr_left
      intro j _
      exact (Nat.add_sub_add_right left 1 j).symm
    · intro b mem
      rcases List.mem_cons.mp mem with rfl | later
      · rfl
      · exact phases b later

theorem first_entry {entries : List ReplayEntry} {lba : UInt64}
    (occurs : 0 < occurrences entries lba) :
    ∃ e, entries.find? (fun e => e.lba = lba) = some e ∧
      phaseOf entries lba = phaseAt e.timestampMs := by
  unfold phaseOf
  cases found : entries.find? fun e => e.lba = lba with
  | some e => exact ⟨e, rfl, rfl⟩
  | none =>
    obtain ⟨e, mem, same⟩ := List.mem_map.mp (List.count_pos_iff.mp occurs)
    exact absurd (decide_eq_true same) (List.find?_eq_none.mp found e mem)

theorem front_hotSet {entries : List ReplayEntry} {freqs : List LbaFreq} {blocks : List HotBlock}
    (distinct : (freqs.map LbaFreq.lba).Nodup)
    (occurring : ∀ lba, lba ∈ freqs.map LbaFreq.lba ↔ 0 < occurrences entries lba)
    (ordered : freqs.Pairwise fun a b => occurrences entries b.lba ≤ occurrences entries a.lba)
    (lbas : blocks.map HotBlock.lba = (freqs.take (min (distinctLbas entries) 500)).map LbaFreq.lba)
    (priorities : blocks.map (fun b => b.priority.toNat) =
      (List.range (min (distinctLbas entries) 500)).map (min (distinctLbas entries) 500 - ·))
    (phases : ∀ b ∈ blocks, b.phase = phaseOf entries b.lba) : HotSet entries blocks := by
  have source : ∀ b ∈ blocks, ∃ f ∈ freqs.take (min (distinctLbas entries) 500), f.lba = b.lba := by
    intro b mem
    exact List.mem_map.mp (lbas ▸ List.mem_map_of_mem mem)
  have occurs : ∀ b ∈ blocks, 0 < occurrences entries b.lba := by
    intro b mem
    obtain ⟨f, taken, same⟩ := source b mem
    exact (occurring b.lba).mp (same ▸ List.mem_map_of_mem (List.mem_of_mem_take taken))
  constructor
  case size =>
    have sizes := congrArg List.length priorities
    rw [List.length_map, List.length_map, List.length_range] at sizes
    exact sizes
  case distinct =>
    rw [lbas, List.map_take]
    exact distinct.sublist (List.take_sublist _ _)
  case occurring => exact occurs
  case hottest =>
    intro b mem lba unlisted
    obtain ⟨f, taken, same⟩ := source b mem
    by_cases absent : occurrences entries lba = 0
    · rw [absent]
      exact Nat.zero_le _
    · obtain ⟨g, inside, rfl⟩ := List.mem_map.mp ((occurring lba).mpr (Nat.pos_of_ne_zero absent))
      rw [← List.take_append_drop (min (distinctLbas entries) 500) freqs] at ordered inside
      rcases List.mem_append.mp inside with front | back
      · exact absurd (lbas ▸ List.mem_map_of_mem front) unlisted
      · rw [← same]
        exact (List.pairwise_append.mp ordered).2.2 f taken g back
  case ordered =>
    have front := ordered.sublist (List.take_sublist (min (distinctLbas entries) 500) freqs)
    have listed : (blocks.map HotBlock.lba).Pairwise
        fun x y => occurrences entries y ≤ occurrences entries x := by
      rw [lbas]
      exact List.pairwise_map.mpr front
    exact List.pairwise_map.mp listed
  case priorities => exact priorities
  case phases =>
    intro b mem
    obtain ⟨e, found, phase⟩ := first_entry (occurs b mem)
    exact ⟨e, found, (phases b mem).trans phase⟩

section Sorted
variable (sort : FreqSort) {entries : List ReplayEntry} (few : entries.length < 2 ^ 32)

theorem sorted_lbas (entries : List ReplayEntry) :
    ((sort.run (countLbas entries)).map LbaFreq.lba).Nodup ∧
      ∀ lba, lba ∈ (sort.run (countLbas entries)).map LbaFreq.lba ↔
        0 < occurrences entries lba := by
  have perm := (sort.permutes (countLbas entries)).map LbaFreq.lba
  obtain ⟨distinct, same⟩ := tally_keys countLbas_lawful (entries.map ReplayEntry.lba)
  refine ⟨perm.nodup_iff.mpr distinct, ?_⟩
  intro lba
  rw [perm.mem_iff, occurrences, List.count_pos_iff]
  exact same lba

theorem sorted_length (entries : List ReplayEntry) :
    (sort.run (countLbas entries)).length = distinctLbas entries := by
  rw [(sort.permutes _).length_eq]
  exact tally_length countLbas_lawful _

include few

theorem topCount_eq :
    (topCount (sort.run (countLbas entries))).toNat = min (distinctLbas entries) 500 := by
  have bound : distinctLbas entries ≤ entries.length := by
    rw [← List.length_map ReplayEntry.lba]
    exact (List.dedup_sublist _).length_le
  have size := UInt32.toNat_ofNat_of_lt' (Nat.lt_of_le_of_lt bound few)
  have above : 500 < UInt32.ofNat (distinctLbas entries) ↔ 500 < distinctLbas entries := by
    rw [UInt32.lt_iff_toNat_lt, size]
    rfl
  unfold topCount
  rw [sorted_length]
  split
  · rename_i many
    exact (Nat.min_eq_right (above.mp many).le).symm
  · rename_i notMany
    rw [size]
    exact (Nat.min_eq_left (Nat.not_lt.mp (mt above.mpr notMany))).symm

theorem sorted_freq {f : LbaFreq} (mem : f ∈ sort.run (countLbas entries)) :
    f.freq.toNat = occurrences entries f.lba :=
  countLbas_freq few ((sort.permutes _).mem_iff.mp mem)

theorem sorted_occurrences :
    (sort.run (countLbas entries)).Pairwise
      fun a b => occurrences entries b.lba ≤ occurrences entries a.lba := by
  apply (sort.ordered (countLbas entries)).imp_of_mem
  intro a b memA memB less
  rw [← sorted_freq sort few memA, ← sorted_freq sort few memB]
  exact UInt32.le_iff_toNat_le.mp less

theorem hotBlocks_hotSet :
    ∃ blocks, hotBlocks sort entries = some blocks ∧ HotSet entries blocks := by
  obtain ⟨distinct, occurring⟩ := sorted_lbas sort entries
  have count := topCount_eq sort few
  obtain ⟨blocks, listed, lbas, priorities, phases⟩ :=
    listLoop_spec entries (sort.run (countLbas entries)) (topCount (sort.run (countLbas entries)))
      (i := 0) (Nat.zero_add _) (by rw [count, sorted_length]; exact Nat.min_le_left _ _)
  rw [count] at lbas priorities
  exact ⟨blocks, listed,
    front_hotSet distinct occurring (sorted_occurrences sort few) lbas priorities phases⟩

end Sorted

theorem phase_text_inj {p q : Phase} {x y : Bytes} (same : p.text ++ 10 :: x = q.text ++ 10 :: y) :
    p = q ∧ x = y := by
  cases p <;> cases q <;> simp_all [Phase.text, ascii]

theorem line_inj {a b : HotBlock} {x y : Bytes} (same : a.line ++ x = b.line ++ y) :
    a = b ∧ x = y := by
  have size_ends : ∀ rest : Bytes, ∀ b ∈ (ascii ",4096,".toList ++ rest).head?,
      isDigit b = false := by
    simp [ascii, isDigit]
  have comma_ends : ∀ rest : Bytes, ∀ b ∈ (ascii ",".toList ++ rest).head?,
      isDigit b = false := by
    simp [ascii, isDigit]
  simp only [HotBlock.line, List.append_assoc] at same
  obtain ⟨lba, same⟩ := decimal_append_inj (size_ends _) (size_ends _) same
  obtain ⟨priority, same⟩ :=
    decimal_append_inj (comma_ends _) (comma_ends _) (List.append_cancel_left same)
  obtain ⟨phase, rest⟩ := phase_text_inj (List.append_cancel_left same)
  cases a
  cases b
  simp_all [UInt64.toNat_inj, UInt32.toNat_inj]

theorem lines_injective {blocks others : List HotBlock}
    (same : blocks.flatMap HotBlock.line = others.flatMap HotBlock.line) : blocks = others := by
  have filled : ∀ b : HotBlock, b.line ≠ [] := by
    intro b
    simp [HotBlock.line]
  induction blocks generalizing others with
  | nil =>
    cases others with
    | nil => rfl
    | cons b others => simp [filled b] at same
  | cons a blocks ih =>
    cases others with
    | nil => simp [filled a] at same
    | cons b others =>
      rw [List.flatMap_cons, List.flatMap_cons] at same
      obtain ⟨rfl, rest⟩ := line_inj same
      rw [ih rest]

/-- Train writes the hot set of the entries of all files, and its file is that of no other list. -/
theorem trained_hot_set {sort : FreqSort} {disk : Disk} {header : ReplayFileHeader}
    {paths : List Path} {outputPath : Path} {outcome : WriteOutcome}
    (some_entries : allEntries disk header paths ≠ [])
    (few : (allEntries disk header paths).length < 2 ^ 32) :
    ∃ blocks image, HotSet (allEntries disk header paths) blocks ∧
      image = listHeader ++ blocks.flatMap HotBlock.line ∧
      (∀ others, image = listHeader ++ others.flatMap HotBlock.line → others = blocks) ∧
      train sort disk header paths outputPath true outcome =
        some (disk.put outputPath (image.take (outcome.count image.length)), true) := by
  obtain ⟨blocks, listed, hotSet⟩ := hotBlocks_hotSet sort few
  refine ⟨blocks, _, hotSet, rfl, ?_, ?_⟩
  · intro others same
    exact (lines_injective (List.append_cancel_left same)).symm
  · rw [train, if_neg some_entries, if_neg (not_not.mpr rfl), listed]
    rfl

def higherFirst (a b : LbaFreq) : Bool := decide (b.freq ≤ a.freq)

theorem higherFirst_trans (a b c : LbaFreq) (first : higherFirst a b = true)
    (second : higherFirst b c = true) : higherFirst a c = true :=
  decide_eq_true (UInt32.le_trans (of_decide_eq_true second) (of_decide_eq_true first))

theorem higherFirst_total (a b : LbaFreq) : (higherFirst a b || higherFirst b a) = true := by
  rw [Bool.or_eq_true]
  exact (UInt32.le_total b.freq a.freq).imp decide_eq_true decide_eq_true

theorem merge_ordered (freqs : List LbaFreq) :
    (freqs.mergeSort higherFirst).Pairwise fun a b => b.freq ≤ a.freq :=
  (List.pairwise_mergeSort higherFirst_trans higherFirst_total freqs).imp of_decide_eq_true

theorem merge_permutes (freqs : List LbaFreq) : (freqs.mergeSort higherFirst).Perm freqs :=
  List.mergeSort_perm freqs higherFirst

def mergeFreqs : FreqSort :=
  ⟨fun freqs => freqs.mergeSort higherFirst, merge_permutes, merge_ordered⟩

def sampleFile : Bytes :=
  fileHeaderLayout.encode ⟨replayMagic, replayVersion, 3, 0, 0⟩ ++
    (entryLayout.encode ⟨7, 0, 4096, 0, 0, 12000, 0⟩ ++
      (entryLayout.encode ⟨3, 0, 4096, 0, 0, 20000, 0⟩ ++
      entryLayout.encode ⟨7, 0, 4096, 0, 0, 30000, 0⟩))

def sampleEntries : List ReplayEntry :=
  allEntries (fun _ => some sampleFile) ⟨0, 0, 0, 0, 0⟩ [[1], [2]]

theorem sample_trained :
    sampleEntries.length = 6 ∧ ∃ blocks image, HotSet sampleEntries blocks ∧
      image = listHeader ++ blocks.flatMap HotBlock.line ∧
      (∀ others, image = listHeader ++ others.flatMap HotBlock.line → others = blocks) ∧
      train mergeFreqs (fun _ => some sampleFile) ⟨0, 0, 0, 0, 0⟩ [[1], [2]] [3] true .full =
        some (Disk.put (fun _ => some sampleFile) [3]
          (image.take (WriteOutcome.full.count image.length)), true) :=
  ⟨by decide +kernel, trained_hot_set (by decide +kernel) (by decide +kernel)⟩

example : countLbas sampleEntries = [⟨7, 4⟩, ⟨3, 2⟩] ∧ phaseOf sampleEntries 7 = .driverload := by
  decide +kernel

end HotBlocks
