import Mathlib.Data.List.MinMax
import HyperDisk.OverlayMgr.CheckpointText

/- CrashReplay rewrites the checkpoint from the collected entries. Its loop keeps the
   last unflushed id it has seen, not the largest, and starts from 0, not from the
   stored checkpoint. -/
namespace CrashReplay
open LittleEndian FileImages DecimalText WalRecords WalSegments WalManager CheckpointText

theorem segmentPath_ne_checkpointPath (dataDir : Path) (n : UInt32) :
    segmentPath dataDir n ≠ checkpointPath dataDir := by
  intro same
  simp only [segmentPath, checkpointPath, List.append_assoc] at same
  have tails := List.append_cancel_left same
  simp [ascii] at tails

theorem asInt_injective {m n : UInt32} (same : asInt m = asInt n) : m = n := by
  have hm := m.toNat_lt
  have hn := n.toNat_lt
  apply UInt32.toNat_inj.mp
  unfold asInt at same
  split at same <;> split at same <;> omega

theorem segmentPath_injective {dataDir : Path} {m n : UInt32}
    (same : segmentPath dataDir m = segmentPath dataDir n) : m = n := by
  simp only [segmentPath, List.append_assoc] at same
  have tails := List.append_cancel_left (List.append_cancel_left same)
  exact asInt_injective (zeroPadded_injective (List.append_cancel_right tails))

/-- The ids CrashReplay looks at: those above the stored checkpoint. -/
def unflushed (c : UInt64) (entries : List WalEntry) : List UInt64 :=
  (entries.map WalEntry.seqId).filter fun s => decide (c < s)

def largest (entries : List WalEntry) : Nat :=
  (entries.map fun e => e.seqId.toNat).foldr max 0

theorem replayLoop_eq_last (c prev : UInt64) (entries : List WalEntry) :
    replayLoop c prev entries = ((unflushed c entries).getLast?).getD prev := by
  induction entries generalizing prev with
  | nil => rfl
  | cons e entries ih =>
    by_cases old : e.seqId ≤ c
    · have skipped : unflushed c (e :: entries) = unflushed c entries := by
        simp [unflushed, UInt64.not_lt.mpr old]
      rw [replayLoop, if_pos old, ih, skipped]
    · have kept : unflushed c (e :: entries) = e.seqId :: unflushed c entries := by
        simp [unflushed, UInt64.not_le.mp old]
      rw [replayLoop, if_neg old, ite_self, ih, kept, List.getLast?_cons]
      rfl

theorem le_largest {entries : List WalEntry} {e : WalEntry} (member : e ∈ entries) :
    e.seqId.toNat ≤ largest entries :=
  List.le_max_of_le (List.mem_map.mpr ⟨e, member, rfl⟩) (Nat.le_refl _)

theorem largest_le {entries : List WalEntry} {bound : Nat}
    (below : ∀ e ∈ entries, e.seqId.toNat ≤ bound) : largest entries ≤ bound := by
  apply List.max_le_of_forall_le
  intro n member
  obtain ⟨e, inside, rfl⟩ := List.mem_map.mp member
  exact below e inside

/-- No id is above a checkpoint that is not itself 0, or the last of those above it is
    the largest id of all. -/
def LastIsLargest (c : UInt64) (entries : List WalEntry) : Prop :=
  match (unflushed c entries).getLast? with
  | none => c = 0
  | some last => ∀ e ∈ entries, e.seqId ≤ last

theorem unflushed_getLast?_none {c : UInt64} {entries : List WalEntry}
    (none : (unflushed c entries).getLast? = none) : ∀ e ∈ entries, e.seqId ≤ c := by
  intro e member
  have empty := List.getLast?_eq_none_iff.mp none
  by_contra above
  have kept : e.seqId ∈ unflushed c entries := by
    simp only [unflushed, List.mem_filter, List.mem_map, decide_eq_true_eq]
    exact ⟨⟨e, member, rfl⟩, UInt64.not_le.mp above⟩
  simp [empty] at kept

theorem unflushed_getLast?_some {c last : UInt64} {entries : List WalEntry}
    (found : (unflushed c entries).getLast? = some last) :
    c < last ∧ ∃ e ∈ entries, e.seqId = last := by
  have member := List.mem_of_getLast? found
  simp only [unflushed, List.mem_filter, List.mem_map, decide_eq_true_eq] at member
  obtain ⟨⟨e, inside, same⟩, above⟩ := member
  exact ⟨above, e, inside, same⟩

theorem replayLoop_eq_max_iff (c : UInt64) (entries : List WalEntry) :
    (replayLoop c 0 entries).toNat = max c.toNat (largest entries) ↔ LastIsLargest c entries := by
  rw [replayLoop_eq_last, LastIsLargest]
  cases found : (unflushed c entries).getLast? with
  | none =>
    have below : largest entries ≤ c.toNat :=
      largest_le fun e member => UInt64.le_iff_toNat_le.mp (unflushed_getLast?_none found e member)
    rw [Option.getD_none, Nat.max_eq_left below]
    constructor
    · intro zero
      exact UInt64.toNat_inj.mp zero.symm
    · intro zero
      rw [zero]
  | some last =>
    obtain ⟨above, e, member, same⟩ := unflushed_getLast?_some found
    have high := UInt64.lt_iff_toNat_lt.mp above
    have inside := le_largest member
    rw [Option.getD_some]
    constructor
    · intro value x hx
      have := le_largest hx
      rw [UInt64.le_iff_toNat_le]
      omega
    · intro every
      have bound : largest entries ≤ last.toNat :=
        largest_le fun x hx => UInt64.le_iff_toNat_le.mp (every x hx)
      rw [same] at inside
      omega

theorem replayLoop_from_largest {c : UInt64} {entries : List WalEntry}
    (high : largest entries ≤ c.toNat) : replayLoop c 0 entries = 0 := by
  have empty : unflushed c entries = [] := by
    rw [unflushed, List.filter_eq_nil_iff]
    intro s member above
    obtain ⟨e, inside, rfl⟩ := List.mem_map.mp member
    have := le_largest inside
    have := UInt64.lt_iff_toNat_lt.mp (of_decide_eq_true above)
    omega
  rw [replayLoop_eq_last, empty]
  rfl

theorem readSegments_again {init : TableStore} {disk disk' : Disk} (segs : List Segment)
    (same : ∀ seg ∈ segs, disk'.contents seg.path = disk.contents seg.path) :
    readSegments init disk' .clean (segs.map (readSegment init disk .clean)) =
      readSegments init disk .clean segs := by
  induction segs with
  | nil => rfl
  | cons seg segs ih =>
    have first : (readAllEntries init disk' (readSegment init disk .clean seg) true).1 =
        (readAllEntries init disk seg true).1 := by
      have image := same seg (by simp)
      cases opened : seg.fd with
      | none => simp [readSegment, readAllEntries, opened]
      | some pos => simp [readSegment, readAllEntries, opened, Io.clean, image]
    have rest := ih fun other member => same other (by simp [member])
    simp only [Io.clean] at first rest ⊢
    simp only [List.map_cons, readSegments, first, rest]

theorem collect_inv {init : TableStore} {w w₁ : World} {entries : List WalEntry}
    (collected : collectEntriesForReplay init w .clean = some (w₁, entries)) :
    readSegments init w.disk .clean (w.mgr.sealedSegments ++ w.mgr.activeSegment.toList) =
        some entries ∧
      w₁.disk = w.disk ∧ w₁.mgr.dataDir = w.mgr.dataDir ∧
      w₁.mgr.sealedSegments ++ w₁.mgr.activeSegment.toList =
        (w.mgr.sealedSegments ++ w.mgr.activeSegment.toList).map
          (readSegment init w.disk .clean) := by
  simp only [collectEntriesForReplay, Option.bind_eq_bind, Option.bind_eq_some_iff,
    Option.some.injEq, Prod.mk.injEq] at collected
  obtain ⟨read, found, rfl, rfl⟩ := collected
  refine ⟨found, rfl, rfl, ?_⟩
  simp [Option.toList_map]

theorem collect_eq {init : TableStore} {w : World} {entries : List WalEntry}
    (read : readSegments init w.disk .clean (w.mgr.sealedSegments ++ w.mgr.activeSegment.toList) =
      some entries) : ∃ w₁, collectEntriesForReplay init w .clean = some (w₁, entries) := by
  simp only [collectEntriesForReplay, read, Option.bind_eq_bind, Option.bind_some]
  exact ⟨_, rfl⟩

theorem crashReplay_spec {init : TableStore} {w w₁ : World} {entries : List WalEntry} (now : Int)
    (collected : collectEntriesForReplay init w .clean = some (w₁, entries)) :
    ∃ w', crashReplay init w now .clean = some w' ∧
      flushed w' = replayLoop (flushed w) 0 entries ∧
      ∃ w₂, collectEntriesForReplay init w' .clean = some (w₂, entries) := by
  obtain ⟨read, disk, dataDir, segs⟩ := collect_inv collected
  have step : crashReplay init w now .clean =
      some (writeCheckpoint w₁ (replayLoop (flushed w) 0 entries) now .clean).1 := by
    simp only [crashReplay, collected, Option.bind_eq_bind, Option.bind_some]
    rfl
  refine ⟨_, step, flushed_writeCheckpoint _ _ _, ?_⟩
  apply collect_eq
  simp only [writeCheckpoint, Io.clean, if_true]
  rw [segs]
  rw [← read]
  apply readSegments_again
  intro seg member
  obtain ⟨n, path⟩ := w.mgr.named seg (by
    rcases List.mem_append.mp member with old | active
    · exact List.mem_append.mpr (Or.inr old)
    · exact List.mem_append.mpr (Or.inl active))
  rw [disk, dataDir, contents_put_ne]
  rw [path]
  exact segmentPath_ne_checkpointPath _ _

/-- What CrashReplay stores against the maximum it should store: the exact condition for
    one call, and for the whole property including a second call. -/
theorem crash_replay_checkpoint (init : TableStore) (w w₁ : World) (entries : List WalEntry)
    (now later : Int) (collected : collectEntriesForReplay init w .clean = some (w₁, entries)) :
    ∃ w' w'', crashReplay init w now .clean = some w' ∧
      crashReplay init w' later .clean = some w'' ∧
      ((flushed w').toNat = max (flushed w).toNat (largest entries) ↔
        LastIsLargest (flushed w) entries) ∧
      (((flushed w').toNat = max (flushed w).toNat (largest entries) ∧ flushed w ≤ flushed w' ∧
          flushed w'' = flushed w') ↔
        flushed w = 0 ∧ ∀ e ∈ entries, e.seqId = 0) := by
  obtain ⟨w', first, stored, w₂, again⟩ := crashReplay_spec now collected
  obtain ⟨w'', second, storedAgain, _⟩ := crashReplay_spec later again
  refine ⟨w', w'', first, second, ?_, ?_⟩
  · rw [stored]
    exact replayLoop_eq_max_iff _ _
  · constructor
    · rintro ⟨value, _, same⟩
      have zero : flushed w' = 0 := by
        rw [← same, storedAgain]
        exact replayLoop_from_largest (by omega)
      rw [zero] at value
      have none : largest entries = 0 := by
        have := Nat.le_max_right (flushed w).toNat (largest entries)
        rw [← value] at this
        exact Nat.le_zero.mp this
      refine ⟨UInt64.toNat_inj.mp ?_, ?_⟩
      · have := Nat.le_max_left (flushed w).toNat (largest entries)
        rw [← value] at this
        exact Nat.le_zero.mp this
      · intro e member
        have := le_largest member
        exact UInt64.toNat_inj.mp (Nat.le_zero.mp (by omega))
    · rintro ⟨start, empty⟩
      have none : largest entries ≤ 0 := largest_le fun e member => by rw [empty e member]; rfl
      have zero : flushed w' = 0 := by
        rw [stored, start]
        exact replayLoop_from_largest none
      have still : flushed w'' = 0 := by
        rw [storedAgain, zero]
        exact replayLoop_from_largest none
      refine ⟨?_, ?_, ?_⟩
      · rw [zero, start, Nat.le_zero.mp none]
        rfl
      · rw [zero, start]
        exact UInt64.le_refl 0
      · rw [zero, still]

def emptyLog : World := openWal ⟨fun _ => none, newManager []⟩ .clean

def writtenLog (w : World) : List UInt8 → Option World
  | [] => some w
  | b :: bs => do
    let (w, _) ← writeEntry .takesEffect w (some [b]) 1 .clean
    writtenLog w bs

theorem empty_log_collected : ∃ w₁, collectEntriesForReplay .takesEffect emptyLog .clean =
    some (w₁, []) := by
  apply collect_eq
  decide +kernel

theorem written_log_collected : ∃ w w₁ entries, writtenLog emptyLog [65, 66] = some w ∧
    flushed w = 0 ∧ collectEntriesForReplay .takesEffect w .clean = some (w₁, entries) ∧
    entries.map WalEntry.seqId = [1, 2] := by
  have found : ((writtenLog emptyLog [65, 66]).bind fun w =>
      (collectEntriesForReplay .takesEffect w .clean).map fun read =>
        (flushed w, read.2.map WalEntry.seqId)) = some (0, [1, 2]) := by decide +kernel
  obtain ⟨w, written, read⟩ := Option.bind_eq_some_iff.mp found
  obtain ⟨⟨w₁, entries⟩, collected, values⟩ := Option.map_eq_some_iff.mp read
  obtain ⟨start, ids⟩ := Prod.mk.inj values
  exact ⟨w, w₁, entries, written, start, collected, ids⟩

theorem lastIsLargest_of_ids {entries : List WalEntry} (ids : entries.map WalEntry.seqId = [1, 2]) :
    LastIsLargest 0 entries := by
  rw [LastIsLargest, unflushed, ids]
  intro e member
  have listed : e.seqId ∈ entries.map WalEntry.seqId := List.mem_map_of_mem member
  rw [ids] at listed
  rcases List.mem_cons.mp listed with first | second
  · rw [first]
    decide
  · rw [List.mem_singleton.mp second]
    decide

theorem crash_replay_checkpoint_two_logs :
    (∃ w w' entries, writtenLog emptyLog [65, 66] = some w ∧
      entries.map WalEntry.seqId = [1, 2] ∧ crashReplay .takesEffect w 0 .clean = some w' ∧
      (flushed w').toNat = max (flushed w).toNat (largest entries)) ∧
    ∃ w' w'', crashReplay .takesEffect emptyLog 0 .clean = some w' ∧
      crashReplay .takesEffect w' 1 .clean = some w'' ∧ flushed w'' = flushed w' := by
  obtain ⟨w, w₁, entries, written, start, collected, ids⟩ := written_log_collected
  obtain ⟨w', _, stored, _, once, _⟩ :=
    crash_replay_checkpoint .takesEffect w w₁ entries 0 1 collected
  obtain ⟨_, nothing⟩ := empty_log_collected
  obtain ⟨e', e'', first, second, _, both⟩ :=
    crash_replay_checkpoint .takesEffect emptyLog _ [] 0 1 nothing
  have zero : flushed emptyLog = 0 := by decide +kernel
  refine ⟨⟨w, w', entries, written, ids, stored, once.mpr ?_⟩, e', e'', first, second, ?_⟩
  · rw [start]
    exact lastIsLargest_of_ids ids
  · exact (both.mpr ⟨zero, by simp⟩).2.2

def replayedOnce : Option World :=
  (writtenLog emptyLog [65]).bind fun w => crashReplay .takesEffect w 0 .clean

theorem crash_replay_forgets :
    replayedOnce.map flushed = some 1 ∧
      (replayedOnce.bind fun w => crashReplay .takesEffect w 1 .clean).map flushed = some 0 ∧
      ¬ ∀ (w w₁ w' : World) (entries : List WalEntry) (now : Int),
        collectEntriesForReplay .takesEffect w .clean = some (w₁, entries) →
          crashReplay .takesEffect w now .clean = some w' →
            (flushed w').toNat = max (flushed w).toNat (largest entries) := by
  have once : replayedOnce.map flushed = some 1 := by decide +kernel
  have twice : (replayedOnce.bind fun w => crashReplay .takesEffect w 1 .clean).map flushed =
      some 0 := by decide +kernel
  refine ⟨once, twice, fun forward => ?_⟩
  obtain ⟨w, reached, value⟩ := Option.map_eq_some_iff.mp once
  rw [reached, Option.bind_some] at twice
  obtain ⟨w', stored, zero⟩ := Option.map_eq_some_iff.mp twice
  have collected : ∃ w₁ entries,
      collectEntriesForReplay .takesEffect w .clean = some (w₁, entries) := by
    unfold crashReplay at stored
    obtain ⟨found, collected, _⟩ := Option.bind_eq_some_iff.mp stored
    exact ⟨found.1, found.2, collected⟩
  obtain ⟨w₁, entries, collected⟩ := collected
  have claimed := forward w w₁ w' entries 1 collected stored
  rw [zero, value] at claimed
  have high := Nat.le_max_left (1 : UInt64).toNat (largest entries)
  rw [← claimed] at high
  exact absurd high (by decide)

end CrashReplay
