import HyperDisk.Foundations.StepRuns
import HyperDisk.OverlayMgr.SegmentFrames

/- Two ways a segment file can end badly: cut at an arbitrary byte by a crash, and
   appended to after a write() that failed half way. The first is repaired by reading;
   the second is not, because a short write moves the descriptor but not file_size_. -/
namespace SegmentRecovery
open LittleEndian FileImages WalRecords RecordRoundTrip WalSegments SegmentFrames StepRuns

/-- Consecutive successful WriteEntry calls; `none` when one of them does not return true. -/
def writeEntries (init : TableStore) (disk : Disk) (seg : Segment) :
    List Entry → Option (Disk × Segment)
  | [] => some (disk, seg)
  | e :: es => do
    let (disk, seg, ok) ← writeEntry init disk seg e.seqId e.payload.data e.payload.len .full
    if ok then writeEntries init disk seg es else none

def recordStart (es : List Entry) (i : Nat) : Nat :=
  ((es.take i).map fun e => frameSize e.payload).sum

def Complete (es : List Entry) (m i : Nat) : Prop :=
  ∀ e, es[i]? = some e → recordStart es i + (26 + e.payload.len.toNat) ≤ m

theorem complete_zero (e : Entry) (es : List Entry) (m : Nat) :
    Complete (e :: es) m 0 ↔ 26 + e.payload.len.toNat ≤ m := by
  simp [Complete, recordStart]

theorem complete_succ (e : Entry) (es : List Entry) (m i : Nat) :
    Complete (e :: es) m (i + 1) ↔ Complete es (m - frameSize e.payload) i := by
  simp only [Complete, recordStart, List.getElem?_cons_succ, List.take_succ_cons, List.map_cons,
    List.sum_cons]
  constructor
  · intro h f hf
    have := h f hf
    omega
  · intro h f hf
    have := h f hf
    omega

theorem readLoop_cut (es : List Entry) (m fuel : Nat)
    (enough : ((frames es).take m).length < fuel) :
    ∃ k, k ≤ es.length ∧
      readLoop .takesEffect fuel ((frames es).take m) = some ((es.take k).map Entry.stored) ∧
      (∀ i < k, Complete es m i) ∧ (k < es.length → ¬ Complete es m k) := by
  induction es generalizing m fuel with
  | nil =>
    refine ⟨0, by simp, ?_, by simp, by simp⟩
    simpa using readLoop_nil (by omega)
  | cons e es ih =>
    by_cases whole : 26 + e.payload.len.toNat ≤ m
    · obtain ⟨fuel, rfl⟩ : ∃ n, fuel = n + 1 := ⟨fuel - 1, by omega⟩
      have bounds := frameSize_bounds e.payload
      have head : (frames (e :: es)).take m = record e.seqId e.payload ++
          (List.replicate (frameSize e.payload - (26 + e.payload.len.toNat)) 0 ++ frames es).take
            (m - (26 + e.payload.len.toNat)) := by
        simp only [frames_cons, Entry.frame, RecordRoundTrip.frame, List.append_assoc]
        rw [List.take_append, record_length, List.take_of_length_le (by simp; omega)]
      have tail : ((frames (e :: es)).take m).drop (frameSize e.payload) =
          (frames es).take (m - frameSize e.payload) := by
        rw [List.drop_take, frames_cons, List.drop_left' e.frame_length]
      have long : 26 ≤ ((frames (e :: es)).take m).length := by
        rw [head]
        simp
        omega
      have shorter : ((frames es).take (m - frameSize e.payload)).length < fuel := by
        rw [← tail]
        simp only [List.length_drop]
        omega
      obtain ⟨k, bound, read, complete, last⟩ := ih (m - frameSize e.payload) fuel shorter
      refine ⟨k + 1, by simpa using bound, ?_, ?_, ?_⟩
      · rw [head, readLoop_record, ← head, tail, read]
        rfl
      · intro i hi
        cases i with
        | zero => exact (complete_zero e es m).mpr whole
        | succ i => exact (complete_succ e es m i).mpr (complete i (by omega))
      · intro more
        rw [complete_succ]
        exact last (by simpa using more)
    · refine ⟨0, by simp, ?_, by simp, fun _ => by rwa [complete_zero]⟩
      have cut : (frames (e :: es)).take m = (record e.seqId e.payload).take m := by
        simp only [frames_cons, Entry.frame, RecordRoundTrip.frame, List.append_assoc]
        rw [List.take_append_of_le_length (by simp; omega)]
      obtain ⟨r, result, torn⟩ := validate_cut e.seqId (Nat.lt_of_not_le whole)
      rw [cut, readLoop_refused (by omega) result (by simp [torn])]
      simp

theorem writeEntries_appendable {disk : Disk} {seg : Segment} {done : List Entry}
    (es : List Entry) (h : Appendable disk seg done) :
    ∃ disk' seg', writeEntries .takesEffect disk seg es = some (disk', seg') ∧
      seg'.path = seg.path ∧ Appendable disk' seg' (done ++ es) := by
  induction es generalizing disk seg done with
  | nil => exact ⟨disk, seg, rfl, rfl, by simpa using h⟩
  | cons e es ih =>
    obtain ⟨disk', seg', run, path, final⟩ := ih (appendable_appended h e)
    refine ⟨disk', seg', ?_, path, by simpa using final⟩
    simp only [writeEntries, appendable_append h e, Option.bind_eq_bind, Option.bind_some, if_true]
    exact run

theorem read_reopened {init : TableStore} {disk : Disk} {path : Path} {image : Bytes}
    (startSeqId : UInt64) (readOnly : Bool) (found : disk path = some image) :
    (readAllEntries init (newSegment disk path startSeqId readOnly true).1
      (newSegment disk path startSeqId readOnly true).2 true).1 = readEntries init image := by
  simp [newSegment, found, readAllEntries, Disk.contents]

/-- The entries can be written to the segment's file, and of its first `m` bytes reading gives
    back the entries that lie in them, no complete one less and no partial one more. -/
def Recovers (init : TableStore) (disk : Disk) (path : Path) (startSeqId reopenSeqId : UInt64)
    (readOnly : Bool) (es : List Entry) (m : Nat) : Prop :=
  ∃ disk' seg', writeEntries init (newSegment disk path startSeqId false true).1
      (newSegment disk path startSeqId false true).2 es = some (disk', seg') ∧
    let cut := newSegment (disk'.put path ((disk'.contents path).take m)) path reopenSeqId
      readOnly true
    ∃ k, k ≤ es.length ∧
      (readAllEntries init cut.1 cut.2 true).1 = some ((es.take k).map Entry.stored) ∧
      (∀ i < k, Complete es m i) ∧ (k < es.length → ¬ Complete es m k)

section TornTail

variable {disk : Disk} {path : Path} (fresh : disk.contents path = [])
  (startSeqId reopenSeqId : UInt64) (readOnly : Bool) (m : Nat)

include fresh

theorem recovers_filled (es : List Entry) :
    Recovers .takesEffect disk path startSeqId reopenSeqId readOnly es m := by
  obtain ⟨samePath, start⟩ := newSegment_fresh startSeqId fresh
  obtain ⟨disk', seg', run, path', final⟩ := writeEntries_appendable es start
  refine ⟨disk', seg', run, ?_⟩
  have image : disk'.contents path = frames es := by
    rw [← samePath, ← path']
    simpa using final.image
  obtain ⟨k, bound, read, complete, last⟩ := readLoop_cut es m _ (Nat.lt_succ_self _)
  refine ⟨k, bound, ?_, complete, last⟩
  have found : (disk'.put path ((disk'.contents path).take m)) path =
      some ((frames es).take m) := by
    simp [Disk.put, image]
  rw [read_reopened reopenSeqId readOnly found]
  exact read

theorem recovers_nothing (init : TableStore) :
    Recovers init disk path startSeqId reopenSeqId readOnly [] m := by
  refine ⟨_, _, rfl, 0, Nat.le_refl 0, ?_, by simp, by simp⟩
  have same : (newSegment disk path startSeqId false true).1.contents path = [] := by
    obtain ⟨samePath, start⟩ := newSegment_fresh startSeqId fresh
    have image := start.image
    rw [samePath] at image
    exact image
  have found : ((newSegment disk path startSeqId false true).1.put path
      (((newSegment disk path startSeqId false true).1.contents path).take m)) path = some [] := by
    simp [Disk.put, same]
  rw [read_reopened reopenSeqId readOnly found]
  rfl

theorem not_recovers_faults {es : List Entry} (some_entry : es ≠ []) :
    ¬ Recovers .faults disk path startSeqId reopenSeqId readOnly es m := by
  rintro ⟨disk', seg', written, _⟩
  obtain ⟨e, rest, rfl⟩ := List.exists_cons_of_ne_nil some_entry
  have start := (newSegment_fresh startSeqId fresh).2
  rw [writeEntries, writeEntry_faults _ _ _ _ start.position start.unsealed
    start.writable] at written
  cases written

end TornTail

/-- Torn-tail recovery, for every list of entries written to a fresh segment and every cut:
    the store into the const table has to take effect, unless nothing is written. -/
theorem torn_tail_recovery (init : TableStore) (disk : Disk) (path : Path)
    (fresh : disk.contents path = []) (startSeqId reopenSeqId : UInt64) (readOnly : Bool)
    (es : List Entry) (m : Nat) :
    Recovers init disk path startSeqId reopenSeqId readOnly es m ↔
      init = .takesEffect ∨ es = [] := by
  constructor
  · intro recovers
    cases init with
    | takesEffect => exact .inl rfl
    | faults =>
      by_contra neither
      apply not_recovers_faults fresh startSeqId reopenSeqId readOnly m _ recovers
      exact fun nothing => neither (.inr nothing)
  · rintro (rfl | rfl)
    · exact recovers_filled fresh startSeqId reopenSeqId readOnly m es
    · exact recovers_nothing fresh startSeqId reopenSeqId readOnly m init

def letter (b : UInt8) : Payload := Payload.ofBytes [b] (by simp)

def twoLetters : List Entry := [⟨1, letter 65⟩, ⟨2, letter 66⟩]

theorem two_letters_recovered :
    Recovers .takesEffect (fun _ => none) [] 0 0 true twoLetters 40 :=
  (torn_tail_recovery .takesEffect (fun _ => none) [] rfl 0 0 true twoLetters 40).mpr (.inl rfl)

theorem two_letters_lost :
    writeEntries .faults (newSegment (fun _ => none) [] 0 false true).1
        (newSegment (fun _ => none) [] 0 false true).2 twoLetters = none ∧
      ¬ Recovers .faults (fun _ => none) [] 0 0 true twoLetters 40 := by
  refine ⟨by decide +kernel, not_recovers_faults rfl 0 0 true 40 ?_⟩
  simp [twoLetters]

inductive SegmentCall where
  | write (seqId : UInt64) (payload : Option Bytes) (payloadLen : UInt32) (outcome : WriteOutcome)
  | read

structure SegmentRun where
  disk : Disk
  seg : Segment
  acked : List (UInt64 × Bytes)

def segmentStep (init : TableStore) (state : Option SegmentRun) (call : SegmentCall) :
    Option SegmentRun :=
  state.bind fun r =>
    match call with
    | .write seqId payload payloadLen outcome =>
      (writeEntry init r.disk r.seg seqId payload payloadLen outcome).map fun (disk, seg, ok) =>
        ⟨disk, seg, if ok then r.acked ++ [(seqId, (payload.getD []).take payloadLen.toNat)]
          else r.acked⟩
    | .read => (readAllEntries init r.disk r.seg true).1.map fun _ =>
        { r with seg := (readAllEntries init r.disk r.seg true).2 }

def freshRun (disk : Disk) (path : Path) (startSeqId : UInt64) : Option SegmentRun :=
  some ⟨(newSegment disk path startSeqId false true).1,
    (newSegment disk path startSeqId false true).2, []⟩

def ReadsBack (init : TableStore) (state : Option SegmentRun) : Prop :=
  ∃ r entries, state = some r ∧ (readAllEntries init r.disk r.seg true).1 = some entries ∧
    entries.map pairOf = r.acked

/-- The arguments are valid, and a write() that takes the whole record is made with the
    descriptor at file_size_: no earlier short write has moved it past. -/
def AtRecordEnd (state : Option SegmentRun) : SegmentCall → Prop
  | .read => True
  | .write _ payload payloadLen outcome =>
    (∃ p : Payload, p.data = payload ∧ p.len = payloadLen) ∧
      (outcome.returned (align8 (entrySize payloadLen)) = align8 (entrySize payloadLen) →
        ∀ r, state = some r → r.seg.fd = some r.seg.fileSize)

/-- file_size_ covers whole frames of the acknowledged entries; what lies beyond it, up to
    wherever the descriptor stands, is left over from short writes. -/
structure Covered (r : SegmentRun) (es : List Entry) (pos : Nat) : Prop where
  image : (r.disk.contents r.seg.path).take r.seg.fileSize = frames es
  size : r.seg.fileSize = (frames es).length
  position : r.seg.fd = some pos
  behind : r.seg.fileSize ≤ pos
  inside : pos ≤ (r.disk.contents r.seg.path).length
  unsealed : r.seg.isSealed = false
  writable : r.seg.readOnly = false
  acked : r.acked = es.map Entry.pair

def Sound (state : Option SegmentRun) : Prop := ∃ r es pos, state = some r ∧ Covered r es pos

theorem covered_fresh {disk : Disk} {path : Path} (startSeqId : UInt64)
    (fresh : disk.contents path = []) : Sound (freshRun disk path startSeqId) := by
  have h := (newSegment_fresh startSeqId fresh).2
  refine ⟨_, [], 0, rfl, ?_⟩
  constructor
  · simp [h.image]
  · exact h.size
  · exact h.position
  · simp [h.size]
  · exact Nat.zero_le _
  · exact h.unsealed
  · exact h.writable
  · rfl

theorem covered_reads_back {r : SegmentRun} {es : List Entry} {pos : Nat} (h : Covered r es pos) :
    readAllEntries .takesEffect r.disk r.seg true =
      (some (es.map Entry.stored), { r.seg with fd := some r.seg.fileSize }) := by
  simp only [readAllEntries, h.position, if_true, h.image, readEntries_frames (.inl rfl)]
  rw [h.size]

theorem covered_short {r : SegmentRun} {es : List Entry} {pos : Nat} (h : Covered r es pos)
    (e : Entry) {outcome : WriteOutcome}
    (short : outcome.returned e.frame.length ≠ e.frame.length) :
    ∃ r', segmentStep .takesEffect (some r) (.write e.seqId e.payload.data e.payload.len outcome) =
        some r' ∧
      Covered r' es (pos + outcome.count e.frame.length) := by
  have below := count_le outcome e.frame.length
  have behind := h.behind
  have inside := h.inside
  have step : segmentStep .takesEffect (some r)
      (.write e.seqId e.payload.data e.payload.len outcome) =
      some ⟨r.disk.put r.seg.path (patch (r.disk.contents r.seg.path) pos
          (e.frame.take (outcome.count e.frame.length))),
        { r.seg with fd := some (pos + outcome.count e.frame.length) }, r.acked⟩ := by
    simp only [segmentStep, Option.bind_some,
      writeEntry_entry e outcome h.position h.unsealed h.writable, Option.map_some, appendRecord,
      if_pos short]
    rfl
  refine ⟨_, step, ?_⟩
  constructor
  · simp only [contents_put]
    rw [patch_inside inside, List.append_assoc, List.take_append_of_le_length (by simp; omega),
      List.take_take, Nat.min_eq_left behind, h.image]
  · exact h.size
  · rfl
  · exact Nat.le_trans h.behind (Nat.le_add_right _ _)
  · simp only [contents_put]
    rw [patch_inside inside]
    simp only [List.length_append, List.length_take, List.length_drop]
    omega
  · exact h.unsealed
  · exact h.writable
  · exact h.acked

theorem covered_full {r : SegmentRun} {es : List Entry} (h : Covered r es r.seg.fileSize)
    (e : Entry) {outcome : WriteOutcome}
    (full : outcome.returned e.frame.length = e.frame.length) :
    ∃ r', segmentStep .takesEffect (some r) (.write e.seqId e.payload.data e.payload.len outcome) =
        some r' ∧
      Covered r' (es ++ [e]) (r.seg.fileSize + e.frame.length) := by
  have all := (returned_eq_size_iff.mp full).2
  have step : segmentStep .takesEffect (some r)
      (.write e.seqId e.payload.data e.payload.len outcome) =
      some ⟨r.disk.put r.seg.path (patch (r.disk.contents r.seg.path) r.seg.fileSize e.frame),
        appended r.seg r.seg.fileSize e, r.acked ++ [e.pair]⟩ := by
    simp only [segmentStep, Option.bind_some,
      writeEntry_entry e outcome h.position h.unsealed h.writable, Option.map_some, appendRecord,
      all, List.take_length, if_neg (not_not.mpr full)]
    rfl
  refine ⟨_, step, ?_⟩
  constructor
  · simp only [contents_put, appended]
    rw [patch_take h.inside, h.image, frames_append]
    simp
  · simp [appended, h.size]
  · rfl
  · exact Nat.le_refl _
  · simp only [appended, contents_put]
    rw [patch_inside h.inside]
    have inside := h.inside
    simp only [List.length_append, List.length_take, List.length_drop]
    omega
  · exact h.unsealed
  · exact h.writable
  · simp [h.acked]

theorem sound_step (state : Option SegmentRun) (call : SegmentCall) (h : Sound state)
    (clean : AtRecordEnd state call) : Sound (segmentStep .takesEffect state call) := by
  obtain ⟨r, es, pos, rfl, covered⟩ := h
  cases call with
  | read =>
    have read := covered_reads_back covered
    refine ⟨{ r with seg := { r.seg with fd := some r.seg.fileSize } }, es, r.seg.fileSize, ?_, ?_⟩
    · simp only [segmentStep, Option.bind_some, read, Option.map_some]
    · exact ⟨covered.image, covered.size, rfl, Nat.le_refl _,
        Nat.le_trans covered.behind covered.inside, covered.unsealed, covered.writable,
          covered.acked⟩
  | write seqId payload payloadLen outcome =>
    obtain ⟨⟨p, rfl, rfl⟩, position⟩ := clean
    have size : (Entry.mk seqId p).frame.length = align8 (entrySize p.len) := by
      rw [Entry.frame_length, frameSize, entrySize_of_fits p.fits]
    rw [← size] at position
    by_cases full : outcome.returned (Entry.mk seqId p).frame.length =
      (Entry.mk seqId p).frame.length
    · have here := position full r rfl
      have same : pos = r.seg.fileSize := Option.some.inj (covered.position.symm.trans here)
      subst same
      obtain ⟨r', step, next⟩ := covered_full covered ⟨seqId, p⟩ full
      exact ⟨r', _, _, step, next⟩
    · obtain ⟨r', step, next⟩ := covered_short covered ⟨seqId, p⟩ full
      exact ⟨r', _, _, step, next⟩

theorem sound_reads_back (state : Option SegmentRun) (h : Sound state) :
    ReadsBack .takesEffect state := by
  obtain ⟨r, es, pos, rfl, covered⟩ := h
  refine ⟨r, es.map Entry.stored, rfl, by rw [covered_reads_back covered], ?_⟩
  simp [covered.acked]

/-- Failed appends are harmless in every run that appends only at the end of the last
    complete record, once the const table can be filled. -/
theorem failed_appends_harmless (init : TableStore) (filled : init = .takesEffect) (disk : Disk)
    (path : Path) (fresh : disk.contents path = []) (startSeqId : UInt64)
    (calls : List SegmentCall)
    (meets : Meets (segmentStep init) AtRecordEnd (freshRun disk path startSeqId) calls) :
    Always (segmentStep init) (ReadsBack init) (freshRun disk path startSeqId) calls := by
  subst filled
  exact always_mono sound_reads_back
    (invariant_always (covered_fresh startSeqId fresh) sound_step meets)

def harmlessCalls : List SegmentCall :=
  [.write 1 (some [65]) 1 .failed, .write 2 (some [66]) 1 .full]

theorem harmlessCalls_meet :
    Meets (segmentStep .takesEffect) AtRecordEnd (freshRun (fun _ => none) [] 0) harmlessCalls := by
  have position : (segmentStep .takesEffect (freshRun (fun _ => none) [] 0)
      (.write 1 (some [65]) 1 .failed)).all (fun r => r.seg.fd == some r.seg.fileSize) = true := by
    decide +kernel
  refine ⟨⟨⟨letter 65, rfl, rfl⟩, ?_⟩, ⟨⟨letter 66, rfl, rfl⟩, ?_⟩, trivial⟩
  · intro full
    simp [returned_eq_size_iff] at full
  · intro _ r reached
    rw [reached] at position
    simpa using position

theorem failed_appends_harmless_after_failure :
    Meets (segmentStep .takesEffect) AtRecordEnd (freshRun (fun _ => none) [] 0) harmlessCalls ∧
      Always (segmentStep .takesEffect) (ReadsBack .takesEffect) (freshRun (fun _ => none) [] 0)
        harmlessCalls :=
  ⟨harmlessCalls_meet, failed_appends_harmless .takesEffect rfl (fun _ => none) [] rfl 0
    harmlessCalls harmlessCalls_meet⟩

def tornCalls : List SegmentCall :=
  [.write 1 (some [65]) 1 .full, .write 2 (some [66]) 1 (.partly 5), .write 3 (some [67]) 1 .full]

def tornRun : Option SegmentRun :=
  run (segmentStep .takesEffect) (freshRun (fun _ => none) [] 0) tornCalls

theorem torn_append_hides_later_entry :
    tornRun.map SegmentRun.acked = some [(1, [65]), (3, [67])] ∧
      (tornRun.bind fun r => (readAllEntries .takesEffect r.disk r.seg true).1.map
        (List.map pairOf)) =
        some [(1, [65])] ∧
      ¬ ReadsBack .takesEffect tornRun := by
  have acked : tornRun.map SegmentRun.acked = some [(1, [65]), (3, [67])] := by decide +kernel
  have read : (tornRun.bind fun r =>
      (readAllEntries .takesEffect r.disk r.seg true).1.map (List.map pairOf)) =
        some [(1, [65])] := by
    decide +kernel
  refine ⟨acked, read, ?_⟩
  rintro ⟨r, entries, reached, back, same⟩
  rw [reached, Option.map_some, Option.some.injEq] at acked
  rw [reached, Option.bind_some, back, Option.map_some, same, acked] at read
  exact absurd read (by decide)

end SegmentRecovery
