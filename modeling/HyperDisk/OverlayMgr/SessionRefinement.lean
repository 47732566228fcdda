import Mathlib.Algebra.Order.BigOperators.Group.List
import HyperDisk.Foundations.StepRuns
import HyperDisk.OverlayMgr.ManagerSteps

/- One session on an empty directory is an append-only list: any mix of writes, rollovers
   and collections answers as the list does. The entries lie in the sealed segments and
   the active one, a run of the log in each. -/
namespace SessionRefinement
open LittleEndian FileImages WalRecords RecordRoundTrip WalSegments SegmentFrames WalManager
open CrashReplay ManagerSteps StepRuns

inductive LogCall where
  | writeEntry (p : Payload)
  | triggerSegmentRollover
  | collectEntriesForReplay

inductive Reply where
  | seqId (n : Nat)
  | done
  | entries (pairs : List (Nat × Bytes))
  deriving DecidableEq

structure Log where
  entries : List Bytes
  replies : List Reply

def numbered (entries : List Bytes) : List (Nat × Bytes) :=
  entries.mapIdx fun i payload => (i + 1, payload)

def logStep (l : Log) : LogCall → Log
  | .writeEntry p => ⟨l.entries ++ [p.bytes], l.replies ++ [.seqId (l.entries.length + 1)]⟩
  | .triggerSegmentRollover => ⟨l.entries, l.replies ++ [.done]⟩
  | .collectEntriesForReplay => ⟨l.entries, l.replies ++ [.entries (numbered l.entries)]⟩

structure Session where
  world : World
  replies : List Reply

def answer (es : List WalEntry) : Reply := .entries (es.map fun e => (e.seqId.toNat, e.payload))

def sessionStep (init : TableStore) (s : Option Session) (call : LogCall) : Option Session := do
  let t ← s
  match call with
  | .writeEntry p =>
    let (w, seqId) ← WalManager.writeEntry init t.world p.data p.len .clean
    some ⟨w, t.replies ++ [.seqId seqId.toNat]⟩
  | .triggerSegmentRollover => some ⟨triggerSegmentRollover t.world .clean, t.replies ++ [.done]⟩
  | .collectEntriesForReplay =>
    let (w, es) ← collectEntriesForReplay init t.world .clean
    some ⟨w, t.replies ++ [answer es]⟩

def opened (dataDir : Path) : Option Session :=
  some ⟨openWal ⟨fun _ => none, newManager dataDir⟩ .clean, []⟩

/-- The call left the manager with a descriptor: no open() it made ran out of them. -/
def IoCompletes (init : TableStore) (s : Option Session) (call : LogCall) : Prop :=
  ∀ t, sessionStep init s call = some t →
    ∀ seg, t.world.mgr.activeSegment = some seg → seg.fd.isSome

def TableFilled (init : TableStore) : LogCall → Prop
  | .writeEntry _ => init = .takesEffect
  | _ => True

/-- `old` lists the entries of the sealed segments, `current` those of the active one. -/
structure Stored (w : World) (old : List (List Entry)) (current : List Entry) : Prop where
  isOpen : w.mgr.isOpen = true
  number : w.mgr.nextSegmentNumber.toNat = w.mgr.sealedSegments.length + 1
  few : w.mgr.sealedSegments.length ≤ descriptorLimit
  active : ∃ seg, w.mgr.activeSegment = some seg ∧ Appendable w.disk seg current ∧
    seg.path = segmentPath w.mgr.dataDir w.mgr.nextSegmentNumber ∧
    seg.entryCount.toNat = current.length
  room : current.length ≤ walMaxEntries
  retired : List.Forall₂ (Readable w.disk) w.mgr.sealedSegments old
  behind : ∀ seg ∈ w.mgr.sealedSegments, ∃ n : UInt32,
    seg.path = segmentPath w.mgr.dataDir n ∧ n.toNat ≤ w.mgr.sealedSegments.length
  fresh : ∀ n : UInt32, w.mgr.nextSegmentNumber.toNat < n.toNat →
    w.disk.contents (segmentPath w.mgr.dataDir n) = []
  short : ∀ es ∈ old, es.length ≤ walMaxEntries

def NotFull (w : World) : Prop := ∃ seg, w.mgr.activeSegment = some seg ∧ seg.isFull = false

theorem newSegment_entryCount (disk : Disk) (path : Path) (startSeqId : UInt64) (opens : Bool) :
    (newSegment disk path startSeqId false opens).2.entryCount = 0 := by
  unfold newSegment
  split
  · split <;> rfl
  · rfl

theorem isFull_empty {seg : Segment} (size : seg.fileSize = 0) (count : seg.entryCount = 0) :
    seg.isFull = false := by
  simp [Segment.isFull, size, count, walSegmentSize, walMaxEntries]

theorem readable_congr {disk disk' : Disk} {seg : Segment} {es : List Entry}
    (h : Readable disk seg es) (same : disk'.contents seg.path = disk.contents seg.path) :
    Readable disk' seg es :=
  ⟨by rw [same]; exact h.image, h.size, h.position⟩

theorem retired_congr {disk disk' : Disk} {segs : List Segment} {old : List (List Entry)}
    (h : List.Forall₂ (Readable disk) segs old)
    (same : ∀ seg ∈ segs, disk'.contents seg.path = disk.contents seg.path) :
    List.Forall₂ (Readable disk') segs old := by
  induction h with
  | nil => exact List.Forall₂.nil
  | cons first rest ih =>
    exact List.Forall₂.cons (readable_congr first (same _ (by simp)))
      (ih fun seg member => same seg (by simp [member]))

theorem retired_count {disk : Disk} {segs : List Segment} {old : List (List Entry)}
    (h : List.Forall₂ (Readable disk) segs old) :
    segs.countP (fun seg => seg.fd.isSome) = segs.length := by
  induction h with
  | nil => rfl
  | cons first _ ih => simp [ih, first.position]

theorem readSegment_readable {init : TableStore} {disk : Disk} {seg : Segment} {es : List Entry}
    (legible : Legible init es) (h : Readable disk seg es) :
    readSegment init disk .clean seg = seg := by
  rw [readSegment, Io.clean_reads, readable_read legible h]

theorem readSegments_retired {init : TableStore} {disk : Disk} {segs : List Segment}
    {old : List (List Entry)} (legible : ∀ es ∈ old, Legible init es)
    (h : List.Forall₂ (Readable disk) segs old) :
    readSegments init disk .clean segs = some (old.flatten.map Entry.stored) ∧
      segs.map (readSegment init disk .clean) = segs := by
  induction h with
  | nil => exact ⟨rfl, rfl⟩
  | @cons seg es segs old first _ ih =>
    have here := legible es (by simp)
    obtain ⟨rest, same⟩ := ih fun other member => legible other (by simp [member])
    constructor
    · simp only [readSegments, Io.clean_reads, readable_read here first, rest, Option.bind_eq_bind,
        Option.bind_some, List.flatten_cons, List.map_append]
    · rw [List.map_cons, readSegment_readable here first, same]

theorem collect_same {init : TableStore} {w : World} {entries : List WalEntry}
    (read : readSegments init w.disk .clean (w.mgr.sealedSegments ++ w.mgr.activeSegment.toList) =
      some entries)
    (retired : w.mgr.sealedSegments.map (readSegment init w.disk .clean) = w.mgr.sealedSegments)
    (active : w.mgr.activeSegment.map (readSegment init w.disk .clean) = w.mgr.activeSegment) :
    collectEntriesForReplay init w .clean = some (w, entries) := by
  obtain ⟨disk, mgr⟩ := w
  simp only [collectEntriesForReplay, read, Option.bind_eq_bind, Option.bind_some]
  simp only at retired active
  simp only [retired, active]

theorem stored_collect {init : TableStore} {w : World} {old : List (List Entry)}
    {current : List Entry} (legible : Legible init (old.flatten ++ current))
    (h : Stored w old current) :
    collectEntriesForReplay init w .clean =
      some (w, (old.flatten ++ current).map Entry.stored) := by
  have parts : ∀ es ∈ old ++ [current], Legible init es := by
    intro es member
    rcases legible with filled | nothing
    · exact .inl filled
    · rw [List.append_eq_nil_iff, List.flatten_eq_nil_iff] at nothing
      rcases List.mem_append.mp member with older | last
      · exact .inr (nothing.1 es older)
      · rw [List.mem_singleton.mp last]
        exact .inr nothing.2
  obtain ⟨seg, active, appendable, _⟩ := h.active
  have all : List.Forall₂ (Readable w.disk) (w.mgr.sealedSegments ++ [seg]) (old ++ [current]) :=
    List.rel_append h.retired (List.Forall₂.cons appendable.toReadable List.Forall₂.nil)
  have read := (readSegments_retired parts all).1
  apply collect_same
  · rw [active, Option.toList_some, read]
    simp
  · exact (readSegments_retired (fun es member => parts es (by simp [member])) h.retired).2
  · rw [active, Option.map_some,
      readSegment_readable (parts current (by simp)) appendable.toReadable]

theorem stored_written {w : World} {old : List (List Entry)} {current : List Entry} {e : Entry}
    {seg : Segment} (h : Stored w old current) (active : w.mgr.activeSegment = some seg)
    (notFull : seg.isFull = false)
    (same : (appended seg (frames current).length e).path = seg.path) :
    Stored (written w (w.disk.put seg.path (frames (current ++ [e])))
      (appended seg (frames current).length e) active same) old (current ++ [e]) := by
  obtain ⟨found, active', appendable, path, count⟩ := h.active
  have eq : found = seg := Option.some.inj (active'.symm.trans active)
  subst eq
  have below : current.length < walMaxEntries := by
    simp only [Segment.isFull, Bool.or_eq_false_iff, decide_eq_false_iff_not] at notFull
    omega
  have other : ∀ n : UInt32, n ≠ w.mgr.nextSegmentNumber →
      (w.disk.put found.path (frames (current ++ [e]))).contents (segmentPath w.mgr.dataDir n) =
        w.disk.contents (segmentPath w.mgr.dataDir n) := by
    intro n ne
    apply contents_put_ne
    rw [path]
    exact fun same => ne (segmentPath_injective same)
  refine ⟨h.isOpen, h.number, h.few, ⟨_, rfl, appendable_appended appendable e, path, ?_⟩, ?_, ?_,
    h.behind, ?_, h.short⟩
  · simp only [appended, UInt32.toNat_add, count, List.length_append, List.length_singleton]
    simp only [walMaxEntries] at below
    exact Nat.mod_eq_of_lt (by simp; omega)
  · simp only [List.length_append, List.length_singleton]
    omega
  · apply retired_congr h.retired
    intro seg' member
    obtain ⟨n, path', before⟩ := h.behind seg' member
    rw [path']
    apply other
    intro same
    have := h.number
    rw [same] at before
    omega
  · intro n after
    have untouched := other n (by intro same; rw [same] at after; exact Nat.lt_irrefl _ after)
    exact untouched.trans (h.fresh n after)

theorem stored_number {w : World} {old : List (List Entry)} {current : List Entry}
    (h : Stored w old current) :
    (w.mgr.nextSegmentNumber + 1).toNat = w.mgr.sealedSegments.length + 2 := by
  have few := h.few
  have number := h.number
  simp only [descriptorLimit] at few
  rw [WordCounters.succ_of_room (by omega), number]

theorem stored_sealed {w : World} {old : List (List Entry)} {current : List Entry} {seg : Segment}
    (h : Stored w old current) (appendable : Appendable w.disk seg current)
    (path : seg.path = segmentPath w.mgr.dataDir w.mgr.nextSegmentNumber) :
    List.Forall₂ (Readable w.disk) (w.mgr.sealedSegments ++ [seg.seal]) (old ++ [current]) ∧
      ∀ seg' ∈ w.mgr.sealedSegments ++ [seg.seal], ∃ n : UInt32,
        seg'.path = segmentPath w.mgr.dataDir n ∧ n.toNat ≤ w.mgr.sealedSegments.length + 1 := by
  constructor
  · exact List.rel_append h.retired (List.Forall₂.cons
      ⟨appendable.image, appendable.size, appendable.position⟩ List.Forall₂.nil)
  · intro seg' member
    rcases List.mem_append.mp member with older | last
    · obtain ⟨n, path', before⟩ := h.behind seg' older
      exact ⟨n, path', by omega⟩
    · rw [List.mem_singleton.mp last]
      exact ⟨_, path, h.number.le⟩

theorem stored_rollover {w : World} {old : List (List Entry)} {current : List Entry}
    (h : Stored w old current)
    (granted : ∀ seg, (triggerSegmentRollover w .clean).mgr.activeSegment = some seg →
      seg.fd.isSome) :
    Stored (triggerSegmentRollover w .clean) (old ++ [current]) [] ∧
      NotFull (triggerSegmentRollover w .clean) := by
  obtain ⟨seg, active, appendable, path, count⟩ := h.active
  have free : w.mgr.descriptors < descriptorLimit := by
    by_contra full
    obtain ⟨seg', opened, closed⟩ := rollover_denied full
    have := granted seg' opened
    simp [closed] at this
  have used : w.mgr.descriptors = w.mgr.sealedSegments.length + 1 := by
    simp [Manager.descriptors, active, retired_count h.retired, appendable.position]
  have next := stored_number h
  have retired : (triggerSegmentRollover w .clean).mgr.sealedSegments =
      w.mgr.sealedSegments ++ [seg.seal] := by
    simp [triggerSegmentRollover, active]
  obtain ⟨disk, opened⟩ := rollover_granted free
  have other (path : Path) : (triggerSegmentRollover w .clean).disk.contents path =
      w.disk.contents path := newSegment_contents _ _ _ _ _
  obtain ⟨readable, kept⟩ := stored_sealed h appendable path
  obtain ⟨newPath, started⟩ := newSegment_fresh (w.mgr.nextSeqId - 1)
    (h.fresh (w.mgr.nextSegmentNumber + 1) (by rw [next, h.number]; omega))
  have noEntries := newSegment_entryCount w.disk
    (segmentPath w.mgr.dataDir (w.mgr.nextSegmentNumber + 1)) (w.mgr.nextSeqId - 1) true
  rw [← disk] at started
  refine ⟨⟨h.isOpen, ?_, ?_, ⟨_, opened, started, newPath, ?_⟩, Nat.zero_le _, ?_, ?_, ?_, ?_⟩, ?_⟩
  · rw [retired, List.length_append, List.length_singleton]
    exact next
  · rw [retired, List.length_append, List.length_singleton]
    omega
  · rw [noEntries]
    rfl
  · rw [retired]
    exact retired_congr readable fun seg' _ => other seg'.path
  · rw [retired]
    intro seg' member
    obtain ⟨n, path', before⟩ := kept seg' member
    exact ⟨n, path', by simpa using before⟩
  · intro n after
    have beyond : w.mgr.sealedSegments.length + 2 < n.toNat := by
      rw [← next]
      exact after
    exact (other _).trans (h.fresh n (by rw [h.number]; omega))
  · intro es member
    rcases List.mem_append.mp member with older | last
    · exact h.short es older
    · rw [List.mem_singleton.mp last]
      exact h.room
  · exact ⟨_, opened, isFull_empty started.size noEntries⟩

theorem stored_writeEntry {w : World} {old : List (List Entry)} {current : List Entry}
    (h : Stored w old current) (notFull : NotFull w) (p : Payload) :
    ∃ w', WalManager.writeEntry .takesEffect w p.data p.len .clean =
        some (w', w.mgr.nextSeqId) ∧
      w'.mgr.nextSeqId = w.mgr.nextSeqId + 1 ∧
      ((∀ seg, w'.mgr.activeSegment = some seg → seg.fd.isSome) →
        ∃ old' current', Stored w' old' current' ∧ NotFull w' ∧
          old'.flatten ++ current' = old.flatten ++ current ++ [⟨w.mgr.nextSeqId, p⟩]) := by
  obtain ⟨seg, active, below⟩ := notFull
  obtain ⟨found, active', appendable, _⟩ := h.active
  have eq : found = seg := Option.some.inj (active'.symm.trans active)
  subst eq
  have wrote := appendable_append appendable ⟨w.mgr.nextSeqId, p⟩
  rcases writeEntry_open active h.isOpen with ⟨fault, _⟩ | ⟨disk, seg', ok, same, wrote', step⟩
  · rw [Io.clean_outcome, wrote] at fault
    cases fault
  · rw [Io.clean_outcome, wrote] at wrote'
    cases wrote'
    have next := stored_written h active below same
    refine ⟨_, step, ?_, ?_⟩
    · unfold rollOverIfNeeded
      dsimp only [written]
      split <;> rfl
    · intro granted
      unfold rollOverIfNeeded at granted ⊢
      dsimp only [written] at granted ⊢
      split
      · rename_i full
        rw [if_pos full] at granted
        obtain ⟨stored, empty⟩ := stored_rollover next granted
        exact ⟨_, _, stored, empty, by simp⟩
      · rename_i full
        exact ⟨_, _, next, ⟨_, rfl, by simpa using full⟩, by simp⟩

theorem stored_writeEntry_faults {w : World} {old : List (List Entry)} {current : List Entry}
    (h : Stored w old current) (payload : Option Bytes) (payloadLen : UInt32) :
    WalManager.writeEntry .faults w payload payloadLen .clean = none := by
  obtain ⟨seg, active, appendable, _⟩ := h.active
  rcases writeEntry_open active h.isOpen with ⟨_, fault⟩ | ⟨disk, seg', ok, same, wrote, _⟩
  · exact fault
  · rw [writeEntry_faults _ _ _ _ appendable.position appendable.unsealed
      appendable.writable] at wrote
    cases wrote

/-- The session's world holds the log's entries under the ids 1, 2, 3, ..., and has
    answered as the log has. -/
def Refines (init : TableStore) (s : Option Session) (l : Log) : Prop :=
  ∃ t old current, s = some t ∧ t.replies = l.replies ∧ Stored t.world old current ∧
    Legible init (old.flatten ++ current) ∧ NotFull t.world ∧ t.world.mgr.nextSeqId.toNat =
      l.entries.length + 1 ∧
    (old.flatten ++ current).map (fun e => (e.seqId.toNat, e.payload.bytes)) = numbered l.entries

theorem numbered_append (entries : List Bytes) (payload : Bytes) :
    numbered (entries ++ [payload]) = numbered entries ++ [(entries.length + 1, payload)] := by
  simp [numbered, List.mapIdx_append]

theorem stored_length {w : World} {old : List (List Entry)} {current : List Entry}
    (h : Stored w old current) :
    (old.flatten ++ current).length ≤ (descriptorLimit + 1) * walMaxEntries := by
  have chunks : old.length = w.mgr.sealedSegments.length := h.retired.length_eq.symm
  have each : old.flatten.length ≤ old.length * walMaxEntries := by
    rw [List.length_flatten]
    have := List.sum_le_card_nsmul (old.map List.length) walMaxEntries (by
      intro n member
      obtain ⟨es, inside, rfl⟩ := List.mem_map.mp member
      exact h.short es inside)
    simpa using this
  have few := Nat.mul_le_mul_right walMaxEntries h.few
  have room := h.room
  rw [← chunks] at few
  rw [List.length_append, Nat.succ_mul]
  omega

theorem refines_step {init : TableStore} (s : Option Session) (l : Log) (call : LogCall)
    (h : Refines init s l) (complete : IoCompletes init s call ∧ TableFilled init call) :
    Refines init (sessionStep init s call) (logStep l call) := by
  obtain ⟨t, old, current, rfl, replies, stored, legible, notFull, fence, pairs⟩ := h
  obtain ⟨complete, filled⟩ := complete
  cases call with
  | writeEntry p =>
    cases filled
    obtain ⟨w, returned, next, grown⟩ := stored_writeEntry stored notFull p
    have step : sessionStep .takesEffect (some t) (.writeEntry p) =
        some ⟨w, t.replies ++ [.seqId t.world.mgr.nextSeqId.toNat]⟩ := by
      simp [sessionStep, returned]
    obtain ⟨old', current', stored', notFull', entries⟩ := grown (complete _ step)
    have length : l.entries.length = (old.flatten ++ current).length := by
      have sameLength := congrArg List.length pairs
      rw [List.length_map, numbered, List.length_mapIdx] at sameLength
      exact sameLength.symm
    have bound := stored_length stored
    refine ⟨_, old', current', step, ?_, stored', .inl rfl, notFull', ?_, ?_⟩
    · rw [logStep, replies, fence]
    · simp only [logStep, next, UInt64.toNat_add, fence, List.length_append, List.length_singleton]
      simp only [descriptorLimit, walMaxEntries] at bound
      exact Nat.mod_eq_of_lt (by simp; omega)
    · rw [entries, List.map_append, pairs, logStep, numbered_append]
      simp [fence]
  | triggerSegmentRollover =>
    obtain ⟨stored', notFull'⟩ := stored_rollover stored (complete _ rfl)
    refine ⟨_, _, _, rfl, ?_, stored', ?_, notFull', fence, ?_⟩
    · rw [logStep, replies]
    · rw [List.flatten_concat, List.append_nil]
      exact legible
    · rw [List.flatten_concat, List.append_nil]
      exact pairs
  | collectEntriesForReplay =>
    have step : sessionStep init (some t) .collectEntriesForReplay =
        some ⟨t.world, t.replies ++ [answer ((old.flatten ++ current).map Entry.stored)]⟩ := by
      simp [sessionStep, stored_collect legible stored]
    have answered : answer ((old.flatten ++ current).map Entry.stored) =
        .entries (numbered l.entries) := by
      rw [← pairs, answer, List.map_map]
      rfl
    refine ⟨_, old, current, step, ?_, stored, legible, notFull, fence, pairs⟩
    rw [logStep, replies, answered]

theorem opened_refines (init : TableStore) (dataDir : Path) :
    Refines init (opened dataDir) ⟨[], []⟩ := by
  have empty (path : Path) : Disk.contents (fun _ => none) path = [] := rfl
  obtain ⟨disk, active⟩ := openWal_granted
    (descriptors_left (w := ⟨fun _ => none, newManager dataDir⟩) rfl rfl)
  obtain ⟨path, appendable⟩ := newSegment_fresh (0 + 1 - 1) (empty (segmentPath dataDir 1))
  have noEntries := newSegment_entryCount (fun _ => none) (segmentPath dataDir 1) (0 + 1 - 1) true
  refine ⟨_, [], [], rfl, rfl, ⟨rfl, rfl, Nat.zero_le _, ⟨_, active, ?_, path, ?_⟩,
    Nat.zero_le _, List.Forall₂.nil, ?_, ?_, ?_⟩, .inr rfl, ⟨_, active, ?_⟩, rfl, rfl⟩
  · rw [disk]
    exact appendable
  · exact congrArg UInt32.toNat noEntries
  · intro seg member
    cases member
  · intro n _
    exact (newSegment_contents _ _ _ _ _).trans (empty _)
  · intro es member
    cases member
  · exact isFull_empty appendable.size noEntries

def AnswersAsLog (init : TableStore) (dataDir : Path) (calls : List LogCall) (k : Nat) : Prop :=
  ∃ t, run (sessionStep init) (opened dataDir) (calls.take k) = some t ∧
    t.replies = (run logStep ⟨[], []⟩ (calls.take k)).replies ∧
    ∃ seg, t.world.mgr.activeSegment = some seg ∧ seg.fileSize < walSegmentSize ∧
      seg.entryCount.toNat < walMaxEntries

theorem answers_of_filled {init : TableStore} {dataDir : Path} {calls : List LogCall}
    (complete : Meets (sessionStep init) (IoCompletes init) (opened dataDir) calls)
    (filled : ∀ call ∈ calls, TableFilled init call) (k : Nat) :
    AnswersAsLog init dataDir calls k := by
  obtain ⟨t, _, _, reached, replies, _, _, ⟨seg, active, notFull⟩, _⟩ :=
    simulation (opened_refines init dataDir) refines_step
      (meets_and complete (meets_iff_actions.mpr filled)) k
  simp only [Segment.isFull, Bool.or_eq_false_iff, decide_eq_false_iff_not, not_le] at notFull
  exact ⟨t, reached, replies, seg, active, notFull⟩

theorem filled_of_answers {calls : List LogCall} {s : Option Session} {l : Log}
    (h : Refines .faults s l) (complete : Meets (sessionStep .faults) (IoCompletes .faults) s calls)
    (defined : ∀ k, (run (sessionStep .faults) s (calls.take k)).isSome) :
    ∀ call ∈ calls, TableFilled .faults call := by
  induction calls generalizing s l with
  | nil => simp
  | cons call calls ih =>
    have here : TableFilled .faults call := by
      cases call with
      | writeEntry p =>
        obtain ⟨t, old, current, rfl, _, stored, _⟩ := h
        have next := defined 1
        simp [run, sessionStep, stored_writeEntry_faults stored] at next
      | triggerSegmentRollover => trivial
      | collectEntriesForReplay => trivial
    rw [List.forall_mem_cons]
    exact ⟨here, ih (refines_step s l call h ⟨complete.1, here⟩) complete.2
      fun k => defined (k + 1)⟩

/-- One session, from an empty directory: at every point of every run of calls the answers
    are those of the append-only list and the active segment is not full, exactly if the
    store into the const table takes effect or nothing is written. -/
theorem session_refines_log (init : TableStore) (dataDir : Path) (calls : List LogCall)
    (complete : Meets (sessionStep init) (IoCompletes init) (opened dataDir) calls) :
    (∀ k, AnswersAsLog init dataDir calls k) ↔
      init = .takesEffect ∨ ∀ p, .writeEntry p ∉ calls := by
  constructor
  · intro answers
    cases init with
    | takesEffect => exact .inl rfl
    | faults =>
      refine .inr fun p written => ?_
      have defined (k : Nat) :
          (run (sessionStep .faults) (opened dataDir) (calls.take k)).isSome := by
        obtain ⟨t, reached, _⟩ := answers k
        rw [reached]
        rfl
      have filled := filled_of_answers (opened_refines .faults dataDir) complete defined _ written
      cases filled
  · intro met
    apply answers_of_filled complete
    intro call member
    cases call with
    | writeEntry p => exact met.resolve_right fun unwritten => unwritten p member
    | triggerSegmentRollover => trivial
    | collectEntriesForReplay => trivial

def twoSegments : List LogCall :=
  [.writeEntry (Payload.ofBytes [65] (by simp)), .triggerSegmentRollover,
    .writeEntry (Payload.ofBytes [66] (by simp)), .collectEntriesForReplay]

theorem two_segments_answered :
    ∃ t, run (sessionStep .takesEffect) (opened []) twoSegments = some t ∧
      t.replies = [.seqId 1, .done, .seqId 2, .entries [(1, [65]), (2, [66])]] ∧
      ∃ seg, t.world.mgr.activeSegment = some seg ∧ seg.fileSize < walSegmentSize ∧
        seg.entryCount.toNat < walMaxEntries :=
  (session_refines_log .takesEffect [] twoSegments (by
    simp only [twoSegments, Meets, IoCompletes, and_true]
    decide +kernel)).mpr (.inl rfl) 4

theorem faulting_session :
    (run (sessionStep .faults) (opened []) (twoSegments.take 1)).isNone ∧
      ¬ AnswersAsLog .faults [] twoSegments 1 := by
  have ended : (run (sessionStep .faults) (opened []) (twoSegments.take 1)).isNone := by
    decide +kernel
  refine ⟨ended, ?_⟩
  rintro ⟨t, reached, _⟩
  rw [reached] at ended
  cases ended

end SessionRefinement
