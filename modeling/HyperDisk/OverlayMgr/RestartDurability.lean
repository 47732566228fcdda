import HyperDisk.Foundations.StepRuns
import HyperDisk.OverlayMgr.ManagerSteps

/- Acknowledged entries across restarts. Open looks at one segment file and writes from
   its first byte on, so an entry survives when it lies in that file and no write lands
   on bytes that are already there. -/
namespace RestartDurability
open LittleEndian FileImages WalRecords RecordRoundTrip WalSegments SegmentFrames WalManager
open CheckpointText CrashReplay ManagerSteps StepRuns

inductive SessionCall where
  | writeEntry (payload : Option Bytes) (payloadLen : UInt32)
  | triggerSegmentRollover
  | writeCheckpoint (flushedSeqId : UInt64) (now : Int)

/-- A session's calls and its end: Close, after which the same object may be opened
    again, or the end of the process. -/
structure Session where
  calls : List SessionCall
  processEnds : Bool

inductive Event where
  | start
  | call (c : SessionCall)
  | finish (processEnds : Bool)

def Session.events (s : Session) : List Event :=
  .start :: (s.calls.map .call ++ [.finish s.processEnds])

structure Acked where
  seqId : UInt64
  payload : Bytes
  path : Path
  deriving DecidableEq

structure Durable where
  world : World
  acked : List Acked

def acknowledge (t : Durable) (seqId : UInt64) (payload : Bytes) : List Acked :=
  if seqId = 0 then t.acked
  else t.acked ++ [⟨seqId, payload, (t.world.mgr.activeSegment.map Segment.path).getD []⟩]

def eventStep (init : TableStore) (s : Option Durable) (event : Event) : Option Durable := do
  let t ← s
  match event with
  | .start => some ⟨openWal t.world .clean, t.acked⟩
  | .call (.writeEntry payload payloadLen) =>
    let (w, seqId) ← writeEntry init t.world payload payloadLen .clean
    some ⟨w, acknowledge t seqId ((payload.getD []).take payloadLen.toNat)⟩
  | .call .triggerSegmentRollover => some ⟨triggerSegmentRollover t.world .clean, t.acked⟩
  | .call (.writeCheckpoint flushedSeqId now) =>
    some ⟨(writeCheckpoint t.world flushedSeqId now .clean).1, t.acked⟩
  | .finish false => some ⟨closeWal t.world, t.acked⟩
  | .finish true => some ⟨⟨t.world.disk, newManager t.world.mgr.dataDir⟩, t.acked⟩

def emptyDirectory (dataDir : Path) : Option Durable :=
  some ⟨⟨fun _ => none, newManager dataDir⟩, []⟩

def Recovered (init : TableStore) (s : Option Durable) : Prop :=
  ∃ t w entries, s = some t ∧ collectEntriesForReplay init t.world .clean = some (w, entries) ∧
    (entries.map pairOf).Pairwise (fun a b => a.1 < b.1) ∧
    ∀ a ∈ t.acked, flushed t.world < a.seqId → (a.seqId, a.payload) ∈ entries.map pairOf

/-- Open finds every unflushed entry in the one file it opens; WriteEntry has valid
    arguments, an unwrapped fence, and a descriptor at the end of the file's bytes. -/
def NothingOrphaned (s : Option Durable) : Event → Prop
  | .start => ∀ t, s = some t → ∀ a ∈ t.acked, flushed t.world < a.seqId →
      a.path = segmentPath t.world.mgr.dataDir t.world.mgr.nextSegmentNumber
  | .call (.writeEntry payload payloadLen) =>
    (∃ p : Payload, p.data = payload ∧ p.len = payloadLen) ∧
      ∀ t, s = some t → t.world.mgr.nextSeqId ≠ 0 ∧
        ∀ seg, t.world.mgr.activeSegment = some seg → ∀ pos, seg.fd = some pos →
          pos = (t.world.disk.contents seg.path).length
  | _ => True

structure Intact (w : World) (acked : List Acked) (files : UInt32 → List Entry) : Prop where
  image : ∀ n, w.disk.contents (segmentPath w.mgr.dataDir n) = frames (files n)
  sorted : ∀ n, (files n).Pairwise (fun a b => a.seqId < b.seqId)
  logged : ∀ a ∈ acked, ∃ n, a.path = segmentPath w.mgr.dataDir n ∧
    ∃ e ∈ files n, e.pair = (a.seqId, a.payload)

/-- An open manager. A descriptor at the end of its file has written all that is in it,
    so the fence is above those ids. -/
structure Running (w : World) (files : UInt32 → List Entry) : Prop where
  isOpen : w.mgr.isOpen = true
  active : ∃ seg, w.mgr.activeSegment = some seg ∧
    seg.path = segmentPath w.mgr.dataDir w.mgr.nextSegmentNumber ∧
    seg.isSealed = false ∧ seg.readOnly = false ∧
    (∀ pos, seg.fd = some pos → pos = (frames (files w.mgr.nextSegmentNumber)).length →
      w.mgr.nextSeqId ≠ 0 → ∀ e ∈ files w.mgr.nextSegmentNumber, e.seqId < w.mgr.nextSeqId)

def Idle (s : Option Durable) : Prop :=
  ∃ t files, s = some t ∧ Intact t.world t.acked files ∧
    t.world.mgr.activeSegment = none ∧ t.world.mgr.sealedSegments = []

def Busy (s : Option Durable) : Prop :=
  ∃ t files, s = some t ∧ Intact t.world t.acked files ∧ Running t.world files

theorem newSegment_writable (disk : Disk) (path : Path) (startSeqId : UInt64) (opens : Bool) :
    let seg := (newSegment disk path startSeqId false opens).2
    seg.isSealed = false ∧ seg.readOnly = false ∧ ∀ pos, seg.fd = some pos → pos = 0 := by
  unfold newSegment
  split
  · split <;> simp
  · simp

theorem newSegment_size (disk : Disk) (path : Path) (startSeqId : UInt64) :
    let seg := (newSegment disk path startSeqId false true).2
    seg.fd = some 0 ∧ seg.fileSize = (disk.contents path).length := by
  cases image : disk path <;> simp [newSegment, image, Disk.contents]

theorem eq_nil_of_frames {es : List Entry} (empty : (frames es).length = 0) : es = [] := by
  have := length_le_frames es
  exact List.length_eq_zero_iff.mp (by omega)

theorem running_opened {w : World} {files : UInt32 → List Entry} {disk : Disk} {path : Path}
    {startSeqId : UInt64} {opens : Bool} (isOpen : w.mgr.isOpen = true)
    (active : w.mgr.activeSegment = some (newSegment disk path startSeqId false opens).2)
    (named : path = segmentPath w.mgr.dataDir w.mgr.nextSegmentNumber) : Running w files := by
  obtain ⟨unsealed, writable, position⟩ := newSegment_writable disk path startSeqId opens
  refine ⟨isOpen, _, active, ?_, unsealed, writable, ?_⟩
  · rw [newSegment_path, named]
  · intro pos here atEnd _ e member
    rw [position pos here] at atEnd
    rw [eq_nil_of_frames atEnd.symm] at member
    cases member

theorem intact_congr {w w' : World} {acked : List Acked} {files : UInt32 → List Entry}
    (h : Intact w acked files) (dataDir : w'.mgr.dataDir = w.mgr.dataDir)
    (same : ∀ n, w'.disk.contents (segmentPath w.mgr.dataDir n) =
      w.disk.contents (segmentPath w.mgr.dataDir n)) : Intact w' acked files := by
  refine ⟨?_, h.sorted, ?_⟩
  · intro n
    rw [dataDir, same]
    exact h.image n
  · rw [dataDir]
    exact h.logged

theorem intact_openWal {w : World} {acked : List Acked} {files : UInt32 → List Entry}
    (h : Intact w acked files) : Intact (openWal w .clean) acked files :=
  intact_congr h rfl fun _ => newSegment_contents _ _ _ _ _

theorem intact_rollover {w : World} {acked : List Acked} {files : UInt32 → List Entry}
    (h : Intact w acked files) : Intact (triggerSegmentRollover w .clean) acked files :=
  intact_congr h rfl fun _ => newSegment_contents _ _ _ _ _

theorem running_rollover {w : World} {files : UInt32 → List Entry} (isOpen : w.mgr.isOpen = true) :
    Running (triggerSegmentRollover w .clean) files :=
  running_opened isOpen rfl rfl

theorem busy_rollOverIfNeeded {w : World} {acked : List Acked} {files : UInt32 → List Entry}
    (h : Intact w acked files) (running : Running w files) :
    Intact (rollOverIfNeeded w .clean) acked files ∧ Running (rollOverIfNeeded w .clean) files := by
  obtain ⟨seg, active, _⟩ := running.active
  rw [rollOverIfNeeded, active]
  dsimp only
  split
  · exact ⟨intact_rollover h, running_rollover running.isOpen⟩
  · exact ⟨h, running⟩

def logEntry (files : UInt32 → List Entry) (n : UInt32) (e : Entry) (m : UInt32) : List Entry :=
  if m = n then files n ++ [e] else files m

theorem logEntry_mono {files : UInt32 → List Entry} {n m : UInt32} {e x : Entry}
    (member : x ∈ files m) : x ∈ logEntry files n e m := by
  unfold logEntry
  split
  · rename_i same
    rw [← same]
    exact List.mem_append_left [e] member
  · exact member

theorem intact_written {t : Durable} {files : UInt32 → List Entry} {seg seg' : Segment}
    (h : Intact t.world t.acked files) (p : Payload) (active : t.world.mgr.activeSegment = some seg)
    (path : seg.path = segmentPath t.world.mgr.dataDir t.world.mgr.nextSegmentNumber)
    (unwrapped : t.world.mgr.nextSeqId ≠ 0)
    (below : ∀ e ∈ files t.world.mgr.nextSegmentNumber, e.seqId < t.world.mgr.nextSeqId)
    (same : seg'.path = seg.path) :
    Intact (written t.world (t.world.disk.put seg.path
          (frames (files t.world.mgr.nextSegmentNumber ++ [⟨t.world.mgr.nextSeqId, p⟩]))) seg'
            active same) (acknowledge t t.world.mgr.nextSeqId p.bytes)
      (logEntry files t.world.mgr.nextSegmentNumber ⟨t.world.mgr.nextSeqId, p⟩) := by
  refine ⟨?_, ?_, ?_⟩
  · intro n
    unfold logEntry
    split
    · rename_i here
      rw [here]
      exact path ▸ contents_put _ _ _
    · rename_i ne
      refine (contents_put_ne _ ?_).trans (h.image n)
      rw [path]
      exact fun clash => ne (segmentPath_injective clash)
  · intro n
    unfold logEntry
    split
    · simp only [List.pairwise_append, List.pairwise_singleton, List.mem_singleton, true_and]
      exact ⟨h.sorted _, fun a member b last => by rw [last]; exact below a member⟩
    · exact h.sorted n
  · intro a member
    rw [acknowledge, if_neg unwrapped] at member
    rcases List.mem_append.mp member with older | last
    · obtain ⟨n, file, e, logged, pair⟩ := h.logged a older
      exact ⟨n, file, e, logEntry_mono logged, pair⟩
    · rw [List.mem_singleton.mp last]
      refine ⟨t.world.mgr.nextSegmentNumber, ?_, ⟨t.world.mgr.nextSeqId, p⟩, ?_, rfl⟩
      · rw [active, Option.map_some, Option.getD_some]
        exact path
      · simp [logEntry]

theorem running_written {w : World} {files : UInt32 → List Entry} {seg seg' : Segment} {disk : Disk}
    {e : Entry} (running : Running w files) (active : w.mgr.activeSegment = some seg)
    (id : e.seqId = w.mgr.nextSeqId)
    (below : ∀ e ∈ files w.mgr.nextSegmentNumber, e.seqId < w.mgr.nextSeqId)
    (path : seg.path = segmentPath w.mgr.dataDir w.mgr.nextSegmentNumber)
    (same : seg'.path = seg.path) (unsealed : seg'.isSealed = false)
    (writable : seg'.readOnly = false) :
    Running (written w disk seg' active same) (logEntry files w.mgr.nextSegmentNumber e) := by
  refine ⟨running.isOpen, seg', rfl, same.trans path, unsealed, writable, ?_⟩
  intro _ _ _ wraps x member
  have fence : (written w disk seg' active same).mgr.nextSeqId = w.mgr.nextSeqId + 1 := rfl
  rw [fence] at wraps ⊢
  apply lt_add_one_of_le ?_ wraps
  simp only [logEntry, written, if_true, List.mem_append, List.mem_singleton] at member
  rcases member with older | last
  · exact UInt64.le_of_lt (below x older)
  · rw [last, id]
    exact UInt64.le_refl _

theorem busy_writeEntry {t : Durable} {files : UInt32 → List Entry}
    (h : Intact t.world t.acked files) (running : Running t.world files) (p : Payload)
    (unwrapped : t.world.mgr.nextSeqId ≠ 0)
    (atEnd : ∀ seg, t.world.mgr.activeSegment = some seg → ∀ pos, seg.fd = some pos →
      pos = (t.world.disk.contents seg.path).length) :
    ∃ w seqId, writeEntry .takesEffect t.world p.data p.len .clean = some (w, seqId) ∧
      ∃ files', Intact w (acknowledge t seqId p.bytes) files' ∧ Running w files' := by
  obtain ⟨seg, active, path, unsealed, writable, behind⟩ := running.active
  cases fd : seg.fd with
  | none =>
    have refused : WalSegments.writeEntry .takesEffect t.world.disk seg t.world.mgr.nextSeqId
        p.data p.len Io.clean.outcome = some (t.world.disk, seg, false) := by
      simp [WalSegments.writeEntry, fd]
    rcases writeEntry_open active running.isOpen with ⟨fault, _⟩ | ⟨_, _, _, same, wrote, step⟩
    · rw [refused] at fault
      cases fault
    · rw [refused] at wrote
      cases wrote
      refine ⟨_, _, step, files, intact_congr h rfl fun _ => rfl, running.isOpen, seg, rfl, path,
        unsealed, writable, ?_⟩
      intro pos here
      rw [fd] at here
      cases here
  | some pos =>
    have image := h.image t.world.mgr.nextSegmentNumber
    rw [← path] at image
    have position := atEnd seg active pos fd
    rw [image] at position
    have below := behind pos fd position unwrapped
    rw [position] at fd
    have appends := writeEntry_at_end ⟨t.world.mgr.nextSeqId, p⟩ image fd unsealed writable
    rcases writeEntry_open active running.isOpen with ⟨fault, _⟩ | ⟨_, _, _, same, wrote, step⟩
    · rw [Io.clean_outcome, appends] at fault
      cases fault
    · rw [Io.clean_outcome, appends] at wrote
      cases wrote
      refine ⟨_, _, step, _, busy_rollOverIfNeeded
        (intact_written h p active path unwrapped below same)
        (running_written running active rfl below path same unsealed writable)⟩

theorem busy_start (s : Option Durable) (h : Idle s) : Busy (eventStep .takesEffect s .start) := by
  obtain ⟨t, files, rfl, intact, _, _⟩ := h
  exact ⟨_, files, rfl, intact_openWal intact, running_opened rfl rfl rfl⟩

theorem busy_call (s : Option Durable) (c : SessionCall) (h : Busy s)
    (kept : NothingOrphaned s (.call c)) : Busy (eventStep .takesEffect s (.call c)) := by
  obtain ⟨t, files, rfl, intact, running⟩ := h
  cases c with
  | writeEntry payload payloadLen =>
    obtain ⟨⟨p, rfl, rfl⟩, position⟩ := kept
    obtain ⟨unwrapped, atEnd⟩ := position t rfl
    obtain ⟨w, seqId, returned, files', intact', running'⟩ :=
      busy_writeEntry intact running p unwrapped atEnd
    refine ⟨⟨w, acknowledge t seqId p.bytes⟩, files', ?_, intact', running'⟩
    simp only [eventStep, returned, Option.bind_eq_bind, Option.bind_some]
    rfl
  | triggerSegmentRollover =>
    exact ⟨_, files, rfl, intact_rollover intact, running_rollover running.isOpen⟩
  | writeCheckpoint flushedSeqId now =>
    refine ⟨_, files, rfl, intact_congr intact rfl fun n => ?_, running.isOpen, running.active⟩
    exact contents_put_ne _ (segmentPath_ne_checkpointPath _ n)

theorem idle_finish (s : Option Durable) (processEnds : Bool) (h : Busy s) :
    Idle (eventStep .takesEffect s (.finish processEnds)) := by
  obtain ⟨t, files, rfl, intact, _⟩ := h
  cases processEnds with
  | false => exact ⟨_, files, rfl, intact_congr intact rfl fun _ => rfl, rfl, rfl⟩
  | true => exact ⟨_, files, rfl, intact_congr intact rfl fun _ => rfl, rfl, rfl⟩

theorem busy_calls {s : Option Durable} (calls : List SessionCall) (h : Busy s)
    (kept : Meets (eventStep .takesEffect) NothingOrphaned s (calls.map .call)) :
    Busy (run (eventStep .takesEffect) s (calls.map .call)) := by
  induction calls generalizing s with
  | nil => exact h
  | cons c calls ih => exact ih (busy_call s c h kept.1) kept.2

theorem idle_session {s : Option Durable} (session : Session) (h : Idle s)
    (kept : Meets (eventStep .takesEffect) NothingOrphaned s session.events) :
    Idle (run (eventStep .takesEffect) s session.events) := by
  rw [Session.events, run, run_append]
  exact idle_finish _ _ (busy_calls _ (busy_start s h) (meets_append.mp kept.2).1)

theorem idle_sessions {s : Option Durable} (sessions : List Session) (h : Idle s)
    (kept : Meets (eventStep .takesEffect) NothingOrphaned s (sessions.flatMap Session.events)) :
    Idle (run (eventStep .takesEffect) s (sessions.flatMap Session.events)) := by
  induction sessions generalizing s with
  | nil => exact h
  | cons session sessions ih =>
    rw [List.flatMap_cons] at kept ⊢
    obtain ⟨first, rest⟩ := meets_append.mp kept
    rw [run_append]
    exact ih (idle_session session h first) rest

theorem flushed_openWal (w : World) : flushed (openWal w .clean) = flushed w := by
  have untouched : (openWal w .clean).disk (checkpointPath w.mgr.dataDir) =
      w.disk (checkpointPath w.mgr.dataDir) := by
    simp only [openWal, newSegment]
    split
    · split
      · rfl
      · exact put_ne [] (segmentPath_ne_checkpointPath _ _).symm
      · rfl
    · rfl
  unfold flushed readCheckpoint
  rw [show (openWal w .clean).mgr.dataDir = w.mgr.dataDir from rfl, untouched]

theorem recovered_start (s : Option Durable) (h : Idle s) (kept : NothingOrphaned s .start) :
    Recovered .takesEffect (eventStep .takesEffect s .start) := by
  obtain ⟨t, files, rfl, intact, active, retired⟩ := h
  obtain ⟨disk, opened⟩ := openWal_granted (descriptors_left active retired)
  have image := intact.image t.world.mgr.nextSegmentNumber
  obtain ⟨fd, size⟩ := newSegment_size t.world.disk
    (segmentPath t.world.mgr.dataDir t.world.mgr.nextSegmentNumber) (flushed t.world + 1 - 1)
  have read : readSegments .takesEffect (openWal t.world .clean).disk .clean
      ((openWal t.world .clean).mgr.sealedSegments ++
        (openWal t.world .clean).mgr.activeSegment.toList) =
      some ((files t.world.mgr.nextSegmentNumber).map Entry.stored) := by
    have none : (openWal t.world .clean).mgr.sealedSegments = [] := retired
    rw [none, opened, Option.toList_some, List.nil_append, readSegments, Io.clean_reads,
      readAllEntries_frames (.inl rfl) ?_ (by rw [size, image]) fd]
    · simp [readSegments]
    · rw [newSegment_path, disk, newSegment_contents, image]
  obtain ⟨w, collected⟩ := collect_eq read
  have pairs : ((files t.world.mgr.nextSegmentNumber).map Entry.stored).map pairOf =
      (files t.world.mgr.nextSegmentNumber).map Entry.pair := by
    rw [List.map_map]
    rfl
  refine ⟨_, w, _, rfl, collected, ?_, ?_⟩
  · rw [pairs, List.pairwise_map]
    exact intact.sorted _
  · intro a member above
    rw [flushed_openWal] at above
    obtain ⟨n, path, e, logged, pair⟩ := intact.logged a member
    have here : n = t.world.mgr.nextSegmentNumber :=
      segmentPath_injective (path.symm.trans (kept t rfl a member above))
    rw [pairs, ← pair, ← here]
    exact List.mem_map_of_mem logged

theorem idle_emptyDirectory (dataDir : Path) : Idle (emptyDirectory dataDir) := by
  refine ⟨_, fun _ => [], rfl, ⟨fun _ => rfl, fun _ => List.Pairwise.nil, ?_⟩, rfl, rfl⟩
  intro a member
  cases member

/-- After any number of sessions, the next Open recovers every acknowledged entry above
    the checkpoint, provided each Open found those in the file it opened and no record
    was written over existing bytes. -/
theorem acknowledged_entries_recovered (init : TableStore) (filled : init = .takesEffect)
    (dataDir : Path) (sessions : List Session)
    (kept : Meets (eventStep init) NothingOrphaned (emptyDirectory dataDir)
      (sessions.flatMap Session.events ++ [.start])) :
    Recovered init (run (eventStep init) (emptyDirectory dataDir)
      (sessions.flatMap Session.events ++ [.start])) := by
  subst filled
  obtain ⟨before, last⟩ := meets_append.mp kept
  rw [run_append]
  exact recovered_start _ (idle_sessions sessions (idle_emptyDirectory dataDir) before) last.1

def oneByte (b : UInt8) : SessionCall := .writeEntry (some [b]) 1

def flushedSession : Session := ⟨[oneByte 65, oneByte 66, .writeCheckpoint 1 0], true⟩

def reached (sessions : List Session) : Option Durable :=
  run (eventStep .takesEffect) (emptyDirectory []) (sessions.flatMap Session.events ++ [.start])

theorem acknowledged_entries_recovered_one_flushed :
    Recovered .takesEffect (reached [flushedSession]) := by
  apply acknowledged_entries_recovered .takesEffect rfl
  have valid (b : UInt8) : ∃ p : Payload, p.data = some [b] ∧ p.len = 1 :=
    ⟨Payload.ofBytes [b] (by simp), rfl, rfl⟩
  simp only [flushedSession, oneByte, Session.events, List.flatMap_cons, List.flatMap_nil,
    List.map_cons, List.map_nil, List.cons_append, List.nil_append, List.append_nil, Meets,
    NothingOrphaned, valid, true_and, and_true]
  decide +kernel

def rolledOver : List Session := [⟨[oneByte 65, .triggerSegmentRollover, oneByte 66], true⟩]

def reopened : List Session := [⟨[oneByte 65, oneByte 66], true⟩, ⟨[oneByte 67], true⟩]

def outcome (sessions : List Session) :
    Option (List (UInt64 × Bytes) × UInt64 × Option (List (UInt64 × Bytes))) :=
  (reached sessions).map fun t =>
    (t.acked.map fun a => (a.seqId, a.payload), flushed t.world,
      (collectEntriesForReplay .takesEffect t.world .clean).map fun found => found.2.map pairOf)

/-- The entry of the second segment is never looked for; and the second process writes
    over the first entry of the first one. -/
theorem restart_loses_entries :
    outcome rolledOver = some ([(1, [65]), (2, [66])], 0, some [(1, [65])]) ∧
      outcome reopened = some ([(1, [65]), (2, [66]), (1, [67])], 0, some [(1, [67]), (2, [66])]) ∧
      ¬ Recovered .takesEffect (reached rolledOver) := by
  have orphaned : outcome rolledOver = some ([(1, [65]), (2, [66])], 0, some [(1, [65])]) := by
    decide +kernel
  refine ⟨orphaned, by decide +kernel, ?_⟩
  rintro ⟨t, w, entries, there, collected, _, every⟩
  simp only [outcome, there, collected, Option.map_some, Option.some.injEq,
    Prod.mk.injEq] at orphaned
  obtain ⟨acked, checkpoint, returned⟩ := orphaned
  have second : ((2, [66]) : UInt64 × Bytes) ∈ t.acked.map fun a => (a.seqId, a.payload) := by
    rw [acked]
    simp
  obtain ⟨a, member, pair⟩ := List.mem_map.mp second
  have found := every a member (by rw [checkpoint, (Prod.mk.inj pair).1]; decide)
  rw [pair, returned] at found
  simp at found

end RestartDurability
