import HyperDisk.Foundations.StepRuns
import HyperDisk.OverlayMgr.ManagerSteps

/- Sequence ids over runs with restarts. Open rebuilds the fence from the checkpoint
   alone, so ids stay increasing only as long as no Open finds a checkpoint behind an
   acknowledged id. -/
namespace SequenceIds
open LittleEndian FileImages WalRecords WalSegments WalManager CheckpointText ManagerSteps StepRuns

/-- The calls of a run; `crash` ends the process, and a new object runs on the same directory. -/
inductive Call where
  | openWal (io : Io)
  | writeEntry (payload : Option Bytes) (payloadLen : UInt32) (io : Io)
  | writeCheckpoint (flushedSeqId : UInt64) (now : Int) (io : Io)
  | crashReplay (now : Int) (io : Io)
  | triggerSegmentRollover (io : Io)
  | closeWal
  | crash

structure Traced where
  world : World
  acked : List UInt64

def acknowledge (acked : List UInt64) (seqId : UInt64) : List UInt64 :=
  if seqId = 0 then acked else acked ++ [seqId]

def callStep (init : TableStore) (s : Option Traced) (call : Call) : Option Traced := do
  let t ← s
  match call with
  | .openWal io => some ⟨openWal t.world io, t.acked⟩
  | .writeEntry payload payloadLen io =>
    let (w, seqId) ← writeEntry init t.world payload payloadLen io
    some ⟨w, acknowledge t.acked seqId⟩
  | .writeCheckpoint flushedSeqId now io =>
    some ⟨(writeCheckpoint t.world flushedSeqId now io).1, t.acked⟩
  | .crashReplay now io =>
    let w ← crashReplay init t.world now io
    some ⟨w, t.acked⟩
  | .triggerSegmentRollover io => some ⟨triggerSegmentRollover t.world io, t.acked⟩
  | .closeWal => some ⟨closeWal t.world, t.acked⟩
  | .crash => some ⟨⟨t.world.disk, newManager t.world.mgr.dataDir⟩, t.acked⟩

/-- Open reads a checkpoint that covers every acknowledged id, and no entry is written
    once the 64-bit fence has wrapped to 0. -/
def FenceAhead (s : Option Traced) : Call → Prop
  | .openWal io => ∀ t, s = some t → ∀ id ∈ t.acked, id ≤
      (readCheckpoint t.world.disk t.world.mgr.dataDir
        (io.reads (checkpointPath t.world.mgr.dataDir))).flushedSeqId
  | .writeEntry _ _ _ => ∀ t, s = some t → t.world.mgr.nextSeqId ≠ 0
  | _ => True

def Increasing (s : Option Traced) : Prop := ∀ t, s = some t → t.acked.Pairwise (· < ·)

structure Fenced (t : Traced) : Prop where
  increasing : t.acked.Pairwise (· < ·)
  ahead : t.world.mgr.isOpen = true → t.world.mgr.nextSeqId ≠ 0 →
    ∀ id ∈ t.acked, id < t.world.mgr.nextSeqId

theorem fenced_of_same {t : Traced} {w : World} (h : Fenced t)
    (fence : w.mgr.nextSeqId = t.world.mgr.nextSeqId) (opened : w.mgr.isOpen = t.world.mgr.isOpen) :
    Fenced ⟨w, t.acked⟩ :=
  ⟨h.increasing, by rw [fence, opened]; exact h.ahead⟩

theorem fenced_of_closed {t : Traced} {w : World} (h : Fenced t) (closed : w.mgr.isOpen = false) :
    Fenced ⟨w, t.acked⟩ :=
  ⟨h.increasing, fun opened => by rw [closed] at opened; cases opened⟩

theorem fenced_openWal {t : Traced} {io : Io} (h : Fenced t)
    (covered : FenceAhead (some t) (.openWal io)) : Fenced ⟨openWal t.world io, t.acked⟩ :=
  ⟨h.increasing, fun _ wraps id member => lt_add_one_of_le (covered t rfl id member) wraps⟩

theorem fenced_writeEntry {init : TableStore} {t : Traced} {w : World} {seqId : UInt64}
    {payload : Option Bytes} {payloadLen : UInt32} {io : Io} (h : Fenced t)
    (unwrapped : t.world.mgr.nextSeqId ≠ 0)
    (returned : writeEntry init t.world payload payloadLen io = some (w, seqId)) :
    Fenced ⟨w, acknowledge t.acked seqId⟩ := by
  rcases writeEntry_fence returned with ⟨rfl, rfl⟩ | ⟨opened, _, _, fence, id⟩
  · exact h
  · have below := h.ahead opened unwrapped
    have moved : w.mgr.nextSeqId ≠ 0 → ∀ id ∈ t.acked, id < w.mgr.nextSeqId := by
      rw [fence]
      intro wraps id member
      exact lt_add_one_of_le (UInt64.le_of_lt (below id member)) wraps
    rcases id with rfl | rfl
    · exact ⟨h.increasing, fun _ => moved⟩
    · rw [acknowledge, if_neg unwrapped]
      constructor
      · simp only [List.pairwise_append, List.pairwise_singleton, List.mem_singleton, true_and]
        exact ⟨h.increasing, fun a member b same => by rw [same]; exact below a member⟩
      · intro _ wraps a member
        rcases List.mem_append.mp member with old | new
        · exact moved wraps a old
        · rw [List.mem_singleton.mp new]
          rw [fence] at wraps ⊢
          exact lt_add_one_of_le (UInt64.le_refl _) wraps

theorem crashReplay_fence {init : TableStore} {w w' : World} {now : Int} {io : Io}
    (replayed : crashReplay init w now io = some w') :
    w'.mgr.nextSeqId = w.mgr.nextSeqId ∧ w'.mgr.isOpen = w.mgr.isOpen := by
  unfold crashReplay collectEntriesForReplay at replayed
  simp only [Option.bind_eq_bind, Option.bind_eq_some_iff, Option.some.injEq] at replayed
  obtain ⟨_, ⟨_, _, rfl⟩, rfl⟩ := replayed
  unfold writeCheckpoint
  split <;> exact ⟨rfl, rfl⟩

theorem fenced_callStep {init : TableStore} {t t' : Traced} {call : Call} (h : Fenced t)
    (ok : FenceAhead (some t) call) (stepped : callStep init (some t) call = some t') :
    Fenced t' := by
  cases call with
  | openWal io =>
    cases stepped
    exact fenced_openWal h ok
  | writeEntry payload payloadLen io =>
    simp only [callStep, Option.bind_eq_bind, Option.bind_some, Option.bind_eq_some_iff,
      Option.some.injEq] at stepped
    obtain ⟨⟨w, seqId⟩, returned, rfl⟩ := stepped
    exact fenced_writeEntry h (ok t rfl) returned
  | writeCheckpoint flushedSeqId now io =>
    cases stepped
    unfold writeCheckpoint
    split <;> exact fenced_of_same h rfl rfl
  | crashReplay now io =>
    simp only [callStep, Option.bind_eq_bind, Option.bind_some, Option.bind_eq_some_iff,
      Option.some.injEq] at stepped
    obtain ⟨w, replayed, rfl⟩ := stepped
    obtain ⟨fence, opened⟩ := crashReplay_fence replayed
    exact fenced_of_same h fence opened
  | triggerSegmentRollover io =>
    cases stepped
    exact fenced_of_same h rfl rfl
  | closeWal =>
    cases stepped
    exact fenced_of_closed h rfl
  | crash =>
    cases stepped
    exact fenced_of_closed h rfl

def newProcess (disk : Disk) (dataDir : Path) : Option Traced :=
  some ⟨⟨disk, newManager dataDir⟩, []⟩

/-- In every run whose Opens find a checkpoint at or above all acknowledged ids, those ids
    are strictly increasing, whatever the disk held at the start and however I/O fails. -/
theorem sequence_ids_increase (init : TableStore) (disk : Disk) (dataDir : Path)
    (calls : List Call)
    (covered : Meets (callStep init) FenceAhead (newProcess disk dataDir) calls) :
    Always (callStep init) Increasing (newProcess disk dataDir) calls := by
  have start : ∀ t, newProcess disk dataDir = some t → Fenced t := by
    intro t same
    cases same
    exact ⟨List.Pairwise.nil, fun _ _ id member => by cases member⟩
  have keep : ∀ s call, (∀ t, s = some t → Fenced t) → FenceAhead s call →
      ∀ t, callStep init s call = some t → Fenced t := by
    intro s call h ok t stepped
    cases s with
    | none => cases stepped
    | some before => exact fenced_callStep (h before rfl) ok stepped
  exact always_mono (fun s h t same => (h t same).increasing) (invariant_always start keep covered)

def oneByte : Call := .writeEntry (some [65]) 1 .clean

def checkpointedCalls : List Call :=
  [.openWal .clean, oneByte, oneByte, .writeCheckpoint 2 0 .clean, .crash, .openWal .clean, oneByte]

theorem checkpointed_ids_increase :
    Always (callStep .takesEffect) Increasing (newProcess (fun _ => none) [])
      checkpointedCalls := by
  apply sequence_ids_increase
  have reopened : (run (callStep .takesEffect) (newProcess (fun _ => none) [])
      (checkpointedCalls.take 5)).map (fun t => (t.acked, flushed t.world)) =
        some ([1, 2], 2) := by decide +kernel
  simp only [checkpointedCalls, oneByte, Meets, FenceAhead, and_true, true_and]
  refine ⟨?_, by decide +kernel, by decide +kernel, ?_, by decide +kernel⟩
  · intro t start id member
    cases start
    cases member
  · intro t reached id member
    rw [show run (callStep .takesEffect) _ (checkpointedCalls.take 5) = some t from reached,
      Option.map_some, Option.some.injEq, Prod.mk.injEq] at reopened
    rw [reopened.1] at member
    have covered : id ≤ flushed t.world := by
      rw [reopened.2]
      rcases List.mem_cons.mp member with first | second
      · rw [first]
        decide
      · rw [List.mem_singleton.mp second]
        decide
    exact covered

def uncheckpointedCalls : List Call :=
  [.openWal .clean, oneByte, .crash, .openWal .clean, oneByte]

theorem sequence_id_reused :
    (run (callStep .takesEffect) (newProcess (fun _ => none) []) uncheckpointedCalls).map
        Traced.acked = some [1, 1] ∧
      ¬ Always (callStep .takesEffect) Increasing (newProcess (fun _ => none) [])
        uncheckpointedCalls := by
  have reused : (run (callStep .takesEffect) (newProcess (fun _ => none) [])
      uncheckpointedCalls).map Traced.acked = some [1, 1] := by decide +kernel
  refine ⟨reused, fun always => ?_⟩
  obtain ⟨t, ended, acked⟩ := Option.map_eq_some_iff.mp reused
  have increasing := always_run always t ended
  rw [acked] at increasing
  exact absurd increasing (by decide)

end SequenceIds
