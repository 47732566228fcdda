import HyperDisk.Foundations.LatestEntries
import HyperDisk.Foundations.StepRuns
import HyperDisk.Foundations.WordCounters

/- The write path of the overlay filter (overlay_driver.c) and the data it keeps. A redirected
   write appends a copy of its data to the dirty list; a write that finds the list full first
   calls the sync routine, which frees every page. -/
namespace OverlayDriver
open StepRuns LatestEntries WordCounters

abbrev NtStatus := UInt32

def statusSuccess : NtStatus := 0
def statusInsufficientResources : NtStatus := 0xC000009A
def ntSuccess (status : NtStatus) : Bool := status < 0x80000000

def maxDirtyPages : UInt32 := 1048576

structure DirtyPage where
  blockOffset : UInt64
  data : List UInt8
  size : UInt32
  isDirty : Bool
  deriving DecidableEq, Repr

structure OverlayExtension where
  ramOverlayBase : UInt64
  ramOverlaySize : UInt64
  blockSize : UInt32
  dirtyPageCount : UInt32
  dirtyList : List DirtyPage
  walEnabled : Bool
  isStarted : Bool
  deriving DecidableEq, Repr

/-- HdOverlayFilterSetup: `base` is what the allocation of the RAM overlay returns, the other two
    are the results of FltRegisterFilter and FltStartFiltering. -/
def filterSetup (base : UInt64) (registered started : NtStatus) : NtStatus × OverlayExtension :=
  let ext : OverlayExtension := ⟨base, 4096 * 1024 * 1024, 4096, 0, [], false, false⟩
  if ¬ ntSuccess registered then (registered, ext)
  else if ¬ ntSuccess started then (started, ext)
  else (statusSuccess, { ext with isStarted := true })

structure Write where
  blockOffset : UInt64
  data : List UInt8
  size : UInt32
  whole : data.length = size.toNat
  deriving DecidableEq, Repr

/-- The loop of HdOverlaySyncDirtyPages: each page taken from the head lowers the counter. -/
def syncLoop : List DirtyPage → UInt32 → UInt32
  | [], count => count
  | _ :: rest, count => syncLoop rest (count - 1)

def syncDirtyPages (ext : OverlayExtension) : NtStatus × OverlayExtension :=
  (statusSuccess,
    { ext with dirtyList := [], dirtyPageCount := syncLoop ext.dirtyList ext.dirtyPageCount })

def invalidateAll (ext : OverlayExtension) : OverlayExtension := (syncDirtyPages ext).2

def pageOf (w : Write) : DirtyPage := ⟨w.blockOffset, w.data, w.size, true⟩

def writeRedirect (ext : OverlayExtension) (w : Write) (pageAllocates dataAllocates : Bool) :
    NtStatus × OverlayExtension :=
  if ext.ramOverlayBase = 0 then (statusInsufficientResources, ext)
  else
    let ext := if maxDirtyPages ≤ ext.dirtyPageCount then (syncDirtyPages ext).2 else ext
    if ¬ pageAllocates then (statusInsufficientResources, ext)
    else if ¬ dataAllocates then (statusInsufficientResources, ext)
    else
      (statusSuccess, { ext with
        dirtyList := ext.dirtyList ++ [pageOf w]
        dirtyPageCount := ext.dirtyPageCount + 1 })

structure Session where
  ext : OverlayExtension
  written : List Write
  deriving DecidableEq, Repr

def newSession (base : UInt64) (registered started : NtStatus) : Session :=
  ⟨(filterSetup base registered started).2, []⟩

def step (s : Session) (w : Write) : Session :=
  ⟨(writeRedirect s.ext w true true).2, s.written ++ [w]⟩

structure Kept (s : Session) : Prop where
  pages : ∀ offset w, latest (fun v => v.blockOffset = offset) s.written = some w →
    ∃ page ∈ s.ext.dirtyList, page.blockOffset = offset ∧ page.data = w.data
  count : s.ext.dirtyPageCount.toNat = s.ext.dirtyList.length
  limit : s.ext.dirtyPageCount ≤ maxDirtyPages

def Safe (s : Session) (w : Write) : Prop :=
  s.ext.dirtyPageCount < maxDirtyPages ∨ ∀ v ∈ s.written, v.blockOffset = w.blockOffset

theorem syncLoop_zero {list : List DirtyPage} {count : UInt32} (h : count.toNat = list.length) :
    syncLoop list count = 0 := by
  induction list generalizing count with
  | nil => exact UInt32.toNat_inj.mp h
  | cons page list ih =>
    apply ih
    exact pred_of_succ h

theorem step_base (s : Session) (w : Write) :
    (step s w).ext.ramOverlayBase = s.ext.ramOverlayBase := by
  simp only [step, writeRedirect]
  split
  · rfl
  · by_cases full : maxDirtyPages ≤ s.ext.dirtyPageCount <;> simp [full, syncDirtyPages]

theorem step_room {s : Session} (base : s.ext.ramOverlayBase ≠ 0)
    (room : s.ext.dirtyPageCount < maxDirtyPages) (w : Write) :
    (step s w).ext.dirtyList = s.ext.dirtyList ++ [pageOf w] ∧
      (step s w).ext.dirtyPageCount = s.ext.dirtyPageCount + 1 := by
  have notFull : ¬ maxDirtyPages ≤ s.ext.dirtyPageCount := UInt32.not_le.mpr room
  simp [step, writeRedirect, base, notFull]

theorem step_full {s : Session} (base : s.ext.ramOverlayBase ≠ 0)
    (full : ¬ s.ext.dirtyPageCount < maxDirtyPages)
    (count : s.ext.dirtyPageCount.toNat = s.ext.dirtyList.length) (w : Write) :
    (step s w).ext.dirtyList = [pageOf w] ∧ (step s w).ext.dirtyPageCount = 1 := by
  have reached : maxDirtyPages ≤ s.ext.dirtyPageCount := UInt32.not_lt.mp full
  simp [step, writeRedirect, base, reached, syncDirtyPages, syncLoop_zero count]

theorem count_next {c : UInt32} (room : c < maxDirtyPages) :
    (c + 1).toNat = c.toNat + 1 ∧ c + 1 ≤ maxDirtyPages := by
  rw [UInt32.lt_iff_toNat_lt, show maxDirtyPages.toNat = 1048576 from rfl] at room
  have up : (c + 1).toNat = c.toNat + 1 := succ_of_room (by omega)
  refine ⟨up, ?_⟩
  rw [UInt32.le_iff_toNat_le, show maxDirtyPages.toNat = 1048576 from rfl, up]
  omega

theorem kept_room {s : Session} (kept : Kept s) (base : s.ext.ramOverlayBase ≠ 0)
    (room : s.ext.dirtyPageCount < maxDirtyPages) (w : Write) : Kept (step s w) := by
  obtain ⟨list, count⟩ := step_room base room w
  obtain ⟨up, below⟩ := count_next room
  constructor
  · intro offset v found
    rw [list]
    rw [step, latest_snoc] at found
    split at found
    · rename_i here
      cases found
      exact ⟨pageOf w, by simp, of_decide_eq_true here, rfl⟩
    · obtain ⟨page, mem, same⟩ := kept.pages offset v found
      exact ⟨page, List.mem_append_left _ mem, same⟩
  · rw [list, count, up, kept.count, List.length_append, List.length_singleton]
  · rw [count]
    exact below

theorem kept_mem {s : Session} (kept : Kept s) {w : Write} (mem : w ∈ s.written) :
    ∃ page ∈ s.ext.dirtyList, page.blockOffset = w.blockOffset := by
  obtain ⟨last, found⟩ := latest_exists (p := fun v => v.blockOffset = w.blockOffset) mem (by simp)
  obtain ⟨page, here, same, _⟩ := kept.pages w.blockOffset last found
  exact ⟨page, here, same⟩

theorem kept_full_iff {s : Session} (kept : Kept s) (base : s.ext.ramOverlayBase ≠ 0)
    (full : ¬ s.ext.dirtyPageCount < maxDirtyPages) (w : Write) :
    Kept (step s w) ↔ ∀ v ∈ s.written, v.blockOffset = w.blockOffset := by
  obtain ⟨list, count⟩ := step_full base full kept.count w
  constructor
  · intro after v mem
    obtain ⟨page, here, same⟩ := kept_mem after (List.mem_append_left [w] mem)
    rw [list, List.mem_singleton] at here
    rw [← same, here, pageOf]
  · intro same
    constructor
    · intro offset v found
      have hit : v.blockOffset = offset := by simpa using latest_hit found
      have here : w.blockOffset = offset := by
        rcases List.mem_append.mp (latest_mem found) with earlier | last
        · exact (same v earlier).symm.trans hit
        · rw [← List.mem_singleton.mp last]
          exact hit
      rw [step, latest_snoc, if_pos (decide_eq_true here)] at found
      cases found
      exact ⟨pageOf w, by simp [list], here, rfl⟩
    · rw [list, count]
      rfl
    · rw [count]
      decide

theorem newSession_kept (base : UInt64) (registered started : NtStatus) :
    (newSession base registered started).ext.ramOverlayBase = base ∧
      Kept (newSession base registered started) := by
  have fresh : (newSession base registered started).ext.ramOverlayBase = base ∧
      (newSession base registered started).ext.dirtyList = [] ∧
      (newSession base registered started).ext.dirtyPageCount = 0 := by
    simp only [newSession, filterSetup]
    split
    · exact ⟨rfl, rfl, rfl⟩
    · split <;> exact ⟨rfl, rfl, rfl⟩
  obtain ⟨same, list, count⟩ := fresh
  refine ⟨same, ?_, ?_, ?_⟩
  · intro offset w found
    cases found
  · rw [list, count]
    rfl
  · rw [count]
    decide

/-- The redirected writes are kept throughout exactly when each write finds room or is to the
    only block written so far. -/
theorem writes_kept_iff (base : UInt64) (registered started : NtStatus) (allocated : base ≠ 0)
    (writes : List Write) :
    Always step Kept (newSession base registered started) writes ↔
      Meets step Safe (newSession base registered started) writes := by
  obtain ⟨same, start⟩ := newSession_kept base registered started
  have present : (newSession base registered started).ext.ramOverlayBase ≠ 0 := by
    rw [same]
    exact allocated
  apply always_iff_meets (I := fun s => s.ext.ramOverlayBase ≠ 0) present start
  · intro s w here
    rw [step_base]
    exact here
  · intro s w here kept
    by_cases room : s.ext.dirtyPageCount < maxDirtyPages
    · exact iff_of_true (kept_room kept here room w) (Or.inl room)
    · rw [kept_full_iff kept here room w, Safe, or_iff_right room]

def blockWrite (offset : UInt64) : Write := ⟨offset, [7], 1, rfl⟩

theorem two_blocks_kept :
    Meets step Safe (newSession 4096 0 0) [blockWrite 0, blockWrite 1] ∧
      Always step Kept (newSession 4096 0 0) [blockWrite 0, blockWrite 1] := by
  have meets : Meets step Safe (newSession 4096 0 0) [blockWrite 0, blockWrite 1] :=
    ⟨Or.inl (by decide), Or.inl (by decide), trivial⟩
  exact ⟨meets, (writes_kept_iff 4096 0 0 (by decide) _).mpr meets⟩

theorem run_written (s : Session) (writes : List Write) :
    (run step s writes).written = s.written ++ writes := by
  induction writes generalizing s with
  | nil => exact (List.append_nil _).symm
  | cons w writes ih =>
    rw [run, ih, step, List.append_assoc]
    rfl

theorem run_room {s : Session} (base : s.ext.ramOverlayBase ≠ 0)
    (count : s.ext.dirtyPageCount.toNat = s.ext.dirtyList.length) (writes : List Write)
    (room : s.ext.dirtyList.length + writes.length ≤ 1048576) :
    (run step s writes).ext.ramOverlayBase ≠ 0 ∧
      (run step s writes).ext.dirtyPageCount.toNat = (run step s writes).ext.dirtyList.length ∧
      (run step s writes).ext.dirtyList.length = s.ext.dirtyList.length + writes.length := by
  induction writes generalizing s with
  | nil => exact ⟨base, count, rfl⟩
  | cons w writes ih =>
    rw [List.length_cons] at room
    have space : s.ext.dirtyPageCount < maxDirtyPages := by
      rw [UInt32.lt_iff_toNat_lt, show maxDirtyPages.toNat = 1048576 from rfl, count]
      omega
    obtain ⟨list, next⟩ := step_room base space w
    have longer : (step s w).ext.dirtyList.length = s.ext.dirtyList.length + 1 := by
      rw [list, List.length_append, List.length_singleton]
    have present : (step s w).ext.ramOverlayBase ≠ 0 := by
      rw [step_base]
      exact base
    have counted : (step s w).ext.dirtyPageCount.toNat = (step s w).ext.dirtyList.length := by
      rw [next, (count_next space).1, longer, count]
    obtain ⟨stays, equal, length⟩ := ih present counted (by omega)
    refine ⟨stays, equal, ?_⟩
    rw [run, length, longer, List.length_cons]
    omega

theorem run_over_limit (writes : List Write) (full : writes.length = 1048576) (w : Write) :
    (run step (newSession 4096 0 0) (writes ++ [w])).ext.dirtyList = [pageOf w] := by
  obtain ⟨base, count, length⟩ := run_room (s := newSession 4096 0 0) (by decide) rfl writes
    (by rw [full]; decide)
  rw [run_append, run, run]
  apply (step_full base ?_ count w).1
  rw [UInt32.lt_iff_toNat_lt, count, length, full]
  decide

theorem first_block_lost :
    let writes := (blockWrite 0 :: List.replicate 1048575 (blockWrite 1)) ++ [blockWrite 1]
    ¬ Kept (run step (newSession 4096 0 0) writes) ∧
      ∀ page ∈ (run step (newSession 4096 0 0) writes).ext.dirtyList, page.blockOffset ≠ 0 := by
  intro writes
  have list : (run step (newSession 4096 0 0) writes).ext.dirtyList = [pageOf (blockWrite 1)] := by
    apply run_over_limit
    rw [List.length_cons, List.length_replicate]
  have gone : ∀ page ∈ (run step (newSession 4096 0 0) writes).ext.dirtyList,
      page.blockOffset ≠ 0 := by
    intro page mem
    rw [list, List.mem_singleton] at mem
    rw [mem]
    decide
  refine ⟨fun kept => ?_, gone⟩
  have first : blockWrite 0 ∈ (run step (newSession 4096 0 0) writes).written := by
    rw [run_written]
    exact List.mem_append_right _ List.mem_cons_self
  obtain ⟨page, mem, same⟩ := kept_mem kept first
  exact gone page mem same

end OverlayDriver
