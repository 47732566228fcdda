import HyperDisk.Foundations.StepRuns
import HyperDisk.Foundations.WordCounters

/- The IRP tracker of the block driver (blk_irp_tracker.c) and the balance of the references it
   takes. Each call is one step; an IRP is its address. The kernel calls that take or drop a
   reference, complete a request or set the timer are recorded in order. -/
namespace IrpTracker
open StepRuns WordCounters

abbrev Irp := UInt64

structure IrpTrackEntry where
  irp : Irp
  submitTimestamp : UInt64
  majorFunction : UInt8
  minorFunction : UInt8
  ioSize : UInt32
  deriving DecidableEq, Repr

structure Tracker where
  activeList : List IrpTrackEntry
  activeCount : UInt32
  timerRunning : Bool
  deriving DecidableEq, Repr

inductive KernelCall where
  | obReferenceObject (irp : Irp)
  | obDereferenceObject (irp : Irp)
  | ioCompleteRequest (irp : Irp)
  | setTimer
  deriving DecidableEq, Repr

def initTracker : Tracker := ⟨[], 0, false⟩

/-- HdIrpTrackerSubmit at a tick count in milliseconds; `allocates` is whether there is memory
    for the entry. -/
def submit (t : Tracker) (irp : Irp) (majorFn minorFn : UInt8) (allocates : Bool) (now : UInt64) :
    Tracker × List KernelCall :=
  if ¬ allocates then (t, [])
  else
    (⟨t.activeList ++ [⟨irp, now, majorFn, minorFn, 0⟩], t.activeCount + 1, true⟩,
      .obReferenceObject irp :: if t.timerRunning then [] else [.setTimer])

def removeFirst (irp : Irp) : List IrpTrackEntry → Option (List IrpTrackEntry)
  | [] => none
  | e :: rest => if e.irp = irp then some rest else (removeFirst irp rest).map (e :: ·)

def complete (t : Tracker) (irp : Irp) : Tracker × List KernelCall :=
  match removeFirst irp t.activeList with
  | some list =>
    ({ t with activeList := list, activeCount := t.activeCount - 1 }, [.obDereferenceObject irp])
  | none => (t, [])

/-- `(now - e->SubmitTimestamp) > HD_IRP_TIMEOUT_SEC * 1000`, in unsigned arithmetic. -/
def expired (now : UInt64) (e : IrpTrackEntry) : Bool := 60000 < now - e.submitTimestamp

def scan (now : UInt64) :
    List IrpTrackEntry → UInt32 → List IrpTrackEntry × UInt32 × List KernelCall
  | [], count => ([], count, [])
  | e :: rest, count =>
    if expired now e then
      let (kept, count, calls) := scan now rest (count - 1)
      (kept, count, (if e.irp ≠ 0 then [.ioCompleteRequest e.irp] else []) ++ calls)
    else
      let (kept, count, calls) := scan now rest count
      (e :: kept, count, calls)

def watchdog (t : Tracker) (now : UInt64) : Tracker × List KernelCall :=
  let (kept, count, calls) := scan now t.activeList t.activeCount
  if 0 < count then (⟨kept, count, t.timerRunning⟩, calls ++ [.setTimer])
  else (⟨kept, count, false⟩, calls)

inductive Operation where
  | submit (irp : Irp) (majorFn minorFn : UInt8) (allocates : Bool) (now : UInt64)
  | complete (irp : Irp)
  | watchdog (now : UInt64)
  deriving DecidableEq, Repr

def perform (t : Tracker) : Operation → Tracker × List KernelCall
  | .submit irp majorFn minorFn allocates now => submit t irp majorFn minorFn allocates now
  | .complete irp => complete t irp
  | .watchdog now => watchdog t now

structure Tracked where
  tracker : Tracker
  calls : List KernelCall
  deriving DecidableEq, Repr

def newTracked : Tracked := ⟨initTracker, []⟩

def step (s : Tracked) (op : Operation) : Tracked :=
  ⟨(perform s.tracker op).1, s.calls ++ (perform s.tracker op).2⟩

def entriesFor (irp : Irp) (list : List IrpTrackEntry) : Nat := list.countP fun e => e.irp = irp

def held (irp : Irp) (calls : List KernelCall) : Int :=
  calls.count (.obReferenceObject irp) - calls.count (.obDereferenceObject irp)

def Balanced (s : Tracked) : Prop :=
  s.tracker.activeCount.toNat = s.tracker.activeList.length ∧
    ∀ irp, held irp s.calls = entriesFor irp s.tracker.activeList

/-- The watchdog finds nothing that has expired, and fewer than 2^32 entries are in use. -/
def Harmless (s : Tracked) : Operation → Prop
  | .submit _ _ _ allocates _ => allocates = true → s.tracker.activeList.length + 1 < 2 ^ 32
  | .complete _ => True
  | .watchdog now => ∀ e ∈ s.tracker.activeList, expired now e = false

theorem held_append (irp : Irp) (calls more : List KernelCall) :
    held irp (calls ++ more) = held irp calls + held irp more := by
  simp only [held, List.count_append]
  omega

theorem entriesFor_cons (irp : Irp) (e : IrpTrackEntry) (list : List IrpTrackEntry) :
    entriesFor irp (e :: list) = entriesFor irp list + if e.irp = irp then 1 else 0 := by
  simp [entriesFor, List.countP_cons]

theorem entriesFor_append (irp : Irp) (list more : List IrpTrackEntry) :
    entriesFor irp (list ++ more) = entriesFor irp list + entriesFor irp more :=
  List.countP_append

theorem held_submit (irp other : Irp) (running : Bool) :
    held other (.obReferenceObject irp :: if running then [] else [.setTimer]) =
      if irp = other then 1 else 0 := by
  by_cases same : irp = other <;> cases running <;> simp [held, same]

theorem held_complete (irp other : Irp) :
    held other [.obDereferenceObject irp] = if irp = other then -1 else 0 := by
  by_cases same : irp = other <;> simp [held, same]

theorem submit_balanced_iff {s : Tracked} (h : Balanced s) (irp : Irp) (majorFn minorFn : UInt8)
    (allocates : Bool) (now : UInt64) :
    Balanced (step s (.submit irp majorFn minorFn allocates now)) ↔
      Harmless s (.submit irp majorFn minorFn allocates now) := by
  obtain ⟨count, refs⟩ := h
  cases allocates with
  | false => simpa [step, perform, submit, Harmless, Balanced] using ⟨count, refs⟩
  | true =>
    have balance : ∀ other, held other
        (s.calls ++ (submit s.tracker irp majorFn minorFn true now).2) =
        entriesFor other (submit s.tracker irp majorFn minorFn true now).1.activeList := by
      intro other
      have taken := held_submit irp other s.tracker.timerRunning
      simp only [submit, not_true_eq_false, if_false, held_append, entriesFor_append, refs other,
        taken, entriesFor_cons]
      split <;> simp [entriesFor]
    have counts := succ_iff (c := s.tracker.activeCount)
    rw [count] at counts
    simp only [Harmless, forall_const]
    rw [← counts]
    constructor
    · intro after
      simpa [step, perform, submit] using after.1
    · intro up
      exact ⟨by simpa [step, perform, submit] using up, balance⟩

theorem removeFirst_spec {irp : Irp} {list rest : List IrpTrackEntry}
    (removed : removeFirst irp list = some rest) :
    list.length = rest.length + 1 ∧
      ∀ other, entriesFor other list = entriesFor other rest + if irp = other then 1 else 0 := by
  induction list generalizing rest with
  | nil => cases removed
  | cons e list ih =>
    rw [removeFirst] at removed
    split at removed
    · rename_i same
      cases removed
      refine ⟨rfl, fun other => ?_⟩
      rw [entriesFor_cons, same]
    · obtain ⟨tail, found, rfl⟩ := Option.map_eq_some_iff.mp removed
      obtain ⟨length, entries⟩ := ih found
      refine ⟨by simp [length], fun other => ?_⟩
      rw [entriesFor_cons, entriesFor_cons, entries other]
      omega

theorem complete_balanced {s : Tracked} (h : Balanced s) (irp : Irp) :
    Balanced (step s (.complete irp)) := by
  obtain ⟨count, refs⟩ := h
  cases found : removeFirst irp s.tracker.activeList with
  | none => simpa [step, perform, complete, found, Balanced] using ⟨count, refs⟩
  | some rest =>
    obtain ⟨length, entries⟩ := removeFirst_spec found
    refine ⟨?_, fun other => ?_⟩
    · simpa [step, perform, complete, found] using pred_of_succ (count.trans length)
    · have before := refs other
      rw [entries other] at before
      simp only [step, perform, complete, found, held_append, held_complete, before]
      split <;> omega

theorem scan_kept (now : UInt64) (list : List IrpTrackEntry) (count : UInt32) :
    (scan now list count).1 = list.filter fun e => ¬ expired now e := by
  induction list generalizing count with
  | nil => rfl
  | cons e list ih =>
    by_cases old : expired now e <;> simp [scan, old, ih]

theorem held_scan (irp : Irp) (now : UInt64) (list : List IrpTrackEntry) (count : UInt32) :
    held irp (scan now list count).2.2 = 0 := by
  induction list generalizing count with
  | nil => rfl
  | cons e list ih =>
    by_cases old : expired now e
    · simp only [scan, old, if_true, held_append, ih]
      split <;> simp [held]
    · simp only [scan, old, if_false, Bool.false_eq_true, ih]

theorem scan_count (now : UInt64) (list : List IrpTrackEntry) (count : UInt32)
    (none : ∀ e ∈ list, expired now e = false) : (scan now list count).2.1 = count := by
  induction list with
  | nil => rfl
  | cons e list ih =>
    have fresh := none e List.mem_cons_self
    have later := ih fun other mem => none other (List.mem_cons_of_mem e mem)
    simp [scan, fresh, later]

theorem watchdog_list (t : Tracker) (now : UInt64) :
    (watchdog t now).1.activeList = t.activeList.filter fun e => ¬ expired now e := by
  rw [← scan_kept now t.activeList t.activeCount]
  simp only [watchdog]
  split <;> rfl

theorem watchdog_count (t : Tracker) (now : UInt64) :
    (watchdog t now).1.activeCount = (scan now t.activeList t.activeCount).2.1 := by
  simp only [watchdog]
  split <;> rfl

theorem held_watchdog (irp : Irp) (t : Tracker) (now : UInt64) :
    held irp (watchdog t now).2 = 0 := by
  have scanned := held_scan irp now t.activeList t.activeCount
  simp only [watchdog]
  split
  · rw [held_append, scanned]
    simp [held]
  · exact scanned

theorem watchdog_balanced_iff {s : Tracked} (h : Balanced s) (now : UInt64) :
    Balanced (step s (.watchdog now)) ↔ Harmless s (.watchdog now) := by
  obtain ⟨count, refs⟩ := h
  have after : ∀ irp, held irp (step s (.watchdog now)).calls =
      entriesFor irp s.tracker.activeList := by
    intro irp
    rw [← refs irp]
    simp [step, perform, held_append, held_watchdog]
  have list := watchdog_list s.tracker now
  constructor
  · intro balanced e mem
    have same := (after e.irp).symm.trans (balanced.2 e.irp)
    cases old : expired now e with
    | false => rfl
    | true =>
      have parts := List.countP_eq_countP_filter_add s.tracker.activeList (fun x =>
        decide (x.irp = e.irp))
        (fun x => decide ¬ (expired now x = true))
      have gone : 0 < (s.tracker.activeList.filter fun x => !decide ¬ (expired now x = true)).countP
          (fun x => decide (x.irp = e.irp)) := by
        apply List.countP_pos_iff.mpr
        exact ⟨e, List.mem_filter.mpr ⟨mem, by simp [old]⟩, by simp⟩
      simp only [step, perform, list, entriesFor] at same
      omega
  · intro fresh
    have kept : (watchdog s.tracker now).1.activeList = s.tracker.activeList := by
      rw [list]
      apply List.filter_eq_self.mpr
      intro e mem
      simp [fresh e mem]
    refine ⟨?_, fun irp => ?_⟩
    · simp only [step, perform, kept, watchdog_count, scan_count now _ _ fresh, count]
    · rw [after irp]
      simp only [step, perform, kept]

/-- The references are balanced throughout exactly when no step finds the wrap or an expired
    entry. -/
theorem tracker_balanced_iff (operations : List Operation) :
    Always step Balanced newTracked operations ↔ Meets step Harmless newTracked operations := by
  have start : Balanced newTracked := ⟨rfl, fun _ => rfl⟩
  apply always_iff_meets (I := fun _ => True) trivial start (fun _ _ _ => trivial)
  intro s op _ balanced
  cases op with
  | submit irp majorFn minorFn allocates now =>
    exact submit_balanced_iff balanced irp majorFn minorFn allocates now
  | complete irp => exact iff_of_true (complete_balanced balanced irp) trivial
  | watchdog now => exact watchdog_balanced_iff balanced now

theorem expired_reference_kept :
    let s := run step newTracked [.submit 4096 3 0 true 0, .watchdog 60001]
    ¬ Balanced s ∧ s.tracker.activeList = [] ∧ held 4096 s.calls = 1 := by
  refine ⟨fun balanced => ?_, by decide, by decide⟩
  exact absurd (balanced.2 4096) (by decide)

end IrpTracker
