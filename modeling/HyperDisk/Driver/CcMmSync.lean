import HyperDisk.Foundations.SharedLocks

/- The synchronization callbacks of the block driver (blk_cc_mm_sync), which the cache manager,
   the mapped page writer and section creation call around their work on a file of the disk.
   The three resources are waited for without limit (Wait is TRUE), so a call does not fail; a
   thread leaves one section before it enters another. -/
namespace CcMmSync
open SharedLocks StepRuns

inductive Resource where
  | fsRtlHeaderLock
  | ccFlushLock
  | mmModWriteLock
  deriving DecidableEq, Repr

def acquireForCcFlush : List (Resource × Mode) :=
  [(.fsRtlHeaderLock, .shared), (.ccFlushLock, .exclusive)]

def releaseForCcFlush : List Resource := [.ccFlushLock, .fsRtlHeaderLock]

def acquireForModWrite : List (Resource × Mode) :=
  [(.fsRtlHeaderLock, .shared), (.mmModWriteLock, .exclusive)]

def releaseForModWrite : List Resource := [.mmModWriteLock, .fsRtlHeaderLock]

def acquireFileForNtCreateSection : List (Resource × Mode) := [(.fsRtlHeaderLock, .exclusive)]

def releaseFileForNtCreateSection : List Resource := [.fsRtlHeaderLock]

inductive Work where
  | ccFlush
  | modWrite
  | ntCreateSection
  deriving DecidableEq, Repr

def callbacks : Plan Resource Work where
  take
    | .ccFlush => acquireForCcFlush
    | .modWrite => acquireForModWrite
    | .ntCreateSection => acquireFileForNtCreateSection
  back
    | .ccFlush => releaseForCcFlush
    | .modWrite => releaseForModWrite
    | .ntCreateSection => releaseFileForNtCreateSection

def rank : Resource → Nat
  | .fsRtlHeaderLock => 0
  | .ccFlushLock => 1
  | .mmModWriteLock => 1

theorem callbacks_ordered : Ordered callbacks rank := by
  constructor
  · intro work
    cases work <;> simp [callbacks, acquireForCcFlush, acquireForModWrite,
      acquireFileForNtCreateSection, rank]
  · intro work
    cases work <;> rfl

theorem rank_bounded (r : Resource) : rank r < 2 := by
  cases r <;> decide

/-- Work that two threads may do at the same time. -/
def Together : Work → Work → Prop
  | .ccFlush, .modWrite => True
  | .modWrite, .ccFlush => True
  | _, _ => False

instance (a b : Work) : Decidable (Together a b) := by
  unfold Together
  split <;> infer_instance

theorem shared_resource {a b : Work} (apart : ¬ Together a b) :
    ∃ r m n, (r, m) ∈ callbacks.take a ∧ (r, n) ∈ callbacks.take b ∧
      (m = .exclusive ∨ n = .exclusive) := by
  cases a <;> cases b <;>
    first
    | exact absurd trivial apart
    | exact ⟨.ccFlushLock, .exclusive, .exclusive, by decide⟩
    | exact ⟨.mmModWriteLock, .exclusive, .exclusive, by decide⟩
    | exact ⟨.fsRtlHeaderLock, .exclusive, .exclusive, by decide⟩
    | exact ⟨.fsRtlHeaderLock, .exclusive, .shared, by decide⟩
    | exact ⟨.fsRtlHeaderLock, .shared, .exclusive, by decide⟩

section Threads
variable {T : Type} [DecidableEq T]

omit [DecidableEq T] in
theorem inside_together {s : State T Resource Work} (h : Consistent callbacks s) {t u : T}
    {a b : Work} (other : t ≠ u) (first : s.phase t = .inside a) (second : s.phase u = .inside b) :
    Together a b := by
  by_contra apart
  obtain ⟨r, m, n, mine, its, exclusive⟩ := shared_resource apart
  have left : (t, m) ∈ s.owners r := (h.agree r t m).mpr (by rw [first]; exact mine)
  have right : (u, n) ∈ s.owners r := (h.agree r u n).mpr (by rw [second]; exact its)
  rcases exclusive with rfl | rfl
  · exact other (h.alone r t u n left right).symm
  · exact other (h.alone r u t m right left)

def enter (t : T) (work : Work) : List (Action T Work) :=
  .call t work :: List.replicate ((callbacks.take work).length + 1) (.advance t)

theorem together_reached {t u : T} {a b : Work} (other : t ≠ u) (may : Together a b) :
    ∃ s, run (stepAll callbacks) (some start) (enter t a ++ enter u b) = some s ∧
      s.phase t = .inside a ∧ s.phase u = .inside b := by
  have apart : u ≠ t := other.symm
  cases a <;> cases b <;>
    first
    | exact absurd may (by decide)
    | simp [enter, callbacks, acquireForCcFlush, acquireForModWrite, run, stepAll, step, advance,
        start, other, apart, Grantable, List.replicate]

/-- However the threads are scheduled, no resource is released by a thread that does not own
    it, whoever owns one exclusively is its only owner, what two threads do at the same time is a
    flush and a mapped page write and nothing else, and when all are done no resource is owned.
    Those two can indeed be done together. -/
theorem callbacks_exclude :
    (∀ actions, ∃ s,
      run (stepAll callbacks) (some (start : State T Resource Work)) actions = some s ∧
      (∀ r t u m, (t, .exclusive) ∈ s.owners r → (u, m) ∈ s.owners r → u = t) ∧
      (∀ t u a b, t ≠ u → s.phase t = .inside a → s.phase u = .inside b → Together a b) ∧
      ((∀ t, s.phase t = .idle) → ∀ r, s.owners r = [])) ∧
    ∀ t u a b, t ≠ u → Together a b →
      ∃ actions s, run (stepAll callbacks) (some (start : State T Resource Work)) actions = some s ∧
        s.phase t = .inside a ∧ s.phase u = .inside b := by
  constructor
  · intro actions
    obtain ⟨s, ended, h⟩ := run_consistent callbacks_ordered actions
    refine ⟨s, ended, h.alone, ?_, ?_⟩
    · intro t u a b other first second
      exact inside_together h other first second
    · intro idle r
      rw [eq_start_of_idle h idle]
      rfl
  · intro t u a b other may
    exact ⟨_, together_reached other may⟩

/-- In every state that the threads can reach, one of those inside a call or a section waits
    for nothing, or only for a resource that nobody owns; and without a further call all of
    them can finish. -/
theorem callbacks_never_deadlock [Fintype T] (actions : List (Action T Work)) :
    ∃ s, run (stepAll callbacks) (some (start : State T Resource Work)) actions = some s ∧
      ((∃ t, s.phase t ≠ .idle) →
        ∃ t, s.phase t ≠ .idle ∧ ∀ r, wanted callbacks (s.phase t) = some r → s.owners r = []) ∧
      ∃ more, (∀ a ∈ more, ∀ t work, a ≠ .call t work) ∧
        run (stepAll callbacks) (some s) more = some start := by
  obtain ⟨s, ended, h⟩ := run_consistent callbacks_ordered actions
  refine ⟨s, ended, ?_, drains callbacks_ordered rank_bounded h⟩
  rintro ⟨t, busy⟩
  exact someone_unblocked callbacks_ordered rank_bounded h busy

end Threads

end CcMmSync
