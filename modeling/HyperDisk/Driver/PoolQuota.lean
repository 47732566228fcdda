import Mathlib
import HyperDisk.Foundations.StepRuns
import HyperDisk.Foundations.ThreadStates

/- The quota on the block driver's nonpaged pool (blk_pool.c). HdPoolCheckQuota reads the usage,
   compares, and adds with an interlocked operation of its own, so other threads may come
   between; nothing in the driver takes an amount off the usage again. A LONGLONG is its
   value, an integer that wraps at 2^64. -/
namespace PoolQuota
open StepRuns ThreadStates

inductive Status where
  | success
  | insufficientResources
  deriving DecidableEq, Repr

structure PoolExtension where
  nonPagedPoolQuota : UInt64
  nonPagedPoolUsage : Int
  deriving DecidableEq, Repr

def toLongLong (n : UInt64) : Int := Int.bmod n.toNat (2 ^ 64)

def addLongLong (a b : Int) : Int := Int.bmod (a + b) (2 ^ 64)

def withinQuota (ext : PoolExtension) (size : UInt64) : Bool :=
  addLongLong ext.nonPagedPoolUsage (toLongLong size) ≤ toLongLong ext.nonPagedPoolQuota

def interlockedAdd (ext : PoolExtension) (size : UInt64) : PoolExtension :=
  { ext with nonPagedPoolUsage := addLongLong ext.nonPagedPoolUsage (toLongLong size) }

def poolCheckQuota (ext : PoolExtension) (size : UInt64) : Status × PoolExtension :=
  if withinQuota ext size then (.success, interlockedAdd ext size)
  else (.insufficientResources, ext)

theorem bmod_small {n : Nat} (small : n < 2 ^ 63) : Int.bmod n (2 ^ 64) = n := by
  apply Int.bmod_eq_of_le_mul_two
  · norm_cast
    omega
  · norm_cast
    omega

theorem toLongLong_small {n : UInt64} (small : n.toNat < 2 ^ 63) : toLongLong n = n.toNat :=
  bmod_small small

theorem addLongLong_small {a b : Nat} (small : a + b < 2 ^ 63) : addLongLong a b = (a + b : Nat) :=
  bmod_small small

/-- What a thread has compared but not added yet, and the sizes of all calls that succeeded. -/
structure System (T : Type) where
  ext : PoolExtension
  passed : T → Option UInt64
  granted : List UInt64

inductive Action (T : Type) where
  | check (t : T) (size : UInt64)
  | add (t : T)

section Steps
variable {T : Type} [DecidableEq T]

def unused (quota : UInt64) : System T := ⟨⟨quota, 0⟩, fun _ => none, []⟩

def step (s : System T) : Action T → System T
  | .check t size =>
    match s.passed t with
    | none =>
      if withinQuota s.ext size then { s with passed := setLocal s.passed t (some size) } else s
    | some _ => s
  | .add t =>
    match s.passed t with
    | none => s
    | some size => ⟨interlockedAdd s.ext size, setLocal s.passed t none, s.granted ++ [size]⟩

theorem alone (s : System T) (t : T) (size : UInt64) (free : s.passed t = none) :
    (run step s [.check t size, .add t]).ext = (poolCheckQuota s.ext size).2 := by
  by_cases fits : withinQuota s.ext size
  · simp [run, step, free, poolCheckQuota, fits]
  · simp [run, step, free, poolCheckQuota, fits]

def pendingSize : Option UInt64 → Nat
  | none => 0
  | some size => size.toNat

def AtMost (most : Nat) : Action T → Prop
  | .check _ size => size.toNat ≤ most
  | .add _ => True

end Steps

section Overshoot
variable {T : Type} [DecidableEq T] [Fintype T] {quota : UInt64} {most : Nat} {s : System T}

structure Bounded (quota : UInt64) (most : Nat) (s : System T) : Prop where
  limit : s.ext.nonPagedPoolQuota = quota
  sizes : ∀ t, pendingSize (s.passed t) ≤ most
  usage : s.ext.nonPagedPoolUsage = ((s.granted.map UInt64.toNat).sum : Nat)
  total : (s.granted.map UInt64.toNat).sum + ∑ t, pendingSize (s.passed t) ≤
    quota.toNat + (Fintype.card T - 1) * most

omit [DecidableEq T] in
theorem bounded_unused (quota : UInt64) (most : Nat) :
    Bounded quota most (unused quota : System T) := by
  constructor
  · rfl
  · intro t
    exact Nat.zero_le _
  · rfl
  · simp [unused, pendingSize]

omit [DecidableEq T] in
theorem withinQuota_iff (h : Bounded quota most s)
    (room : quota.toNat + Fintype.card T * most < 2 ^ 63) (t : T) {size : UInt64}
    (small : size.toNat ≤ most) :
    withinQuota s.ext size = true ↔ (s.granted.map UInt64.toNat).sum + size.toNat ≤
      quota.toNat := by
  have split := card_mul_eq t most
  have total := h.total
  rw [withinQuota, h.usage, h.limit, toLongLong_small (by omega), toLongLong_small (by omega),
    addLongLong_small (by omega), decide_eq_true_iff]
  omega

theorem bounded_step (room : quota.toNat + Fintype.card T * most < 2 ^ 63) (s : System T)
    (a : Action T) (h : Bounded quota most s) (small : AtMost most a) :
    Bounded quota most (step s a) := by
  cases a with
  | check t size =>
    have small : size.toNat ≤ most := small
    rw [step]
    cases free : s.passed t with
    | some _ => exact h
    | none =>
      dsimp only
      split
      · rename_i fits
        rw [withinQuota_iff h room t small] at fits
        have sum := total_setLocal pendingSize s.passed t (some size)
        have idle : pendingSize (s.passed t) = 0 := by
          rw [free]
          rfl
        have others := total_le_of_idle h.sizes idle
        rw [idle] at sum
        constructor
        · exact h.limit
        · intro u
          by_cases it : u = t
          · simpa [it, pendingSize] using small
          · simpa [it] using h.sizes u
        · exact h.usage
        · have asked : pendingSize (some size) = size.toNat := rfl
          dsimp only
          omega
      · exact h
  | add t =>
    rw [step]
    cases passed : s.passed t with
    | none => exact h
    | some size =>
      have sum := total_setLocal pendingSize s.passed t none
      have pending : pendingSize (s.passed t) = size.toNat := by
        rw [passed]
        rfl
      have asked := h.sizes t
      have total := h.total
      have none_left : pendingSize none = 0 := rfl
      have more : ((s.granted ++ [size]).map UInt64.toNat).sum =
          (s.granted.map UInt64.toNat).sum + size.toNat := by simp
      have split := card_mul_eq t most
      constructor
      · exact h.limit
      · intro u
        by_cases it : u = t
        · simp [it, pendingSize]
        · simpa [it] using h.sizes u
      · rw [more]
        dsimp only [interlockedAdd]
        rw [h.usage, toLongLong_small (by omega), addLongLong_small (by omega)]
      · rw [more]
        dsimp only
        omega

theorem bounded_run (room : quota.toNat + Fintype.card T * most < 2 ^ 63)
    {actions : List (Action T)} (small : ∀ a ∈ actions, AtMost most a) :
    Bounded quota most (run step (unused quota) actions) := by
  have meets : Meets step (fun _ a => AtMost most a) (unused quota : System T) actions :=
    meets_iff_actions.mpr small
  exact always_run (invariant_always (bounded_unused quota most) (bounded_step room) meets)

omit [Fintype T] in
theorem run_checks (size : UInt64) (s : System T) (fits : withinQuota s.ext size = true)
    (threads : List T) (free : ∀ t ∈ threads, s.passed t = none) (distinct : threads.Nodup) :
    run step s (threads.map fun t => .check t size) =
      { s with passed := fun t => if t ∈ threads then some size else s.passed t } := by
  induction threads generalizing s with
  | nil => simp [run]
  | cons t threads ih =>
    rw [List.nodup_cons] at distinct
    have here : step s (.check t size) = { s with passed := setLocal s.passed t (some size) } := by
      simp [step, free t (by simp), fits]
    rw [List.map_cons, run, here, ih { s with passed := setLocal s.passed t (some size) } fits _
      distinct.2]
    · apply congrArg fun passed => (⟨s.ext, passed, s.granted⟩ : System T)
      funext u
      by_cases it : u = t
      · simp [it, distinct.1]
      · simp [it]
    · intro u later
      have other : u ≠ t := by
        rintro rfl
        exact distinct.1 later
      simpa [other] using free u (List.mem_cons_of_mem t later)

omit [Fintype T] in
theorem run_adds (size : UInt64) (s : System T) (threads : List T)
    (passed : ∀ t ∈ threads, s.passed t = some size) (distinct : threads.Nodup) :
    (run step s (threads.map .add)).granted = s.granted ++ List.replicate threads.length size := by
  induction threads generalizing s with
  | nil => simp [run]
  | cons t threads ih =>
    rw [List.nodup_cons] at distinct
    rw [List.map_cons, run, ih _ _ distinct.2]
    · simp [step, passed t (by simp), List.replicate_succ]
    · intro u later
      have other : u ≠ t := by
        rintro rfl
        exact distinct.1 later
      simpa [step, passed t (by simp), other] using passed u (List.mem_cons_of_mem t later)

noncomputable def rush (quota : UInt64) : List (Action T) :=
  Finset.univ.toList.map (fun t => .check t quota) ++ Finset.univ.toList.map .add

theorem rush_granted (fits : withinQuota (unused quota : System T).ext quota = true) :
    (run step (unused quota : System T) (rush quota)).granted =
      List.replicate (Fintype.card T) quota := by
  have distinct : (Finset.univ : Finset T).toList.Nodup := Finset.nodup_toList _
  rw [rush, run_append, run_checks quota _ fits _ (fun _ _ => rfl) distinct,
    run_adds quota _ _ _ distinct]
  · simp [unused]
  · intro t here
    simp

/-- However the calls overlap, the usage is the sum of what was granted and exceeds the quota
    by at most one request of each thread but one. With all threads asking for the whole
    quota at once that bound is reached. -/
theorem quota_overshoot (quota : UInt64) (most : Nat)
    (room : quota.toNat + Fintype.card T * most < 2 ^ 63) :
    (∀ actions : List (Action T), (∀ a ∈ actions, AtMost most a) →
      (run step (unused quota) actions).ext.nonPagedPoolUsage =
        (((run step (unused quota) actions).granted.map UInt64.toNat).sum : Nat) ∧
      (run step (unused quota) actions).ext.nonPagedPoolUsage ≤
        quota.toNat + ((Fintype.card T - 1) * most : Nat)) ∧
    (Nonempty T → quota.toNat = most → ∃ actions : List (Action T), (∀ a ∈ actions, AtMost most a) ∧
      (run step (unused quota) actions).ext.nonPagedPoolUsage =
        quota.toNat + ((Fintype.card T - 1) * most : Nat)) := by
  constructor
  · intro actions small
    have h := bounded_run room small
    refine ⟨h.usage, ?_⟩
    have total := h.total
    rw [h.usage]
    omega
  · rintro ⟨t⟩ whole
    have small : ∀ a ∈ rush (T := T) quota, AtMost most a := by
      intro a here
      rcases List.mem_append.mp here with asked | added
      · obtain ⟨u, -, rfl⟩ := List.mem_map.mp asked
        exact whole.le
      · obtain ⟨u, -, rfl⟩ := List.mem_map.mp added
        trivial
    refine ⟨rush quota, small, ?_⟩
    have fits : withinQuota (unused quota : System T).ext quota = true := by
      rw [withinQuota_iff (bounded_unused quota most) room t whole.le]
      simp [unused]
    rw [(bounded_run room small).usage, rush_granted fits, List.map_replicate,
      List.sum_replicate_nat, card_mul_eq t, whole]
    omega

end Overshoot

theorem three_threads_overshoot :
    ∃ actions : List (Action (Fin 3)), (∀ a ∈ actions, AtMost 4096 a) ∧
      (run step (unused 4096) actions).ext.nonPagedPoolUsage = 12288 := by
  obtain ⟨actions, small, usage⟩ := (quota_overshoot (T := Fin 3) 4096 4096 (by decide)).2 ⟨0⟩ rfl
  exact ⟨actions, small, by rw [usage]; rfl⟩

end PoolQuota
