import Mathlib.Algebra.BigOperators.Group.Finset.Basic
import Mathlib.Algebra.Order.BigOperators.Group.Finset
import Mathlib.Data.Fintype.Basic
import HyperDisk.Foundations.StepRuns

/- Threads that take several reader-writer locks in a row and give them back. A lock may be
   held by many threads in shared mode or by one in exclusive mode; whether a request that
   could be granted is granted is left to the scheduler, which runs the threads in any order.
   Where the locks are taken along an order and given back in reverse, no thread gives back
   what it does not hold, and there is always a thread that no other one keeps waiting. -/
namespace SharedLocks
open StepRuns

inductive Mode where
  | shared
  | exclusive
  deriving DecidableEq, Repr

/-- For each kind of section: the locks taken on the way in, and those given back on the way
    out. -/
structure Plan (R K : Type) where
  take : K → List (R × Mode)
  back : K → List R

structure Ordered {R K : Type} (plan : Plan R K) (rank : R → Nat) : Prop where
  rising : ∀ k, ((plan.take k).map fun g => rank g.1).Pairwise (· < ·)
  reversed : ∀ k, plan.back k = ((plan.take k).map Prod.fst).reverse

/-- Where a thread stands: the number counts the locks it has taken, or given back. -/
inductive Phase (K : Type) where
  | idle
  | taking (k : K) (n : Nat)
  | inside (k : K)
  | returning (k : K) (n : Nat)
  deriving DecidableEq

structure State (T R K : Type) where
  phase : T → Phase K
  owners : R → List (T × Mode)

inductive Action (T K : Type) where
  | call (t : T) (k : K)
  | advance (t : T)
  | leave (t : T)
  deriving DecidableEq

section Plans
variable {R K : Type} {plan : Plan R K} {rank : R → Nat}

def held (plan : Plan R K) : Phase K → List (R × Mode)
  | .idle => []
  | .taking k n => (plan.take k).take n
  | .inside k => plan.take k
  | .returning k n => (plan.take k).take ((plan.take k).length - n)

def wanted (plan : Plan R K) : Phase K → Option R
  | .taking k n => (plan.take k)[n]?.map Prod.fst
  | _ => none

theorem Ordered.below (ordered : Ordered plan rank) {k : K} {before : List (R × Mode)} {r : R}
    {m : Mode} (first : before ++ [(r, m)] <+: plan.take k) : ∀ g ∈ before, rank g.1 < rank r := by
  intro g here
  have rising := (ordered.rising k).sublist (first.sublist.map _)
  rw [List.map_append, List.pairwise_append] at rising
  exact rising.2.2 _ (List.mem_map.mpr ⟨g, here, rfl⟩) _ (by simp)

theorem Ordered.fresh (ordered : Ordered plan rank) {k : K} {before : List (R × Mode)} {r : R}
    {m : Mode} (first : before ++ [(r, m)] <+: plan.take k) : r ∉ before.map Prod.fst := by
  intro again
  obtain ⟨g, here, same⟩ := List.mem_map.mp again
  have less := ordered.below first g here
  rw [same] at less
  exact Nat.lt_irrefl _ less

theorem held_taken {k : K} {n : Nat} {g : R × Mode} (next : (plan.take k)[n]? = some g) :
    held plan (.taking k (n + 1)) = held plan (.taking k n) ++ [g] := by
  simp [held, List.take_add_one, next]

theorem held_returned (ordered : Ordered plan rank) {k : K} {n : Nat} {r : R}
    (next : (plan.back k)[n]? = some r) :
    ∃ m, held plan (.returning k n) = held plan (.returning k (n + 1)) ++ [(r, m)] := by
  rw [ordered.reversed] at next
  have short : n < (plan.take k).length := by
    have := (List.getElem?_eq_some_iff.mp next).1
    simpa using this
  rw [List.getElem?_reverse (by simpa using short), List.length_map, List.getElem?_map,
    Option.map_eq_some_iff] at next
  obtain ⟨⟨q, m⟩, last, rfl⟩ := next
  refine ⟨m, ?_⟩
  have more : (plan.take k).length - n = (plan.take k).length - (n + 1) + 1 := by omega
  rw [held, held, more, List.take_add_one, show (plan.take k).length - (n + 1) =
    (plan.take k).length - 1 - n by omega, last]
  rfl

theorem held_below_wanted (ordered : Ordered plan rank) {p : Phase K} {r q : R} {m : Mode}
    (waits : wanted plan p = some r) (has : (q, m) ∈ held plan p) : rank q < rank r := by
  cases p with
  | taking k n =>
    obtain ⟨g, next, rfl⟩ := Option.map_eq_some_iff.mp waits
    have first : held plan (.taking k n) ++ [(g.1, g.2)] <+: plan.take k :=
      held_taken next ▸ List.take_prefix (n + 1) (plan.take k)
    exact ordered.below first _ has
  | _ => cases waits

end Plans

section Steps
variable {T R K : Type} [DecidableEq T] [DecidableEq R]

def start : State T R K := ⟨fun _ => .idle, fun _ => []⟩

/-- A thread may take a lock again in the mode it has it in, and a shared one after an
    exclusive one. -/
def Grantable (owners : List (T × Mode)) (t : T) : Mode → Prop
  | .shared => ∀ g ∈ owners, g.2 = .shared ∨ g.1 = t
  | .exclusive => ∀ g ∈ owners, g.1 = t ∧ g.2 = .exclusive

instance (owners : List (T × Mode)) (t : T) (m : Mode) : Decidable (Grantable owners t m) := by
  cases m <;> unfold Grantable <;> infer_instance

def State.move (s : State T R K) (t : T) (p : Phase K) : State T R K :=
  { s with phase := fun u => if u = t then p else s.phase u }

def State.own (s : State T R K) (r : R) (now : List (T × Mode)) : State T R K :=
  { s with owners := fun q => if q = r then now else s.owners q }

/-- One instruction of a thread; `none` is a lock given back by a thread that has it not. -/
def advance (plan : Plan R K) (s : State T R K) (t : T) : Option (State T R K) :=
  match s.phase t with
  | .idle => some s
  | .inside _ => some s
  | .taking k n =>
    match (plan.take k)[n]? with
    | none => some (s.move t (.inside k))
    | some (r, m) =>
      if Grantable (s.owners r) t m then
        some ((s.own r ((t, m) :: s.owners r)).move t (.taking k (n + 1)))
      else some s
  | .returning k n =>
    match (plan.back k)[n]? with
    | none => some (s.move t .idle)
    | some r =>
      if t ∈ (s.owners r).map Prod.fst then
        some ((s.own r ((s.owners r).eraseP fun g => g.1 = t)).move t (.returning k (n + 1)))
      else none

def step (plan : Plan R K) (s : State T R K) : Action T K → Option (State T R K)
  | .call t k => some (if s.phase t matches .idle then s.move t (.taking k 0) else s)
  | .advance t => advance plan s t
  | .leave t =>
    match s.phase t with
    | .inside k => some (s.move t (.returning k 0))
    | _ => some s

def stepAll (plan : Plan R K) (s : Option (State T R K)) (a : Action T K) : Option (State T R K) :=
  s.bind fun s => step plan s a

theorem eraseP_iff {owners : List (T × Mode)} (once : (owners.map Prod.fst).Nodup) (t u : T)
    (m : Mode) : (u, m) ∈ owners.eraseP (fun g => g.1 = t) ↔ (u, m) ∈ owners ∧ u ≠ t := by
  induction owners with
  | nil => simp
  | cons g owners ih =>
    rw [List.map_cons, List.nodup_cons] at once
    by_cases it : g.1 = t
    · rw [List.eraseP_cons_of_pos (by simpa using it)]
      constructor
      · intro here
        refine ⟨List.mem_cons_of_mem _ here, ?_⟩
        intro same
        exact once.1 (List.mem_map.mpr ⟨_, here, same.trans it.symm⟩)
      · rintro ⟨here, other⟩
        rcases List.mem_cons.mp here with same | here
        · exact absurd (congrArg Prod.fst same) (fun e => other (e.trans it))
        · exact here
    · rw [List.eraseP_cons_of_neg (by simpa using it), List.mem_cons, List.mem_cons, ih once.2]
      constructor
      · rintro (same | ⟨here, other⟩)
        · exact ⟨Or.inl same, fun e => it ((congrArg Prod.fst same).symm.trans e)⟩
        · exact ⟨Or.inr here, other⟩
      · rintro ⟨same | here, other⟩
        · exact Or.inl same
        · exact Or.inr ⟨here, other⟩

structure Consistent (plan : Plan R K) (s : State T R K) : Prop where
  agree : ∀ r t m, (t, m) ∈ s.owners r ↔ (r, m) ∈ held plan (s.phase t)
  once : ∀ r, ((s.owners r).map Prod.fst).Nodup
  alone : ∀ r t u m, (t, Mode.exclusive) ∈ s.owners r → (u, m) ∈ s.owners r → u = t

variable {plan : Plan R K} {s : State T R K} {t : T} {p : Phase K}

omit [DecidableEq R] in
@[simp] theorem move_phase (u : T) : (s.move t p).phase u = if u = t then p else s.phase u := rfl

omit [DecidableEq R] in
@[simp] theorem move_owners : (s.move t p).owners = s.owners := rfl

omit [DecidableEq T] in
@[simp] theorem own_phase (r : R) (now : List (T × Mode)) : (s.own r now).phase = s.phase := rfl

omit [DecidableEq T] in
@[simp] theorem own_owners (r q : R) (now : List (T × Mode)) :
    (s.own r now).owners q = if q = r then now else s.owners q := rfl

omit [DecidableEq T] [DecidableEq R] in
theorem start_consistent : Consistent plan (start : State T R K) := by
  constructor
  · intro r t m
    simp [start, held]
  · intro r
    exact List.nodup_nil
  · intro r t u m owner
    cases owner

omit [DecidableEq R] in
theorem Consistent.move (h : Consistent plan s) (same : held plan p = held plan (s.phase t)) :
    Consistent plan (s.move t p) := by
  constructor
  · intro r u m
    rw [move_owners, move_phase, h.agree]
    by_cases it : u = t
    · rw [if_pos it, same, it]
    · rw [if_neg it]
  · exact h.once
  · exact h.alone

theorem Consistent.take (h : Consistent plan s) {r : R} {m : Mode}
    (grown : held plan p = held plan (s.phase t) ++ [(r, m)])
    (fresh : r ∉ (held plan (s.phase t)).map Prod.fst) (free : Grantable (s.owners r) t m) :
    Consistent plan ((s.own r ((t, m) :: s.owners r)).move t p) := by
  have absent : ∀ n, (t, n) ∉ s.owners r := by
    intro n owner
    exact fresh (List.mem_map.mpr ⟨(r, n), (h.agree r t n).mp owner, rfl⟩)
  constructor
  · intro q u n
    simp only [move_phase, move_owners, own_phase, own_owners]
    by_cases lock : q = r
    · subst lock
      by_cases it : u = t
      · subst it
        simp [grown, ← h.agree, absent]
      · simp [it, h.agree]
    · rw [if_neg lock, h.agree]
      by_cases it : u = t
      · simp [it, grown, lock]
      · simp [it]
  · intro q
    simp only [move_owners, own_owners]
    split
    · rw [List.map_cons, List.nodup_cons]
      refine ⟨?_, h.once r⟩
      intro owner
      obtain ⟨g, here, same⟩ := List.mem_map.mp owner
      cases same
      exact absent g.2 here
    · exact h.once q
  · intro q u v n
    simp only [move_owners, own_owners]
    split
    · intro first second
      rcases List.mem_cons.mp first with this | old
      · cases this
        rcases List.mem_cons.mp second with same | other
        · cases same
          rfl
        · exact (free _ other).1
      · rcases List.mem_cons.mp second with same | other
        · cases same
          cases m with
          | shared => exact ((free _ old).resolve_left nofun).symm
          | exclusive => exact (free _ old).1.symm
        · exact h.alone r u v n old other
    · exact h.alone q u v n

theorem Consistent.release (h : Consistent plan s) {r : R} {m : Mode}
    (shrunk : held plan (s.phase t) = held plan p ++ [(r, m)])
    (fresh : r ∉ (held plan p).map Prod.fst) :
    Consistent plan ((s.own r ((s.owners r).eraseP fun g => g.1 = t)).move t p) := by
  have kept : ∀ u n, (u, n) ∈ (s.owners r).eraseP (fun g => g.1 = t) ↔
      (u, n) ∈ s.owners r ∧ u ≠ t := by
    intro u n
    rw [eraseP_iff (h.once r)]
  constructor
  · intro q u n
    simp only [move_phase, move_owners, own_phase, own_owners]
    by_cases lock : q = r
    · subst lock
      rw [if_pos rfl, kept, h.agree]
      by_cases it : u = t
      · subst it
        have gone : (q, n) ∉ held plan p := fun here => fresh (List.mem_map.mpr ⟨_, here, rfl⟩)
        simp [gone]
      · simp [it]
    · rw [if_neg lock, h.agree]
      by_cases it : u = t
      · simp [it, shrunk, lock]
      · simp [it]
  · intro q
    simp only [move_owners, own_owners]
    split
    · exact (h.once r).sublist ((List.eraseP_sublist).map _)
    · exact h.once q
  · intro q u v n
    simp only [move_owners, own_owners]
    split
    · intro first second
      exact h.alone r u v n ((kept u _).mp first).1 ((kept v n).mp second).1
    · exact h.alone q u v n

end Steps

section Runs
variable {T R K : Type} [DecidableEq T] [DecidableEq R] {plan : Plan R K} {rank : R → Nat}

section Advance
variable {s : State T R K} {t : T} {k : K} {n : Nat} {r : R} {m : Mode}

theorem advance_enters (phase : s.phase t = .taking k n) (next : (plan.take k)[n]? = none) :
    advance plan s t = some (s.move t (.inside k)) := by
  simp [advance, phase, next]

theorem advance_takes (phase : s.phase t = .taking k n) (next : (plan.take k)[n]? = some (r, m))
    (free : Grantable (s.owners r) t m) :
    advance plan s t = some ((s.own r ((t, m) :: s.owners r)).move t (.taking k (n + 1))) := by
  simp [advance, phase, next, free]

theorem advance_waits (phase : s.phase t = .taking k n) (next : (plan.take k)[n]? = some (r, m))
    (busy : ¬ Grantable (s.owners r) t m) : advance plan s t = some s := by
  simp [advance, phase, next, busy]

theorem advance_ends (phase : s.phase t = .returning k n) (next : (plan.back k)[n]? = none) :
    advance plan s t = some (s.move t .idle) := by
  simp [advance, phase, next]

theorem advance_returns (phase : s.phase t = .returning k n) (next : (plan.back k)[n]? = some r)
    (owner : (t, m) ∈ s.owners r) :
    advance plan s t =
      some ((s.own r ((s.owners r).eraseP fun g => g.1 = t)).move t (.returning k (n + 1))) := by
  have known : t ∈ (s.owners r).map Prod.fst := List.mem_map.mpr ⟨_, owner, rfl⟩
  simp only [advance, phase, next, if_pos known]

omit [DecidableEq T] [DecidableEq R] in
theorem returning_owner (ordered : Ordered plan rank) (h : Consistent plan s)
    (phase : s.phase t = .returning k n) (next : (plan.back k)[n]? = some r) :
    ∃ m, (t, m) ∈ s.owners r ∧
      held plan (.returning k n) = held plan (.returning k (n + 1)) ++ [(r, m)] := by
  obtain ⟨m, shrunk⟩ := held_returned ordered next
  refine ⟨m, ?_, shrunk⟩
  rw [h.agree, phase, shrunk]
  simp

end Advance

theorem advance_consistent (ordered : Ordered plan rank) {s : State T R K} (h : Consistent plan s)
    (t : T) : ∃ u, advance plan s t = some u ∧ Consistent plan u := by
  cases phase : s.phase t with
  | idle => exact ⟨s, by simp [advance, phase], h⟩
  | inside k => exact ⟨s, by simp [advance, phase], h⟩
  | taking k n =>
    cases next : (plan.take k)[n]? with
    | none =>
      refine ⟨_, advance_enters phase next, h.move ?_⟩
      rw [phase, held, held, List.take_of_length_le (List.getElem?_eq_none_iff.mp next)]
    | some g =>
      obtain ⟨r, m⟩ := g
      by_cases free : Grantable (s.owners r) t m
      · have grown := held_taken next
        refine ⟨_, advance_takes phase next free, h.take (by rw [phase, grown]) ?_ free⟩
        rw [phase]
        have first : held plan (.taking k n) ++ [(r, m)] <+: plan.take k :=
          grown ▸ List.take_prefix _ _
        exact ordered.fresh first
      · exact ⟨s, advance_waits phase next free, h⟩
  | returning k n =>
    cases next : (plan.back k)[n]? with
    | none =>
      refine ⟨_, advance_ends phase next, h.move ?_⟩
      have done := List.getElem?_eq_none_iff.mp next
      rw [ordered.reversed, List.length_reverse, List.length_map] at done
      rw [phase, held, held, Nat.sub_eq_zero_of_le done, List.take_zero]
    | some r =>
      obtain ⟨m, owner, shrunk⟩ := returning_owner ordered h phase next
      refine ⟨_, advance_returns phase next owner, h.release (by rw [phase, shrunk]) ?_⟩
      have first : held plan (.returning k (n + 1)) ++ [(r, m)] <+: plan.take k :=
        shrunk ▸ List.take_prefix _ _
      exact ordered.fresh first

theorem step_consistent (ordered : Ordered plan rank) (s : State T R K) (a : Action T K)
    (h : Consistent plan s) : ∃ u, stepAll plan (some s) a = some u ∧ Consistent plan u := by
  rw [stepAll, Option.bind_some]
  cases a with
  | call t k =>
    refine ⟨_, rfl, ?_⟩
    cases phase : s.phase t with
    | idle => exact h.move (by rw [phase]; rfl)
    | _ => exact h
  | advance t => exact advance_consistent ordered h t
  | leave t =>
    rw [step]
    cases phase : s.phase t with
    | inside k => exact ⟨_, rfl, h.move (by simp [phase, held])⟩
    | _ => exact ⟨s, rfl, h⟩

theorem run_consistent (ordered : Ordered plan rank) (actions : List (Action T K)) :
    ∃ s, run (stepAll plan) (some (start : State T R K)) actions = some s ∧ Consistent plan s :=
  defined_run actions start_consistent (step_consistent ordered)

omit [DecidableEq T] [DecidableEq R] in
/-- Following the threads that have what a thread waits for ends at one whose lock nobody
    has, since the ranks go up on the way. -/
theorem someone_unblocked (ordered : Ordered plan rank) {bound : Nat}
    (bounded : ∀ r, rank r < bound) {s : State T R K} (h : Consistent plan s) {t : T}
    (busy : s.phase t ≠ .idle) :
    ∃ u, s.phase u ≠ .idle ∧ ∀ r, wanted plan (s.phase u) = some r → s.owners r = [] := by
  cases waits : wanted plan (s.phase t) with
  | none => exact ⟨t, busy, by simp [waits]⟩
  | some r =>
    induction left : bound - rank r using Nat.strongRecOn generalizing t r with
    | ind _ ih =>
      cases owners : s.owners r with
      | nil =>
        refine ⟨t, busy, ?_⟩
        intro q same
        rw [waits, Option.some.injEq] at same
        rw [← same, owners]
      | cons g _ =>
        obtain ⟨u, m⟩ := g
        have has : (r, m) ∈ held plan (s.phase u) := by
          rw [← h.agree, owners]
          exact List.mem_cons_self
        have active : s.phase u ≠ .idle := by
          intro idle
          rw [idle] at has
          cases has
        cases further : wanted plan (s.phase u) with
        | none => exact ⟨u, active, by simp [further]⟩
        | some q =>
          have up := held_below_wanted ordered further has
          have top := bounded q
          exact ih (bound - rank q) (by omega) active q further rfl

def remaining (plan : Plan R K) : Phase K → Nat
  | .idle => 0
  | .taking k n => ((plan.take k).length - n) + (plan.take k).length + 3
  | .inside k => (plan.take k).length + 2
  | .returning k n => (plan.take k).length - n + 1

theorem unblocked_proceeds (ordered : Ordered plan rank) {s : State T R K} (h : Consistent plan s)
    {t : T} (busy : s.phase t ≠ .idle)
    (free : ∀ r, wanted plan (s.phase t) = some r → s.owners r = []) :
    ∃ a u, (∀ v k, a ≠ .call v k) ∧ stepAll plan (some s) a = some u ∧
      remaining plan (u.phase t) < remaining plan (s.phase t) ∧ ∀ v, v ≠ t →
        u.phase v = s.phase v := by
  cases phase : s.phase t with
  | idle => exact absurd phase busy
  | inside k =>
    refine ⟨.leave t, s.move t (.returning k 0), by simp, by simp [stepAll, step, phase], ?_, ?_⟩
    · simp [remaining]
    · intro v other
      simp [other]
  | taking k n =>
    cases next : (plan.take k)[n]? with
    | none =>
      refine ⟨.advance t, s.move t (.inside k), by simp, advance_enters phase next, ?_, ?_⟩
      · simp only [move_phase, if_true, remaining]
        omega
      · intro v other
        simp [other]
    | some g =>
      obtain ⟨r, m⟩ := g
      have grant : Grantable (s.owners r) t m := by
        rw [free r (by simp [phase, wanted, next])]
        cases m <;> simp [Grantable]
      refine ⟨.advance t, _, by simp, advance_takes phase next grant, ?_, ?_⟩
      · have short := (List.getElem?_eq_some_iff.mp next).1
        simp only [move_phase, if_true, remaining]
        omega
      · intro v other
        simp [other]
  | returning k n =>
    cases next : (plan.back k)[n]? with
    | none =>
      refine ⟨.advance t, s.move t .idle, by simp, advance_ends phase next, by simp [remaining], ?_⟩
      intro v other
      simp [other]
    | some r =>
      obtain ⟨m, owner, -⟩ := returning_owner ordered h phase next
      refine ⟨.advance t, _, by simp, advance_returns phase next owner, ?_, ?_⟩
      · have short := (List.getElem?_eq_some_iff.mp next).1
        rw [ordered.reversed, List.length_reverse, List.length_map] at short
        simp only [move_phase, if_true, remaining]
        omega
      · intro v other
        simp [other]

omit [DecidableEq T] [DecidableEq R] in
theorem eq_start_of_idle {s : State T R K} (h : Consistent plan s) (idle : ∀ t, s.phase t = .idle) :
    s = start := by
  have phases : s.phase = fun _ => .idle := funext idle
  have owners : s.owners = fun _ => [] := by
    funext r
    apply List.eq_nil_iff_forall_not_mem.mpr
    intro g owner
    have has := (h.agree r g.1 g.2).mp owner
    rw [idle] at has
    cases has
  cases s
  simp_all [start]

/-- Without another call the threads can always finish what they have begun. -/
theorem drains [Fintype T] (ordered : Ordered plan rank) {bound : Nat}
    (bounded : ∀ r, rank r < bound) {s : State T R K} (h : Consistent plan s) :
    ∃ more, (∀ a ∈ more, ∀ t k, a ≠ .call t k) ∧ run (stepAll plan) (some s) more = some start := by
  induction total : ∑ t, remaining plan (s.phase t) using Nat.strongRecOn generalizing s with
  | ind _ ih =>
    by_cases idle : ∀ t, s.phase t = .idle
    · exact ⟨[], by simp, congrArg some (eq_start_of_idle h idle)⟩
    · obtain ⟨t, busy⟩ := not_forall.mp idle
      obtain ⟨u, active, free⟩ := someone_unblocked ordered bounded h busy
      obtain ⟨a, next, quiet, done, less, others⟩ := unblocked_proceeds ordered h active free
      have consistent : Consistent plan next := by
        obtain ⟨same, here, ok⟩ := step_consistent ordered s a h
        rw [done] at here
        cases here
        exact ok
      have fewer : ∑ v, remaining plan (next.phase v) < ∑ v, remaining plan (s.phase v) := by
        apply Finset.sum_lt_sum
        · intro v _
          by_cases it : v = u
          · rw [it]
            exact less.le
          · rw [others v it]
        · exact ⟨u, Finset.mem_univ u, less⟩
      obtain ⟨more, silent, ended⟩ := ih _ (total ▸ fewer) consistent rfl
      refine ⟨a :: more, ?_, by rw [run, done, ended]⟩
      intro b here
      rcases List.mem_cons.mp here with same | later
      · rw [same]
        exact quiet
      · exact silent b later

end Runs

end SharedLocks
