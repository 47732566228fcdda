import Mathlib.Data.List.Basic

/- Runs of a step function over a list of actions: the state a run ends in, what holds
   in every state it passes, and runs all of whose steps meet a condition on the state
   before the step and the action. -/
namespace StepRuns
variable {S A : Type} {step : S → A → S} {ok : S → A → Prop} {P Q : S → Prop}

def run (step : S → A → S) (s : S) : List A → S
  | [] => s
  | a :: as => run step (step s a) as

def Always (step : S → A → S) (P : S → Prop) (s : S) : List A → Prop
  | [] => P s
  | a :: as => P s ∧ Always step P (step s a) as

def Meets (step : S → A → S) (ok : S → A → Prop) (s : S) : List A → Prop
  | [] => True
  | a :: as => ok s a ∧ Meets step ok (step s a) as

theorem run_append (s : S) (as bs : List A) :
    run step s (as ++ bs) = run step (run step s as) bs := by
  induction as generalizing s with
  | nil => rfl
  | cons a as ih => exact ih (step s a)

theorem run_map {T : Type} {spec : T → A → T} (f : S → T)
    (commutes : ∀ s a, f (step s a) = spec (f s) a) (s : S) (as : List A) :
    f (run step s as) = run spec (f s) as := by
  induction as generalizing s with
  | nil => rfl
  | cons a as ih => rw [run, run, ih, commutes]

theorem meets_append {s : S} {as bs : List A} :
    Meets step ok s (as ++ bs) ↔ Meets step ok s as ∧ Meets step ok (run step s as) bs := by
  induction as generalizing s with
  | nil => simp [Meets, run]
  | cons a as ih => simp [Meets, run, ih, and_assoc]

theorem meets_iff_splits {s : S} {as : List A} :
    Meets step ok s as ↔
      ∀ before a after, as = before ++ a :: after → ok (run step s before) a := by
  induction as generalizing s with
  | nil => simp [Meets]
  | cons a as ih =>
    constructor
    · rintro ⟨here, later⟩ before b after split
      cases before with
      | nil =>
        cases split
        exact here
      | cons c before =>
        cases split
        exact ih.mp later before b after rfl
    · intro every
      refine ⟨every [] a as rfl, ih.mpr fun before b after split => ?_⟩
      exact every (a :: before) b after (by rw [split, List.cons_append])

theorem meets_iff_actions {p : A → Prop} {s : S} {as : List A} :
    Meets step (fun _ a => p a) s as ↔ ∀ a ∈ as, p a := by
  induction as generalizing s with
  | nil => simp [Meets]
  | cons a as ih => rw [Meets, List.forall_mem_cons, ih]

theorem meets_and {ok' : S → A → Prop} {s : S} {as : List A} (first : Meets step ok s as)
    (second : Meets step ok' s as) : Meets step (fun s a => ok s a ∧ ok' s a) s as := by
  induction as generalizing s with
  | nil => trivial
  | cons a as ih => exact ⟨⟨first.1, second.1⟩, ih first.2 second.2⟩

theorem meets_of_invariant {I : S → Prop} {s : S} (as : List A) (inv : I s)
    (keep : ∀ s a, I s → I (step s a)) (holds : ∀ s a, I s → ok s a) : Meets step ok s as := by
  induction as generalizing s with
  | nil => trivial
  | cons a as ih => exact ⟨holds s a inv, ih (keep s a inv)⟩

theorem always_iff_prefixes {s : S} {as : List A} :
    Always step P s as ↔ ∀ k, P (run step s (as.take k)) := by
  induction as generalizing s with
  | nil => simp [Always, run]
  | cons a as ih =>
    constructor
    · rintro ⟨now, later⟩ k
      cases k with
      | zero => exact now
      | succ k => exact ih.mp later k
    · intro every
      exact ⟨every 0, ih.mpr fun k => every (k + 1)⟩

theorem always_mono {s : S} {as : List A} (imp : ∀ s, P s → Q s) (h : Always step P s as) :
    Always step Q s as := by
  rw [always_iff_prefixes] at h ⊢
  exact fun k => imp _ (h k)

theorem always_head {s : S} {as : List A} (h : Always step P s as) : P s := by
  cases as with
  | nil => exact h
  | cons a as => exact h.1

theorem always_run {s : S} {as : List A} (h : Always step P s as) : P (run step s as) := by
  simpa using always_iff_prefixes.mp h as.length

theorem invariant_always {s : S} {as : List A} (start : P s)
    (keep : ∀ s a, P s → ok s a → P (step s a)) (meets : Meets step ok s as) :
    Always step P s as := by
  induction as generalizing s with
  | nil => exact start
  | cons a as ih => exact ⟨start, ih (keep s a start meets.1) meets.2⟩

theorem invariant_run {s : S} (as : List A) (start : P s) (keep : ∀ s a, P s → P (step s a)) :
    P (run step s as) := by
  induction as generalizing s with
  | nil => exact start
  | cons a as ih => exact ih (keep s a start)

/-- An invariant that also makes every step defined. -/
theorem defined_run {step : Option S → A → Option S} {s : S} (as : List A) (start : P s)
    (keep : ∀ s a, P s → ∃ t, step (some s) a = some t ∧ P t) :
    ∃ t, run step (some s) as = some t ∧ P t := by
  induction as generalizing s with
  | nil => exact ⟨s, rfl, start⟩
  | cons a as ih =>
    obtain ⟨t, next, h⟩ := keep s a start
    rw [run, next]
    exact ih h

theorem defined_run_related {step : Option S → A → Option S} {good : A → Prop} {R : S → S → Prop}
    (refl : ∀ s, R s s) (trans : ∀ s t u, R s t → R t u → R s u)
    (keep : ∀ s a, P s → ∃ t, step (some s) a = some t ∧ P t ∧ (good a → R s t)) {s : S}
    (as : List A) (start : P s) :
    ∃ t, run step (some s) as = some t ∧ P t ∧ ((∀ a ∈ as, good a) → R s t) := by
  induction as generalizing s with
  | nil => exact ⟨s, rfl, start, fun _ => refl s⟩
  | cons a as ih =>
    obtain ⟨t, next, h, first⟩ := keep s a start
    obtain ⟨u, ran, still, rest⟩ := ih h
    refine ⟨u, by rw [run, next, ran], still, ?_⟩
    intro every
    rw [List.forall_mem_cons] at every
    exact trans s t u (first every.1) (rest every.2)

theorem keep_while_defined {step : Option S → A → Option S} (undefined : ∀ a, step none a = none)
    (keep : ∀ s a t, P s → step (some s) a = some t → P t) (o : Option S) (a : A)
    (h : ∀ s, o = some s → P s) (t : S) (done : step o a = some t) : P t := by
  cases o with
  | none =>
    rw [undefined] at done
    cases done
  | some s => exact keep s a t (h s rfl) done

/-- A property that a step keeps exactly when it meets the condition, wherever another one,
    which holds throughout the run, does. -/
theorem always_iff_meets_under {E : S → Prop} {s : S} {as : List A} (env : Always step E s as)
    (start : P s) (exact : ∀ s a, E s → E (step s a) → P s → (P (step s a) ↔ ok s a)) :
    Always step P s as ↔ Meets step ok s as := by
  induction as generalizing s with
  | nil => simp [Always, Meets, start]
  | cons a as ih =>
    obtain ⟨before, after⟩ := env
    have here := exact s a before (always_head after) start
    constructor
    · rintro ⟨_, later⟩
      have next := always_head later
      exact ⟨here.mp next, (ih after next).mp later⟩
    · rintro ⟨met, later⟩
      have next := here.mpr met
      exact ⟨start, (ih after next).mpr later⟩

theorem always_iff_meets {I : S → Prop} {s : S} {as : List A} (inv : I s) (start : P s)
    (keep : ∀ s a, I s → I (step s a)) (exact : ∀ s a, I s → P s → (P (step s a) ↔ ok s a)) :
    Always step P s as ↔ Meets step ok s as := by
  have env : Always step I s as := by
    rw [always_iff_prefixes]
    intro k
    exact invariant_run _ inv keep
  exact always_iff_meets_under env start fun s a before _ => exact s a before

/-- Two step functions that stay related along the steps that meet the condition. -/
theorem simulation {T : Type} {spec : T → A → T} {R : S → T → Prop} {s : S} {t : T}
    {as : List A} (start : R s t)
    (keep : ∀ s t a, R s t → ok s a → R (step s a) (spec t a)) (meets : Meets step ok s as)
    (k : Nat) : R (run step s (as.take k)) (run spec t (as.take k)) := by
  induction as generalizing s t k with
  | nil => simpa [run] using start
  | cons a as ih =>
    cases k with
    | zero => exact start
    | succ k => exact ih (keep s t a start meets.1) meets.2 k

end StepRuns
