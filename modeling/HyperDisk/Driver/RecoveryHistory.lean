import HyperDisk.Driver.Recovery7b
import HyperDisk.Foundations.PastRuns
import HyperDisk.Foundations.WordCounters

/- Why a recovery resumes or halts: the tests of the flags that have gone before. -/
namespace RecoveryHistory
open StepRuns PastRuns WordCounters Recovery7b

abbrev after (events : List Event) : Config := run step initialConfig events

def LocalMetaMissing (before : List Event) (e : Event) : Prop :=
  e = .tick ∧ (after before).point = .fallbackLocalMeta ∧
    (after before).recovery.localMetaAvailable = false

def Underway (c : Config) : Prop := c.recovery.fallbackStep ≠ 0

/-- Step 2 runs without the network, and step 1 ran without the local boot.meta before it, both
    since FallbackStep was last 0. -/
def NetworkMissing (before : List Event) (e : Event) : Prop :=
  e = .tick ∧ (after before).point = .fallbackNetwork ∧
    (after before).recovery.networkAvailable = false ∧
    Since step initialConfig Underway LocalMetaMissing before

def BlockDeviceSeen (before : List Event) (e : Event) : Prop :=
  e = .tick ∧ (after before).point = .retryBlockDevice ∧
    (after before).recovery.blockDeviceReady = true

def AtMetaTest (c : Config) : Prop := c.point = .retryMetaServer

def Placed (events : List Event) (c : Config) : Prop :=
  match c.point with
  | .fallbackLocalMeta => c.recovery.fallbackStep = 1
  | .fallbackNetwork => c.recovery.fallbackStep = 2
  | .processRecovery => c.recovery.fallbackStep = 4
  | .retryMetaServer => Since step initialConfig AtMetaTest BlockDeviceSeen events
  | _ => True

def Ended (r : Recovery) : Prop :=
  match r.state with
  | .recovery => r.fallbackStep = 4
  | .halted => r.fallbackStep = 4
  | _ => True

structure Reasoned (events : List Event) (c : Config) : Prop where
  retries : c.recovery.retryCount.toNat ≤ 3
  steps : c.recovery.fallbackStep.toNat ≤ 4
  noLocalMeta : 2 ≤ c.recovery.fallbackStep.toNat →
    Since step initialConfig Underway LocalMetaMissing events
  noNetwork : 3 ≤ c.recovery.fallbackStep.toNat →
    Since step initialConfig Underway NetworkMissing events
  ended : Ended c.recovery
  placed : Placed events c

variable {events : List Event} {e : Event} {c : Config}

theorem underway_of_lt {c : Config} {n : Nat} (positive : 0 < n)
    (reached : n ≤ c.recovery.fallbackStep.toNat) : Underway c := by
  intro zero
  rw [zero] at reached
  exact absurd reached (Nat.not_le.mpr positive)

theorem reasoned_start : Reasoned [] initialConfig := by
  constructor
  · decide
  · decide
  · intro reached
    exact absurd reached (by decide)
  · intro reached
    exact absurd reached (by decide)
  · trivial
  · trivial

theorem same_fallbackStep (h : Reasoned events (after events))
    (same : (step (after events) e).recovery.fallbackStep = (after events).recovery.fallbackStep)
    (retries : (step (after events) e).recovery.retryCount.toNat ≤ 3)
    (ended : Ended (step (after events) e).recovery)
    (placed : Placed (events ++ [e]) (step (after events) e)) :
    Reasoned (events ++ [e]) (step (after events) e) := by
  constructor
  · exact retries
  · rw [same]
    exact h.steps
  · intro reached
    have under := underway_of_lt (by decide) reached
    rw [same] at reached
    exact since_stays (h.noLocalMeta reached) under
  · intro reached
    have under := underway_of_lt (by decide) reached
    rw [same] at reached
    exact since_stays (h.noNetwork reached) under
  · exact ended
  · exact placed

theorem next_fallbackStep (h : Reasoned events (after events))
    (moved : step (after events) e = ⟨{ (after events).recovery with
      fallbackStep := (after events).recovery.fallbackStep + 1 }, .returned .deviceNotReady⟩)
    (before : (after events).recovery.fallbackStep.toNat ≤ 3)
    (noLocalMeta : (after events).recovery.fallbackStep.toNat = 1 → LocalMetaMissing events e)
    (noNetwork : (after events).recovery.fallbackStep.toNat = 2 → NetworkMissing events e) :
    Reasoned (events ++ [e]) (step (after events) e) := by
  have added : (step (after events) e).recovery.fallbackStep.toNat =
      (after events).recovery.fallbackStep.toNat + 1 := by
    rw [moved]
    exact succ_of_room (by omega)
  have under : Underway (step (after events) e) := underway_of_lt Nat.one_pos (by omega)
  constructor
  · rw [moved]
    exact h.retries
  · omega
  · intro reached
    by_cases first : (after events).recovery.fallbackStep.toNat = 1
    · exact since_now (noLocalMeta first) under
    · exact since_stays (h.noLocalMeta (by omega)) under
  · intro reached
    by_cases second : (after events).recovery.fallbackStep.toNat = 2
    · exact since_now (noNetwork second) under
    · exact since_stays (h.noNetwork (by omega)) under
  · have ended := h.ended
    unfold Ended at ended ⊢
    rw [moved]
    cases at_state : (after events).recovery.state with
    | normal => trivial
    | retrying => trivial
    | fallback => trivial
    | recovery =>
      simp only [at_state] at ended
      rw [ended] at before
      exact absurd before (by decide)
    | halted =>
      simp only [at_state] at ended
      rw [ended] at before
      exact absurd before (by decide)
  · rw [moved]
    trivial

theorem placed_stays (placed : Placed events (after events))
    (point : (step (after events) e).point = (after events).point)
    (level : (step (after events) e).recovery.fallbackStep =
      (after events).recovery.fallbackStep) :
    Placed (events ++ [e]) (step (after events) e) := by
  unfold Placed at placed ⊢
  rw [point, level]
  cases here : (after events).point with
  | retryMetaServer =>
    simp only [here] at placed ⊢
    exact since_stays placed (point.trans here)
  | fallbackLocalMeta => simpa only [here] using placed
  | fallbackNetwork => simpa only [here] using placed
  | processRecovery => simpa only [here] using placed
  | initialized => trivial
  | processRetry => trivial
  | retryBlockDevice => trivial
  | processFallback => trivial
  | haltLoop => trivial
  | returned status => trivial

theorem environment_keeps (h : Reasoned events (after events)) (flags : Flags) :
    Reasoned (events ++ [.environment flags]) (step (after events) (.environment flags)) := by
  apply same_fallbackStep h
  · rfl
  · exact h.retries
  · exact h.ended
  · exact placed_stays h.placed rfl rfl

theorem idle_keeps (h : Reasoned events (after events))
    (idle : step (after events) e = after events) :
    Reasoned (events ++ [e]) (step (after events) e) := by
  have placed : Placed (events ++ [e]) (step (after events) e) :=
    placed_stays h.placed (by rw [idle]) (by rw [idle])
  apply same_fallbackStep h
  · rw [idle]
  · rw [idle]
    exact h.retries
  · rw [idle]
    exact h.ended
  · exact placed

theorem call_keeps (h : Reasoned events (after events)) (f : Call) :
    Reasoned (events ++ [.call f]) (step (after events) (.call f)) := by
  by_cases callable : (after events).point.callable = true
  · have entered : step (after events) (.call f) = enter (after events).recovery f :=
      if_pos callable
    cases f with
    | enterRecovery =>
      apply same_fallbackStep h <;> rw [entered]
      · rfl
      · exact Nat.zero_le _
      · trivial
      · trivial
    | processRetry =>
      apply same_fallbackStep h <;> rw [entered]
      · rfl
      · exact h.retries
      · exact h.ended
      · trivial
    | processFallback =>
      apply same_fallbackStep h <;> rw [entered]
      · rfl
      · exact h.retries
      · exact h.ended
      · trivial
  · exact idle_keeps h (if_neg callable)

theorem retryEntry_keeps (h : Reasoned events (after events))
    (here : (after events).point = .processRetry) :
    Reasoned (events ++ [.tick]) (step (after events) .tick) := by
  have moved : step (after events) .tick = retryEntry (after events).recovery := by
    rw [step, advance, here]
  have bounded := h.retries
  unfold retryEntry at moved
  split at moved
  · -- FallbackStep starts again at 0, so nothing has to be known about it
    rw [moved]
    constructor
    · exact h.retries
    · exact Nat.zero_le _
    · intro reached
      exact absurd reached (show ¬ 2 ≤ (0 : UInt32).toNat by decide)
    · intro reached
      exact absurd reached (show ¬ 3 ≤ (0 : UInt32).toNat by decide)
    · trivial
    · trivial
  · rename_i more
    have fewer : (after events).recovery.retryCount.toNat < 3 :=
      UInt32.lt_iff_toNat_lt.mp (UInt32.not_le.mp more)
    apply same_fallbackStep h <;> rw [moved]
    · rw [succ_of_room (by omega)]
      omega
    · exact h.ended
    · trivial

theorem at_other_step {n k : UInt32} {m : Nat} {P : Prop} (here : n = k) (differs : k.toNat ≠ m)
    (same : n.toNat = m) : P := by
  rw [here] at same
  exact absurd same differs

theorem fallbackEntry_keeps (h : Reasoned events (after events))
    (here : (after events).point = .processFallback) :
    Reasoned (events ++ [.tick]) (step (after events) .tick) := by
  have moved : step (after events) .tick = fallbackEntry (after events).recovery := by
    rw [step, advance, here]
  unfold fallbackEntry at moved
  split at moved
  · rename_i zero
    apply next_fallbackStep h moved
    · rw [zero]
      decide
    · exact at_other_step zero (by decide)
    · exact at_other_step zero (by decide)
  · rename_i one
    apply same_fallbackStep h <;> rw [moved]
    · exact h.retries
    · exact h.ended
    · exact one
  · rename_i two
    apply same_fallbackStep h <;> rw [moved]
    · exact h.retries
    · exact h.ended
    · exact two
  · rename_i three
    apply next_fallbackStep h moved
    · rw [three]
      decide
    · exact at_other_step three (by decide)
    · exact at_other_step three (by decide)
  · rename_i no0 no1 no2 no3
    have four : (after events).recovery.fallbackStep = 4 :=
      UInt32.toNat_inj.mp (Nat.le_antisymm h.steps (last_fallback no0 no1 no2 no3))
    apply same_fallbackStep h <;> rw [moved]
    · exact h.retries
    · exact four
    · exact four

theorem again_keeps (h : Reasoned events (after events))
    (moved : step (after events) e = { after events with point := .processRetry }) :
    Reasoned (events ++ [e]) (step (after events) e) := by
  apply same_fallbackStep h <;> rw [moved]
  · exact h.retries
  · exact h.ended
  · trivial

theorem success_keeps (h : Reasoned events (after events))
    (moved : step (after events) e =
      ⟨{ (after events).recovery with state := .normal }, .returned .success⟩) :
    Reasoned (events ++ [e]) (step (after events) e) := by
  apply same_fallbackStep h <;> rw [moved]
  · exact h.retries
  · trivial
  · trivial

theorem blockDevice_keeps (h : Reasoned events (after events))
    (here : (after events).point = .retryBlockDevice) :
    Reasoned (events ++ [.tick]) (step (after events) .tick) := by
  cases seen : (after events).recovery.blockDeviceReady with
  | true =>
    have moved : step (after events) .tick = { after events with point := .retryMetaServer } := by
      simp only [step, advance, here, seen, if_true]
    have passed : Since step initialConfig AtMetaTest BlockDeviceSeen (events ++ [.tick]) :=
      since_now ⟨rfl, here, seen⟩ (by rw [moved]; rfl)
    apply same_fallbackStep h <;> rw [moved]
    · exact h.retries
    · exact h.ended
    · exact passed
  | false =>
    apply again_keeps h
    simp only [step, advance, here, seen]
    rfl

theorem metaServer_keeps (h : Reasoned events (after events))
    (here : (after events).point = .retryMetaServer) :
    Reasoned (events ++ [.tick]) (step (after events) .tick) := by
  cases seen : (after events).recovery.metaServerReachable with
  | true =>
    apply success_keeps h
    simp only [step, advance, here, seen, if_true]
  | false =>
    apply again_keeps h
    simp only [step, advance, here, seen]
    rfl

theorem localMeta_keeps (h : Reasoned events (after events))
    (here : (after events).point = .fallbackLocalMeta)
    (one : (after events).recovery.fallbackStep = 1) :
    Reasoned (events ++ [.tick]) (step (after events) .tick) := by
  cases seen : (after events).recovery.localMetaAvailable with
  | true =>
    apply success_keeps h
    simp only [step, advance, here, seen, if_true]
  | false =>
    apply next_fallbackStep h
    · simp only [step, advance, here, seen]
      rfl
    · rw [one]
      decide
    · intro _
      exact ⟨rfl, here, seen⟩
    · exact at_other_step one (by decide)

theorem network_keeps (h : Reasoned events (after events))
    (here : (after events).point = .fallbackNetwork)
    (two : (after events).recovery.fallbackStep = 2) :
    Reasoned (events ++ [.tick]) (step (after events) .tick) := by
  cases seen : (after events).recovery.networkAvailable with
  | true =>
    have moved : step (after events) .tick =
        ⟨{ (after events).recovery with state := .retrying, retryCount := 0 }, .processRetry⟩ := by
      simp only [step, advance, here, seen, if_true]
    apply same_fallbackStep h <;> rw [moved]
    · exact Nat.zero_le _
    · trivial
    · trivial
  | false =>
    apply next_fallbackStep h
    · simp only [step, advance, here, seen]
      rfl
    · rw [two]
      decide
    · exact at_other_step two (by decide)
    · intro _
      exact ⟨rfl, here, seen, h.noLocalMeta (by rw [two]; decide)⟩

theorem recovery_keeps (h : Reasoned events (after events))
    (here : (after events).point = .processRecovery)
    (four : (after events).recovery.fallbackStep = 4) :
    Reasoned (events ++ [.tick]) (step (after events) .tick) := by
  have moved : step (after events) .tick =
      ⟨{ (after events).recovery with state := .halted }, .haltLoop⟩ := by
    rw [step, advance, here]
  apply same_fallbackStep h <;> rw [moved]
  · exact h.retries
  · exact four
  · trivial

theorem tick_keeps (h : Reasoned events (after events)) :
    Reasoned (events ++ [.tick]) (step (after events) .tick) := by
  have placed := h.placed
  unfold Placed at placed
  cases here : (after events).point with
  | initialized => exact idle_keeps h (by rw [step, advance, here])
  | processRetry => exact retryEntry_keeps h here
  | retryBlockDevice => exact blockDevice_keeps h here
  | retryMetaServer => exact metaServer_keeps h here
  | processFallback => exact fallbackEntry_keeps h here
  | fallbackLocalMeta => exact localMeta_keeps h here (by simpa only [here] using placed)
  | fallbackNetwork => exact network_keeps h here (by simpa only [here] using placed)
  | processRecovery => exact recovery_keeps h here (by simpa only [here] using placed)
  | haltLoop => exact idle_keeps h (by rw [step, advance, here])
  | returned status => exact idle_keeps h (by rw [step, advance, here])

theorem reasoned_run (events : List Event) : Reasoned events (after events) := by
  apply history_invariant (I := Reasoned) reasoned_start
  intro before e h
  cases e with
  | call f => exact call_keeps h f
  | tick => exact tick_keeps h
  | environment flags => exact environment_keeps h flags

/-- The tests that let a call return with success: those of the retry have both read true, or
    step 1 of the fallback finds the local boot.meta. -/
def TestPassed (events : List Event) : Prop :=
  ((after events).point = .retryMetaServer ∧ (after events).recovery.metaServerReachable = true ∧
      Since step initialConfig AtMetaTest BlockDeviceSeen events) ∨
    ((after events).point = .fallbackLocalMeta ∧
      (after events).recovery.fallbackStep = 1 ∧
      (after events).recovery.localMetaAvailable = true)

theorem success_tested (h : Reasoned events (after events))
    (running : (after events).point ≠ .returned .success)
    (returned : (step (after events) e).point = .returned .success) :
    (step (after events) e).recovery.state = .normal ∧ TestPassed events := by
  have placed := h.placed
  unfold Placed at placed
  cases e with
  | environment flags => exact absurd returned running
  | call f =>
    rw [step] at returned
    split at returned
    · cases f <;> cases returned
    · exact absurd returned running
  | tick =>
    cases here : (after events).point with
    | retryMetaServer =>
      simp only [here] at placed
      cases seen : (after events).recovery.metaServerReachable with
      | true =>
        refine ⟨?_, Or.inl ⟨here, seen, placed⟩⟩
        simp only [step, advance, here, seen, if_true]
      | false => simp [step, advance, here, seen] at returned
    | fallbackLocalMeta =>
      simp only [here] at placed
      cases seen : (after events).recovery.localMetaAvailable with
      | true =>
        refine ⟨?_, Or.inr ⟨here, placed, seen⟩⟩
        simp only [step, advance, here, seen, if_true]
      | false => simp [step, advance, here, seen] at returned
    | processRetry =>
      simp only [step, advance, here, retryEntry] at returned
      split at returned <;> cases returned
    | processFallback =>
      simp only [step, advance, here, fallbackEntry] at returned
      split at returned <;> cases returned
    | retryBlockDevice =>
      simp only [step, advance, here] at returned
      split at returned <;> cases returned
    | fallbackNetwork =>
      simp only [step, advance, here] at returned
      split at returned <;> cases returned
    | processRecovery =>
      simp only [step, advance, here] at returned
      cases returned
    | initialized =>
      simp only [step, advance, here] at returned
      cases returned
    | haltLoop =>
      simp only [step, advance, here] at returned
      cases returned
    | returned status =>
      simp only [step, advance, here] at returned running
      exact absurd returned running

/-- The bounds in every state, the reason behind every success, and the reason behind every halt. -/
theorem recovery_for_a_reason (events : List Event) :
    (after events).recovery.retryCount.toNat ≤ 3 ∧ (after events).recovery.fallbackStep.toNat ≤ 4 ∧
    (∀ e, (after events).point ≠ .returned .success →
      (step (after events) e).point = .returned .success →
      (step (after events) e).recovery.state = .normal ∧ TestPassed events) ∧
    ((after events).recovery.state = .halted →
      Since step initialConfig Underway NetworkMissing events) := by
  have h := reasoned_run events
  refine ⟨h.retries, h.steps, ?_, ?_⟩
  · intro e running returned
    exact success_tested h running returned
  · intro halted
    have ended := h.ended
    unfold Ended at ended
    simp only [halted] at ended
    exact h.noNetwork (by rw [ended]; decide)

example : (after (.call .enterRecovery :: List.replicate 8 .tick ++
    [.call .processFallback, .tick, .tick, .call .processFallback, .tick, .tick,
      .call .processFallback, .tick, .call .processFallback, .tick, .tick])).recovery.state =
      .halted := by decide

end RecoveryHistory
