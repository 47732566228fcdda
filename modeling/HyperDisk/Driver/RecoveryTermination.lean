import HyperDisk.Driver.Recovery7b
import HyperDisk.Foundations.StepBudgets
import HyperDisk.Foundations.WordCounters

/- How a call of the recovery ends. The two counters reset each other: step 2 of the fallback
   starts the retries again, and exhausted retries start the fallback again, but at step 0. -/
namespace RecoveryTermination
open StepRuns StepBudgets Recovery7b

/-- One step of the running call, behind whatever has become of the flags since the last one. -/
def turn (c : Config) (flags : Flags) : Config := step (step c (.environment flags)) .tick

structure Place where
  point : Point
  retries : Nat
  level : Nat

def place (c : Config) : Place :=
  ⟨c.point, c.recovery.retryCount.toNat, c.recovery.fallbackStep.toNat⟩

inductive Move : Place → Place → Prop where
  | exhausted {n l : Nat} (all : 3 ≤ n) : Move ⟨.processRetry, n, l⟩ ⟨.processFallback, n, 0⟩
  | retry {n l : Nat} (more : n < 3) : Move ⟨.processRetry, n, l⟩ ⟨.retryBlockDevice, n + 1, l⟩
  | blockDeviceReady {n l : Nat} : Move ⟨.retryBlockDevice, n, l⟩ ⟨.retryMetaServer, n, l⟩
  | blockDeviceMissing {n l : Nat} : Move ⟨.retryBlockDevice, n, l⟩ ⟨.processRetry, n, l⟩
  | metaServerReachable {n l : Nat} : Move ⟨.retryMetaServer, n, l⟩ ⟨.returned .success, n, l⟩
  | metaServerMissing {n l : Nat} : Move ⟨.retryMetaServer, n, l⟩ ⟨.processRetry, n, l⟩
  | secondaryServer {n : Nat} : Move ⟨.processFallback, n, 0⟩ ⟨.returned .deviceNotReady, n, 1⟩
  | localMeta {n : Nat} : Move ⟨.processFallback, n, 1⟩ ⟨.fallbackLocalMeta, n, 1⟩
  | network {n : Nat} : Move ⟨.processFallback, n, 2⟩ ⟨.fallbackNetwork, n, 2⟩
  | blockDevice {n : Nat} : Move ⟨.processFallback, n, 3⟩ ⟨.returned .deviceNotReady, n, 4⟩
  | givesUp {n l : Nat} (last : 4 ≤ l) : Move ⟨.processFallback, n, l⟩ ⟨.processRecovery, n, l⟩
  | localMetaAvailable {n l : Nat} : Move ⟨.fallbackLocalMeta, n, l⟩ ⟨.returned .success, n, l⟩
  | localMetaMissing {n l l' : Nat} :
    Move ⟨.fallbackLocalMeta, n, l⟩ ⟨.returned .deviceNotReady, n, l'⟩
  | networkAvailable {n l : Nat} : Move ⟨.fallbackNetwork, n, l⟩ ⟨.processRetry, 0, l⟩
  | networkMissing {n l l' : Nat} :
    Move ⟨.fallbackNetwork, n, l⟩ ⟨.returned .deviceNotReady, n, l'⟩
  | halts {n l : Nat} : Move ⟨.processRecovery, n, l⟩ ⟨.haltLoop, n, l⟩
  | idle {p : Point} {n l : Nat} (outside : p.callable = true) : Move ⟨p, n, l⟩ ⟨p, n, l⟩

theorem retryEntry_moves (r : Recovery) :
    Move ⟨.processRetry, r.retryCount.toNat, r.fallbackStep.toNat⟩ (place (retryEntry r)) := by
  unfold retryEntry
  split
  · rename_i all
    exact .exhausted (UInt32.le_iff_toNat_le.mp all)
  · rename_i more
    have fewer : r.retryCount.toNat < 3 := UInt32.lt_iff_toNat_lt.mp (UInt32.not_le.mp more)
    rw [place, WordCounters.succ_of_room (by omega)]
    exact .retry fewer

theorem fallbackEntry_moves (r : Recovery) :
    Move ⟨.processFallback, r.retryCount.toNat, r.fallbackStep.toNat⟩
      (place (fallbackEntry r)) := by
  unfold fallbackEntry place
  split
  · rename_i zero
    rw [zero]
    exact .secondaryServer
  · rename_i one
    dsimp only
    rw [one]
    exact .localMeta
  · rename_i two
    dsimp only
    rw [two]
    exact .network
  · rename_i three
    rw [three]
    exact .blockDevice
  · rename_i no0 no1 no2 no3
    exact .givesUp (last_fallback no0 no1 no2 no3)

theorem advance_moves (c : Config) : Move (place c) (place (advance c)) := by
  obtain ⟨r, p⟩ := c
  cases p with
  | processRetry => exact retryEntry_moves r
  | processFallback => exact fallbackEntry_moves r
  | retryBlockDevice =>
    simp only [advance]
    split
    · exact .blockDeviceReady
    · exact .blockDeviceMissing
  | retryMetaServer =>
    simp only [advance]
    split
    · exact .metaServerReachable
    · exact .metaServerMissing
  | fallbackLocalMeta =>
    simp only [advance]
    split
    · exact .localMetaAvailable
    · exact .localMetaMissing
  | fallbackNetwork =>
    simp only [advance]
    split
    · exact .networkAvailable
    · exact .networkMissing
  | processRecovery => exact .halts
  | haltLoop => exact .idle rfl
  | initialized => exact .idle rfl
  | returned status => exact .idle rfl

-- The flags are no part of the place, so setting them first leaves it alone.
theorem turn_moves (c : Config) (flags : Flags) : Move (place c) (place (turn c flags)) :=
  advance_moves (step c (.environment flags))

/-- How often Hd7bProcessRetry can still be entered, the entry the thread stands at included. -/
def retriesLeft (q : Place) : Nat :=
  match q.point with
  | .processRetry => 3 - q.retries + 1
  | .retryBlockDevice => 3 - q.retries + 1
  | .retryMetaServer => 3 - q.retries + 1
  -- only step 2 starts the retries again, and then all of them
  | .processFallback => if q.level = 2 then 4 else 0
  | .fallbackNetwork => 4
  | _ => 0

def fallbacksLeft (q : Place) : Nat :=
  match q.point with
  | .processRetry => 1
  | .retryBlockDevice => 1
  | .retryMetaServer => 1
  -- the entry behind exhausted retries is at step 0 and the last one
  | .processFallback => if q.level = 2 then 2 else 1
  | .fallbackNetwork => 1
  | _ => 0

def turnsLeft (q : Place) : Nat :=
  match q.point with
  | .processRetry => 3 * (3 - q.retries) + 2
  | .retryBlockDevice => 3 * (3 - q.retries) + 4
  | .retryMetaServer => 3 * (3 - q.retries) + 3
  | .processFallback => if q.level = 2 then 13 else if q.level = 0 then 1 else 2
  | .fallbackNetwork => 12
  | .fallbackLocalMeta => 1
  | .processRecovery => 1
  | _ => 0

variable {q q' : Place}

theorem retriesLeft_le (q : Place) : retriesLeft q ≤ 4 := by
  unfold retriesLeft
  repeat' split
  all_goals omega

theorem fallbacksLeft_le (q : Place) : fallbacksLeft q ≤ 2 := by
  unfold fallbacksLeft
  repeat' split
  all_goals omega

theorem turnsLeft_le (q : Place) : turnsLeft q ≤ 13 := by
  unfold turnsLeft
  repeat' split
  all_goals omega

theorem outside_of_turnsLeft (none : turnsLeft q = 0) : q.point.callable = true := by
  obtain ⟨p, n, l⟩ := q
  cases p with
  | initialized => rfl
  | haltLoop => rfl
  | returned status => rfl
  | processFallback =>
    unfold turnsLeft at none
    repeat' split at none
    all_goals omega
  | _ => simp [turnsLeft] at none

theorem retriesLeft_spent (move : Move q q') :
    (if q.point = .processRetry then 1 else 0) + retriesLeft q' ≤ retriesLeft q := by
  cases move with
  | retry more =>
    simp only [retriesLeft, if_true]
    omega
  | @idle p n l outside =>
    have elsewhere : p ≠ .processRetry := by
      rintro rfl
      cases outside
    simp [elsewhere]
  | _ => simp [retriesLeft]

theorem fallbacksLeft_spent (move : Move q q') :
    (if q.point = .processFallback then 1 else 0) + fallbacksLeft q' ≤ fallbacksLeft q := by
  cases move with
  | givesUp last =>
    simp only [fallbacksLeft, if_true]
    split <;> omega
  | @idle p n l outside =>
    have elsewhere : p ≠ .processFallback := by
      rintro rfl
      cases outside
    simp [elsewhere]
  | _ => simp [fallbacksLeft]

theorem turnsLeft_spent (move : Move q q') (running : ¬ q.point.callable = true) :
    turnsLeft q' < turnsLeft q := by
  cases move with
  | retry more =>
    simp only [turnsLeft]
    omega
  | givesUp last =>
    simp only [turnsLeft]
    split
    · decide
    · rw [if_neg (by omega)]
      decide
  | idle outside => exact absurd outside running
  | _ => simp [turnsLeft]

def Returns (q : Place) : Prop :=
  match q.point with
  | .initialized => False
  | .processFallback => q.level ≤ 3
  | .processRecovery => False
  | .haltLoop => False
  | _ => True

theorem returns_kept (move : Move q q') (h : Returns q) : Returns q' := by
  cases move with
  | exhausted all => exact Nat.zero_le 3
  | givesUp last => exact absurd h (Nat.not_le.mpr last)
  | halts => exact h
  | idle outside => exact h
  | _ => trivial

def GivesUp (q : Place) : Prop :=
  match q.point with
  | .processFallback => 4 ≤ q.level
  | .processRecovery => True
  | .haltLoop => True
  | _ => False

theorem givesUp_kept (move : Move q q') (h : GivesUp q) : GivesUp q' := by
  cases move with
  | givesUp last => trivial
  | halts => trivial
  | idle outside => exact h
  | _ => simp [GivesUp] at h

variable (c : Config) (readings : List Flags)

theorem retries_bounded : visits turn (·.point = .processRetry) c readings ≤ 4 := by
  apply Nat.le_trans _ (retriesLeft_le (place c))
  apply visits_le_budget fun c => retriesLeft (place c)
  · intro c here
    simp [retriesLeft, place, here]
  · intro c flags
    exact retriesLeft_spent (turn_moves c flags)

theorem fallbacks_bounded : visits turn (·.point = .processFallback) c readings ≤ 2 := by
  apply Nat.le_trans _ (fallbacksLeft_le (place c))
  apply visits_le_budget fun c => fallbacksLeft (place c)
  · intro c here
    simp only [fallbacksLeft, place, here]
    split <;> omega
  · intro c flags
    exact fallbacksLeft_spent (turn_moves c flags)

theorem callable_kept (move : Move q q') (outside : q.point.callable = true) :
    q'.point.callable = true := by
  cases move with
  | idle outside => exact outside
  | _ => cases outside

theorem call_over (enough : 13 ≤ readings.length) :
    (run turn c readings).point.callable = true := by
  apply ended_of_budget (fun c => turnsLeft (place c)) fun c => c.point.callable = true
  · intro c flags outside
    exact callable_kept (turn_moves c flags) outside
  · intro c flags running
    exact turnsLeft_spent (turn_moves c flags) running
  · intro c none
    exact outside_of_turnsLeft none
  · exact Nat.le_trans (turnsLeft_le (place c)) enough

variable {c readings}

theorem call_over_keeping {I : Place → Prop} (keep : ∀ {q q'}, Move q q' → I q → I q')
    (enough : 13 ≤ readings.length) (h : I (place c)) :
    (run turn c readings).point.callable = true ∧ I (place (run turn c readings)) := by
  constructor
  · exact call_over c readings enough
  · apply invariant_run (P := fun c => I (place c)) readings h
    intro c flags
    exact keep (turn_moves c flags)

theorem returned_of_returns (enough : 13 ≤ readings.length) (h : Returns (place c)) :
    ∃ status, (run turn c readings).point = .returned status := by
  obtain ⟨stopped, kept⟩ := call_over_keeping returns_kept enough h
  cases here : (run turn c readings).point with
  | returned status => exact ⟨status, rfl⟩
  | initialized => simp [Returns, place, here] at kept
  | haltLoop => simp [Returns, place, here] at kept
  | _ => simp [here, Point.callable] at stopped

theorem halts_of_givesUp (enough : 13 ≤ readings.length) (h : GivesUp (place c)) :
    (run turn c readings).point = .haltLoop := by
  obtain ⟨stopped, kept⟩ := call_over_keeping givesUp_kept enough h
  cases here : (run turn c readings).point with
  | haltLoop => rfl
  | initialized => simp [GivesUp, place, here] at kept
  | returned status => simp [GivesUp, place, here] at kept
  | _ => simp [here, Point.callable] at stopped

/-- Whatever the flags read, a call enters Hd7bProcessRetry at most four times and
    Hd7bProcessFallback at most twice, and after 13 steps it has returned, unless it was a call of
    Hd7bProcessFallback with FallbackStep behind 3. -/
theorem recovery_call_returns (r : Recovery) (f : Call) (readings : List Flags) :
    visits turn (·.point = .processRetry) (enter r f) readings ≤ 4 ∧
    visits turn (·.point = .processFallback) (enter r f) readings ≤ 2 ∧
    (13 ≤ readings.length →
      (r.fallbackStep.toNat ≤ 3 →
        ∃ status, (run turn (enter r f) readings).point = .returned status) ∧
      ((∃ status, (run turn (enter r f) readings).point = .returned status) ∨
        (run turn (enter r f) readings).point = .haltLoop ∧
          f = .processFallback ∧ 4 ≤ r.fallbackStep.toNat)) := by
  have ends : 13 ≤ readings.length →
      (∃ status, (run turn (enter r f) readings).point = .returned status) ∨
        (run turn (enter r f) readings).point = .haltLoop ∧
          f = .processFallback ∧ 4 ≤ r.fallbackStep.toNat := by
    intro enough
    cases f with
    | enterRecovery => exact Or.inl (returned_of_returns enough trivial)
    | processRetry => exact Or.inl (returned_of_returns enough trivial)
    | processFallback =>
      by_cases few : r.fallbackStep.toNat ≤ 3
      · exact Or.inl (returned_of_returns enough few)
      · have many : 4 ≤ r.fallbackStep.toNat := Nat.lt_of_not_le few
        exact Or.inr ⟨halts_of_givesUp enough many, rfl, many⟩
  refine ⟨retries_bounded _ _, fallbacks_bounded _ _, fun enough => ⟨?_, ends enough⟩⟩
  intro few
  rcases ends enough with returned | ⟨_, _, many⟩
  · exact returned
  · omega

example :
    let c := enter ⟨.fallback, 3, 2, false, false, false, false⟩ .processFallback
    let readings := List.replicate 13 ⟨false, true, false, true⟩
    visits turn (·.point = .processRetry) c readings = 4 ∧
      visits turn (·.point = .processFallback) c readings = 2 ∧
      (run turn c (readings.take 12)).point = .processFallback ∧
      (run turn c readings).point = .returned .deviceNotReady := by decide

end RecoveryTermination
