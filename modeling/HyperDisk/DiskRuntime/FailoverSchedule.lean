import HyperDisk.DiskRuntime.MachineInvariant
import HyperDisk.Foundations.Rotation

/- The attempts of a long outage: which server Tick tries when every attempt fails. The servers
   take turns, each for as many attempts in a row as the retry limit allows; a single server is
   given up after one such turn. -/
namespace FailoverSchedule
open NetworkStateMachine MachineInvariant StepRuns Rotation

structure Trial where
  index : Nat
  server : ServerEndpoint
  deriving DecidableEq

def trials (s : Machine) (outputs : List Output) : List Trial :=
  outputs.filterMap fun
    | .connectAttempt server _ => some ⟨s.currentServerIdx, server⟩
    | _ => none

structure Outage where
  machine : Machine
  tried : List Trial

/-- A Tick whose attempt, if it makes one, fails. -/
def tickStep (o : Option Outage) (waits : Waits) : Option Outage := do
  let o ← o
  let (machine, outputs) ← tick o.machine false waits
  return ⟨machine, o.tried ++ trials o.machine outputs⟩

section Schedule
variable (s : Machine)

def scheduled (j : Nat) : Nat :=
  turn s.currentServerIdx (retryLimit s.config) s.servers.length j

structure Waiting (o : Outage) : Prop where
  trying : o.machine.state = .reconnecting
  retries : o.machine.retryCount.toNat = o.tried.length % retryLimit s.config
  index : o.machine.currentServerIdx % s.servers.length = scheduled s o.tried.length
  alone : s.servers.length = 1 → o.tried.length < retryLimit s.config

structure Exhausted (o : Outage) : Prop where
  offline : o.machine.state = .offline
  alone : s.servers.length = 1
  spent : o.tried.length = retryLimit s.config

structure Scheduled (o : Outage) : Prop where
  configured : o.machine.config = s.config
  listed : o.machine.servers = s.servers
  running : o.machine.running = true
  inside : s.currentServerIdx < s.servers.length → o.machine.currentServerIdx < s.servers.length
  tried : ∀ j trial, o.tried[j]? = some trial →
    trial.index = scheduled s j ∧ s.servers[trial.index]? = some trial.server
  phase : Waiting s o ∨ Exhausted s o

variable {s} {o : Outage} {waits : Waits} {r : Machine × List Output}

theorem trials_attempt (m : Machine) {server : ServerEndpoint} {time : Nat} {outputs : List Output}
    (silent : ∀ out ∈ outputs, ∃ old new, out = .stateChange old new) :
    trials m (.connectAttempt server time :: outputs) = [⟨m.currentServerIdx, server⟩] := by
  have rest : trials m outputs = [] := by
    apply List.filterMap_eq_nil_iff.mpr
    intro out member
    obtain ⟨old, new, same⟩ := silent out member
    rw [same]
  rw [trials, List.filterMap_cons]
  exact congrArg _ rest

theorem trials_moved (m : Machine) {server : ServerEndpoint} {time : Nat} (moving : Machine)
    (newState : ConnectionState) (first second : Nat) :
    trials m (.connectAttempt server time :: (transitionTo moving newState first second).2) =
      [⟨m.currentServerIdx, server⟩] := by
  apply trials_attempt
  intro out member
  obtain ⟨old, same⟩ := transitionTo_silent _ _ _ _ member
  exact ⟨old, newState, same⟩

theorem trials_attempted {server : ServerEndpoint} {accepted : Bool} {first second : Nat}
    (m : Machine) (after : Attempted s server accepted first second r) :
    trials m r.2 = [⟨m.currentServerIdx, server⟩] := by
  cases after with
  | connects => exact trials_moved m _ _ _ _
  | exhausted => exact trials_moved m _ _ _ _
  | failsOver => exact trials_attempt m (by simp)
  | retries => exact trials_attempt m (by simp)

theorem tried_snoc (h : Scheduled s o) (waiting : Waiting s o) {server : ServerEndpoint}
    (found : o.machine.servers[o.machine.currentServerIdx]? = some server) (j : Nat) (trial : Trial)
    (member : (o.tried ++ [⟨o.machine.currentServerIdx, server⟩])[j]? = some trial) :
    trial.index = scheduled s j ∧ s.servers[trial.index]? = some trial.server := by
  by_cases early : j < o.tried.length
  · rw [List.getElem?_append_left early] at member
    exact h.tried j trial member
  · rw [List.getElem?_append_right (by omega)] at member
    rw [List.getElem?_singleton] at member
    split at member
    · rename_i last
      cases member
      have here : j = o.tried.length := by omega
      rw [h.listed] at found
      have inside := (List.getElem?_eq_some_iff.mp found).1
      have index := waiting.index
      rw [Nat.mod_eq_of_lt inside] at index
      rw [here]
      exact ⟨index, found⟩
    · cases member

theorem waiting_retries (waiting : Waiting s o) :
    o.machine.retryCount.toNat < retryLimit s.config ∧
      (o.machine.retryCount + 1).toNat = o.machine.retryCount.toNat + 1 := by
  have positive := zero_lt_retryLimit s.config
  have below : o.machine.retryCount.toNat < retryLimit s.config := by
    rw [waiting.retries]
    exact Nat.mod_lt _ positive
  have limit := s.config.maxRetryCount.toNat_lt
  have small : retryLimit s.config < 2 ^ 32 := by
    unfold retryLimit
    omega
  exact ⟨below, WordCounters.succ_of_room (by omega)⟩

theorem last_failure (h : Scheduled s o) (waiting : Waiting s o)
    (last : o.machine.config.maxRetryCount ≤ o.machine.retryCount + 1) :
    o.tried.length % retryLimit s.config + 1 = retryLimit s.config := by
  obtain ⟨below, succ⟩ := waiting_retries waiting
  rw [h.configured, UInt32.le_iff_toNat_le, succ] at last
  rw [← waiting.retries]
  have limit : retryLimit s.config ≤ o.machine.retryCount.toNat + 1 :=
    Nat.max_le.mpr ⟨by omega, last⟩
  omega

theorem earlier_failure (h : Scheduled s o) (waiting : Waiting s o)
    (more : o.machine.retryCount + 1 < o.machine.config.maxRetryCount) :
    o.tried.length % retryLimit s.config + 1 < retryLimit s.config := by
  obtain ⟨_, succ⟩ := waiting_retries waiting
  rw [h.configured, UInt32.lt_iff_toNat_lt, succ] at more
  rw [← waiting.retries]
  exact Nat.lt_of_lt_of_le more (Nat.le_max_right _ _)

theorem alone_iff {m : Machine} (inside : m.currentServerIdx < m.servers.length) :
    tryNextServer m = none ↔ m.servers.length = 1 := by
  by_cases others : 1 < m.servers.length
  · rw [tryNextServer_next others inside]
    simp
    omega
  · rw [tryNextServer_none (by omega)]
    simp
    omega

theorem exhausted_scheduled (h : Scheduled s o) (waiting : Waiting s o) {tried : List Trial}
    (right : ∀ j trial, tried[j]? = some trial →
      trial.index = scheduled s j ∧ s.servers[trial.index]? = some trial.server)
    (length : tried.length = o.tried.length + 1) (single : s.servers.length = 1)
    (last : o.machine.config.maxRetryCount ≤ o.machine.retryCount + 1) (clock first second : Nat)
    (retries : UInt32) :
    Scheduled s ⟨(transitionTo { o.machine with clock := clock, retryCount := retries } .offline
      first second).1, tried⟩ := by
  have spent := last_failure h waiting last
  rw [Nat.mod_eq_of_lt (waiting.alone single)] at spent
  obtain ⟨_, _, _, _, _, same⟩ := transitionTo_eq
    { o.machine with clock := clock, retryCount := retries } .offline first second
  rw [same]
  exact ⟨h.configured, h.listed, h.running, h.inside, right,
    Or.inr ⟨rfl, single, by rw [length, spent]⟩⟩

theorem failsOver_waiting (waiting : Waiting s o) {tried : List Trial}
    (length : tried.length = o.tried.length + 1) (several : s.servers.length ≠ 1)
    (last : o.tried.length % retryLimit s.config + 1 = retryLimit s.config) (clock : Nat) :
    Waiting s ⟨{ o.machine with
      clock := clock
      currentServerIdx := (o.machine.currentServerIdx + 1) % s.servers.length
      retryCount := 0 }, tried⟩ := by
  obtain ⟨round, start⟩ := succ_last last
  refine ⟨waiting.trying, ?_, ?_, fun single => absurd single several⟩
  · rw [length, start]
    rfl
  · have index := waiting.index
    rw [scheduled, turn] at index
    rw [length, scheduled, turn, round, ← Nat.add_assoc]
    change (o.machine.currentServerIdx + 1) % s.servers.length % s.servers.length = _
    rw [Nat.mod_mod, Nat.add_mod, index, ← Nat.add_mod]

theorem retries_waiting (waiting : Waiting s o) {tried : List Trial}
    (length : tried.length = o.tried.length + 1)
    (more : o.tried.length % retryLimit s.config + 1 < retryLimit s.config)
    (clock lastAttempt : Nat) (backoff : UInt32) :
    Waiting s ⟨{ o.machine with
      clock := clock
      retryCount := o.machine.retryCount + 1
      currentBackoffMs := backoff
      lastReconnectAttempt := lastAttempt }, tried⟩ := by
  obtain ⟨round, within⟩ := succ_within more
  refine ⟨waiting.trying, ?_, ?_, ?_⟩
  · rw [length, within, ← waiting.retries]
    exact (waiting_retries waiting).2
  · rw [length, scheduled, turn, round]
    exact waiting.index
  · intro single
    rw [Nat.mod_eq_of_lt (waiting.alone single)] at more
    rw [length]
    exact more

theorem attempt_scheduled (h : Scheduled s o) (waiting : Waiting s o) {server : ServerEndpoint}
    (found : o.machine.servers[o.machine.currentServerIdx]? = some server)
    (after : Attempted (o.machine.now waits.first) server false waits.second waits.third r) :
    Scheduled s ⟨r.1, o.tried ++ trials o.machine r.2⟩ := by
  have tried := tried_snoc h waiting found
  have inside := (List.getElem?_eq_some_iff.mp found).1
  have length : (o.tried ++ [Trial.mk o.machine.currentServerIdx server]).length =
      o.tried.length + 1 := List.length_append
  have only : tryNextServer (o.machine.now waits.first) = none ↔ o.machine.servers.length = 1 :=
    alone_iff inside
  rw [trials_attempted o.machine after]
  rw [h.listed] at only
  cases after with
  | connects ok => cases ok
  | exhausted failed last alone =>
    exact exhausted_scheduled h waiting tried length (only.mp alone) last _ _ _ _
  | failsOver failed last idx next =>
    have several : s.servers.length ≠ 1 := by
      intro single
      rw [only.mpr single] at next
      cases next
    rw [tryNextServer_next (s := o.machine.now waits.first) (by
      change 1 < o.machine.servers.length
      rw [h.listed] at inside ⊢
      omega) inside] at next
    cases next
    have waits' := failsOver_waiting waiting length several (last_failure h waiting last)
      (o.machine.now waits.first).clock
    rw [← h.listed] at waits'
    have stays : (o.machine.currentServerIdx + 1) % o.machine.servers.length <
        s.servers.length := by
      rw [← h.listed]
      exact Nat.mod_lt _ (by omega)
    exact ⟨h.configured, h.listed, h.running, fun _ => stays, tried, Or.inl waits'⟩
  | retries failed more backoff computed =>
    have waits' := retries_waiting waiting length (earlier_failure h waiting more)
      (o.machine.now waits.first).clock (o.machine.now waits.first).clock backoff
    exact ⟨h.configured, h.listed, h.running, h.inside, tried, Or.inl waits'⟩

theorem outage_tick {m : Machine} (running : m.running = true)
    (down : m.state = .reconnecting ∨ m.state = .offline) (done : tick m false waits = some r) :
    r = (m.now waits.first, []) ∨ m.state = .reconnecting ∧
      ∃ server, m.servers[m.currentServerIdx]? = some server ∧
        Attempted (m.now waits.first) server false waits.second waits.third r := by
  cases tick_cases done with
  | asleep stopped =>
    rw [running] at stopped
    cases stopped
  | quiet => exact Or.inl rfl
  | expired running newState move =>
    rcases down with here | here <;> rw [here] at move <;> cases move
  | reconnects running away =>
    rcases down with here | here <;> rw [here] at away <;> cases away
  | attempts running trying due r' tried =>
    have here : (m.now waits.first).state = .reconnecting := trying
    exact Or.inr ⟨trying, attempt_cases here tried⟩

theorem tick_scheduled (h : Scheduled s o) (done : tick o.machine false waits = some r) :
    Scheduled s ⟨r.1, o.tried ++ trials o.machine r.2⟩ := by
  have down := h.phase.imp Waiting.trying Exhausted.offline
  rcases outage_tick h.running down done with quiet | ⟨trying, server, found, after⟩
  · rw [quiet, trials, List.filterMap_nil, List.append_nil]
    refine ⟨h.configured, h.listed, h.running, h.inside, h.tried, ?_⟩
    rcases h.phase with waiting | exhausted
    · exact Or.inl ⟨waiting.trying, waiting.retries, waiting.index, waiting.alone⟩
    · exact Or.inr ⟨exhausted.offline, exhausted.alone, exhausted.spent⟩
  · rcases h.phase with waiting | exhausted
    · exact attempt_scheduled h waiting found after
    · rw [exhausted.offline] at trying
      cases trying

theorem step_scheduled {o' : Outage} (h : Scheduled s o)
    (done : tickStep (some o) waits = some o') : Scheduled s o' := by
  obtain ⟨r, ticked, same⟩ := Option.bind_eq_some_iff.mp done
  cases same
  exact tick_scheduled h ticked

theorem run_scheduled {o' : Outage} {ticks : List Waits} (h : Scheduled s o)
    (done : run tickStep (some o) ticks = some o') : Scheduled s o' := by
  have start : ∀ o₁, some o = some o₁ → Scheduled s o₁ := by
    rintro _ ⟨⟩
    exact h
  apply invariant_run (P := fun x => ∀ o₁, x = some o₁ → Scheduled s o₁) ticks start _ o' done
  intro x waits kept
  exact keep_while_defined (fun _ => rfl) (fun _ _ _ h' => step_scheduled h') x waits kept

theorem start_scheduled (running : s.running = true) (trying : s.state = .reconnecting)
    (fresh : s.retryCount = 0) : Scheduled s ⟨s, []⟩ := by
  have positive := zero_lt_retryLimit s.config
  refine ⟨rfl, rfl, running, id, by simp, Or.inl ⟨trying, ?_, ?_, fun _ => positive⟩⟩
  · rw [fresh, List.length_nil, Nat.zero_mod]
    rfl
  · rw [scheduled, turn, List.length_nil, Nat.zero_div]
    rfl

theorem stretch_indices (h : Scheduled s o) {start size : Nat}
    (inside : start + size ≤ o.tried.length) :
    ((o.tried.drop start).take size).map Trial.index =
      (List.range size).map fun k => scheduled s (start + k) := by
  apply List.ext_getElem
  · simp only [List.length_map, List.length_take, List.length_drop, List.length_range]
    omega
  · intro k left right
    simp only [List.getElem_map, List.getElem_take, List.getElem_drop, List.getElem_range]
    exact (h.tried (start + k) _ (List.getElem?_eq_getElem _)).1

theorem stretch_count (h : Scheduled s o) {start x : Nat}
    (inside : start + retryLimit s.config * s.servers.length ≤ o.tried.length)
    (listed : x < s.servers.length) :
    ((o.tried.drop start).take (retryLimit s.config * s.servers.length)).countP
      (fun trial => trial.index = x) = retryLimit s.config := by
  have indices := stretch_indices h inside
  have counted := turn_count s.currentServerIdx (zero_lt_retryLimit s.config) listed start
  have moved : ((o.tried.drop start).take (retryLimit s.config * s.servers.length)).countP
      (fun trial => trial.index = x) =
      (((o.tried.drop start).take (retryLimit s.config * s.servers.length)).map Trial.index).countP
        (fun index => index = x) := by
    rw [List.countP_map]
    rfl
  rw [moved, indices, List.countP_map]
  exact counted

def Backed (config : ReconnectConfig) : Prop :=
  ∀ retries : UInt32, retries.toNat < retryLimit config →
    ∃ b, computeBackoff config retries = some b

theorem tick_runs (h : Scheduled s o) (backed : Backed s.config)
    (inside : s.currentServerIdx < s.servers.length) (waits : Waits) :
    ∃ r, tick o.machine false waits = some r := by
  apply tick_defined
  · intro _
    rw [h.listed]
    exact h.inside inside
  · intro more
    rw [h.configured] at more ⊢
    exact backed _ (Nat.lt_of_lt_of_le (UInt32.lt_iff_toNat_lt.mp more) (Nat.le_max_right _ _))

def Punctual (m : Machine) : Prop :=
  m.callbacks.onConnectAttempt = true ∧ m.lastReconnectAttempt ≤ m.clock

/-- A wait that is longer than every backoff. -/
def Patient (waits : Waits) : Prop := 4294967295 * 1000000 ≤ waits.first

theorem due_of_patient {m : Machine} (punctual : Punctual m) (patient : Patient waits)
    (present : m.servers ≠ []) : (m.now waits.first).due := by
  have bound := m.currentBackoffMs.toNat_lt
  obtain ⟨callback, past⟩ := punctual
  refine ⟨?_, callback, present⟩
  change m.currentBackoffMs.toNat ≤ (m.clock + waits.first - m.lastReconnectAttempt) / 1000000
  unfold Patient at patient
  omega

theorem tick_punctual {m : Machine} (punctual : Punctual m) (running : m.running = true)
    (down : m.state = .reconnecting ∨ m.state = .offline) (done : tick m false waits = some r) :
    Punctual r.1 := by
  obtain ⟨callback, past⟩ := punctual
  have later : m.lastReconnectAttempt ≤ (m.now waits.first).clock := Nat.le_add_right_of_le past
  rcases outage_tick running down done with quiet | ⟨_, server, _, after⟩
  · rw [quiet]
    exact ⟨callback, later⟩
  · cases after with
    | connects ok => cases ok
    | exhausted =>
      obtain ⟨_, _, _, grown, kept, same⟩ := transitionTo_eq
        { m.now waits.first with retryCount := (m.now waits.first).retryCount + 1 } .offline
        waits.second waits.third
      rw [same]
      exact ⟨callback, by rw [kept (by decide)]; exact Nat.le_trans later grown⟩
    | failsOver => exact ⟨callback, later⟩
    | retries => exact ⟨callback, Nat.le_refl _⟩

theorem patient_trials (h : Scheduled s o) (punctual : Punctual o.machine) (patient : Patient waits)
    (present : s.servers ≠ []) (done : tick o.machine false waits = some r) :
    (trials o.machine r.2).length = if o.machine.state = .offline then 0 else 1 := by
  rcases h.phase with waiting | exhausted
  · have due := due_of_patient punctual patient (h.listed ▸ present)
    have tried : attempt (o.machine.now waits.first) false waits.second waits.third = some r := by
      rw [← done, tick, if_pos h.running, waiting.trying]
      exact (if_pos due).symm
    have here : (o.machine.now waits.first).state = .reconnecting := waiting.trying
    obtain ⟨server, _, after⟩ := attempt_cases here tried
    rw [trials_attempted o.machine after, waiting.trying]
    rfl
  · rw [tick, if_pos h.running, exhausted.offline] at done
    cases done
    rw [if_pos exhausted.offline]
    rfl

def attemptsAfter (s : Machine) (made ticks : Nat) : Nat :=
  if s.servers.length = 1 then min (retryLimit s.config) (made + ticks) else made + ticks

theorem patient_step (h : Scheduled s o) (punctual : Punctual o.machine) (patient : Patient waits)
    (present : s.servers ≠ []) (done : tick o.machine false waits = some r) (more : Nat) :
    attemptsAfter s (o.tried ++ trials o.machine r.2).length more =
      attemptsAfter s o.tried.length (more + 1) := by
  have added := patient_trials h punctual patient present done
  rcases h.phase with waiting | exhausted
  · rw [waiting.trying, if_neg (by decide)] at added
    rw [List.length_append, added, attemptsAfter, attemptsAfter, Nat.add_assoc, Nat.add_comm 1 more]
  · rw [if_pos exhausted.offline] at added
    rw [List.length_append, added, attemptsAfter, attemptsAfter, if_pos exhausted.alone,
      if_pos exhausted.alone, exhausted.spent]
    omega

theorem scheduled_count (h : Scheduled s o) :
    o.tried.length = attemptsAfter s o.tried.length 0 := by
  unfold attemptsAfter
  split
  · rename_i single
    rcases h.phase with waiting | exhausted
    · have left := waiting.alone single
      omega
    · have spent := exhausted.spent
      omega
  · rfl

theorem run_counts (h : Scheduled s o) (backed : Backed s.config)
    (inside : s.currentServerIdx < s.servers.length) (ticks : List Waits) :
    ∃ o', run tickStep (some o) ticks = some o' ∧
      (Punctual o.machine → (∀ waits ∈ ticks, Patient waits) →
        o'.tried.length = attemptsAfter s o.tried.length ticks.length) := by
  have present : s.servers ≠ [] := List.ne_nil_of_length_pos (by omega)
  induction ticks generalizing o with
  | nil => exact ⟨o, rfl, fun _ _ => scheduled_count h⟩
  | cons waits ticks ih =>
    obtain ⟨r, done⟩ := tick_runs h backed inside waits
    have next : tickStep (some o) waits = some ⟨r.1, o.tried ++ trials o.machine r.2⟩ := by
      simp only [tickStep, Option.bind_eq_bind, Option.bind_some, done]
      rfl
    obtain ⟨o', reached, counts⟩ := ih (step_scheduled h next)
    refine ⟨o', by rw [run, next]; exact reached, ?_⟩
    intro punctual patient
    have now := patient waits List.mem_cons_self
    have later := tick_punctual punctual h.running (h.phase.imp Waiting.trying Exhausted.offline)
      done
    rw [counts later fun w member => patient w (List.mem_cons_of_mem _ member)]
    exact patient_step h punctual now present done ticks.length

end Schedule

/-- In an outage the servers take turns, R attempts each; a single server goes Offline after R.
    No Tick is undefined, and with enough time between the Ticks each makes its attempt. -/
theorem failover_schedule (s : Machine) (running : s.running = true)
    (trying : s.state = .reconnecting) (fresh : s.retryCount = 0) (ticks : List Waits) :
    (∀ o, run tickStep (some ⟨s, []⟩) ticks = some o →
      (∀ j trial, o.tried[j]? = some trial →
        trial.index = (s.currentServerIdx + j / retryLimit s.config) % s.servers.length ∧
          s.servers[trial.index]? = some trial.server) ∧
      (2 ≤ s.servers.length → o.machine.state = .reconnecting ∧
        ∀ start x, start + retryLimit s.config * s.servers.length ≤ o.tried.length →
          x < s.servers.length →
          ((o.tried.drop start).take (retryLimit s.config * s.servers.length)).countP
            (fun trial => trial.index = x) = retryLimit s.config) ∧
      (s.servers.length = 1 → o.tried.length ≤ retryLimit s.config ∧
        (o.machine.state = .offline ↔ o.tried.length = retryLimit s.config))) ∧
    (s.currentServerIdx < s.servers.length → Backed s.config →
      ∃ o, run tickStep (some ⟨s, []⟩) ticks = some o ∧
        (Punctual s → (∀ waits ∈ ticks, Patient waits) →
          o.tried.length = if s.servers.length = 1 then min (retryLimit s.config) ticks.length
            else ticks.length)) := by
  have start := start_scheduled running trying fresh
  constructor
  · intro o done
    have h := run_scheduled start done
    refine ⟨h.tried, ?_, ?_⟩
    · intro several
      refine ⟨?_, fun start x => stretch_count h⟩
      rcases h.phase with waiting | exhausted
      · exact waiting.trying
      · have alone := exhausted.alone
        omega
    · intro single
      rcases h.phase with waiting | exhausted
      · have left := waiting.alone single
        rw [waiting.trying]
        exact ⟨by omega, iff_of_false (by decide) (by omega)⟩
      · exact ⟨exhausted.spent.le, iff_of_true exhausted.offline exhausted.spent⟩
  · intro inside backed
    obtain ⟨o, done, counts⟩ := run_counts start backed inside ticks
    refine ⟨o, done, fun punctual patient => ?_⟩
    rw [counts punctual patient, attemptsAfter, List.length_nil, Nat.zero_add]

theorem backed_of_growing {config : ReconnectConfig} (valid : Growing config) : Backed config := by
  intro retries _
  obtain ⟨b, computed, _⟩ := computeBackoff_bounds valid retries
  exact ⟨b, computed⟩

def twoServers : Machine :=
  { newMachine { maxRetryCount := 2 } 0 with
    servers := [⟨[97], 9527, true⟩, ⟨[98], 9527, false⟩]
    state := .reconnecting
    callbacks := ⟨false, true, false⟩
    running := true }

def longWait : Waits := ⟨4294967295000000, 0, 0⟩

theorem twoServers_alternate :
    ∃ o, run tickStep (some ⟨twoServers, []⟩) (List.replicate 5 longWait) = some o ∧
      o.tried.length = 5 ∧ o.machine.state = .reconnecting ∧
      ∀ trial, o.tried[3]? = some trial → trial.index = 1 ∧ trial.server = ⟨[98], 9527, false⟩ := by
  obtain ⟨every, live⟩ := failover_schedule twoServers rfl rfl rfl (List.replicate 5 longWait)
  have valid : Growing twoServers.config := ⟨by decide, by decide +kernel, by decide +kernel⟩
  obtain ⟨o, done, counts⟩ := live (by decide) (backed_of_growing valid)
  obtain ⟨tried, several, _⟩ := every o done
  have patient : ∀ waits ∈ List.replicate 5 longWait, Patient waits := by
    intro waits member
    rw [List.eq_of_mem_replicate member]
    exact Nat.le_refl _
  refine ⟨o, done, counts ⟨rfl, Nat.le_refl _⟩ patient, (several (by decide)).1, ?_⟩
  intro trial third
  obtain ⟨index, found⟩ := tried 3 trial third
  have here : trial.index = 1 := index
  rw [here] at found
  exact ⟨here, (Option.some.inj found).symm⟩

end FailoverSchedule
