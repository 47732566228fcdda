import HyperDisk.DiskRuntime.MachineInvariant

/- The rate of the reconnect attempts. A run is observed through a log of the times at which
   Reconnecting was entered and on_connect_attempt_ was invoked; the log is spaced as the
   doubling backoff promises as long as no failed attempt moves on to another server. -/
namespace RetryBackoff
open NetworkStateMachine MachineInvariant StepRuns

inductive Record where
  | entered (time : Nat)
  | attempt (server : ServerEndpoint) (time : Nat)
  deriving DecidableEq

def Record.time : Record → Nat
  | .entered time => time
  | .attempt _ time => time

def attemptOf : Output → Option Record
  | .connectAttempt server time => some (.attempt server time)
  | _ => none

def records (s : Machine) (r : Machine × List Output) : List Record :=
  (if s.state ≠ .reconnecting ∧ r.1.state = .reconnecting then [.entered r.1.stateEnterTime]
    else []) ++ r.2.filterMap attemptOf

structure Observed where
  machine : Machine
  log : List Record

def observedStep (o : Option Observed) (call : Call) : Option Observed :=
  o.bind fun t => (react t.machine call).map fun r => ⟨r.1, records t.machine r ++ t.log⟩

def observe (config : ReconnectConfig) (clock : Nat) : Option Observed :=
  some ⟨newMachine config clock, []⟩

/-- The attempts on the server that end the log, back to another server's or to entering. -/
def streak (server : ServerEndpoint) : List Record → Nat
  | .attempt other _ :: older => if other = server then streak server older + 1 else 0
  | _ => 0

def lastAttempt : List Record → Option Nat
  | [] => none
  | .entered _ :: older => lastAttempt older
  | .attempt _ time :: _ => some time

def backoffTime (config : ReconnectConfig) (k : Nat) : Nat :=
  min config.maxBackoffMs.toNat (config.minBackoffMs.toNat * 2 ^ k) * 1000000

/-- Each attempt keeps min_backoff_ms from the attempt before it, and its doubled backoff from
    that attempt or from entering Reconnecting, whichever came last. -/
def Spaced (config : ReconnectConfig) : List Record → Prop
  | [] => True
  | .entered _ :: older => Spaced config older
  | .attempt server time :: older =>
    (∀ previous ∈ lastAttempt older, previous + config.minBackoffMs.toNat * 1000000 ≤ time) ∧
      (∀ latest ∈ older.head?, latest.time + backoffTime config (streak server older) ≤ time) ∧
        Spaced config older

def RateLimited (config : ReconnectConfig) (clock : Nat) (calls : List Call) : Prop :=
  ∃ t, run observedStep (observe config clock) calls = some t ∧ Spaced config t.log

def FailsOver (o : Option Observed) (call : Call) : Prop :=
  ∃ t, o = some t ∧ call.event = .tick false ∧ t.machine.running = true ∧
    t.machine.state = .reconnecting ∧ (t.machine.now call.waits.first).due ∧
    t.machine.config.maxRetryCount ≤ t.machine.retryCount + 1 ∧ 1 < t.machine.servers.length

variable {config : ReconnectConfig} {s : Machine} {r : Machine × List Output}

theorem minBackoff_le_backoffTime (ordered : config.minBackoffMs ≤ config.maxBackoffMs) (k : Nat) :
    config.minBackoffMs.toNat * 1000000 ≤ backoffTime config k := by
  have grown : config.minBackoffMs.toNat ≤ config.minBackoffMs.toNat * 2 ^ k :=
    Nat.le_mul_of_pos_right _ (Nat.two_pow_pos k)
  exact Nat.mul_le_mul_right _ (Nat.le_min.mpr ⟨UInt32.le_iff_toNat_le.mp ordered, grown⟩)

theorem backoffTime_mono (config : ReconnectConfig) {j k : Nat} (le : j ≤ k) :
    backoffTime config j ≤ backoffTime config k := by
  have grown : config.minBackoffMs.toNat * 2 ^ j ≤ config.minBackoffMs.toNat * 2 ^ k :=
    Nat.mul_le_mul_left _ (Nat.pow_le_pow_right (by decide) le)
  exact Nat.mul_le_mul_right _ (by omega)

theorem scaled_two {backoff next : UInt32} (done : scaled backoff 2 = some next) :
    next.toNat = backoff.toNat * 2 := by
  have cast : (backoff.toNat : ℚ) * 2 = ((backoff.toNat * 2 : Nat) : ℚ) := by push_cast; rfl
  unfold scaled at done
  rw [cast, Nat.floor_natCast] at done
  split at done
  · rename_i range
    have small : backoff.toNat * 2 < 2 ^ 32 := by
      have bound := range.2
      exact_mod_cast bound
    cases done
    exact UInt32.toNat_ofNat_of_lt' small
  · cases done

-- By induction on the iterations left: each of them doubles or ends at the cap.
theorem backoffLoop_doubles (doubles : config.backoffMultiplier = 2) (left : Nat)
    {backoff b : UInt32} (done : backoffLoop config backoff left = some b) :
    min config.maxBackoffMs.toNat (backoff.toNat * 2 ^ left) ≤ b.toNat := by
  induction left generalizing backoff with
  | zero =>
    cases done
    simp
  | succ left ih =>
    simp only [backoffLoop, doubles, Option.bind_eq_bind] at done
    obtain ⟨next, product, rest⟩ := Option.bind_eq_some_iff.mp done
    split at rest
    · cases rest
      exact Nat.min_le_left _ _
    · have grown := ih rest
      rw [scaled_two product] at grown
      rwa [Nat.pow_succ', ← Nat.mul_assoc]

def tries : List Record → Nat
  | .attempt _ _ :: older => tries older + 1
  | _ => 0

theorem streak_le_tries (server : ServerEndpoint) (log : List Record) :
    streak server log ≤ tries log := by
  induction log with
  | nil => exact Nat.le_refl 0
  | cons record older ih =>
    cases record with
    | entered time => exact Nat.le_refl 0
    | attempt other time =>
      simp only [streak, tries]
      split <;> omega

theorem lastAttempt_mem {log : List Record} {previous : Nat} (last : previous ∈ lastAttempt log) :
    ∃ record ∈ log, record.time = previous := by
  induction log with
  | nil => cases last
  | cons record older ih =>
    cases record with
    | entered time =>
      obtain ⟨record, member, same⟩ := ih last
      exact ⟨record, List.mem_cons_of_mem _ member, same⟩
    | attempt server time =>
      cases last
      exact ⟨_, List.mem_cons_self, rfl⟩

theorem spaced_attempt (ordered : config.minBackoffMs ≤ config.maxBackoffMs) {log : List Record}
    {server : ServerEndpoint} {time : Nat} (h : Spaced config log)
    (apart : ∀ record ∈ log, record.time + backoffTime config (streak server log) ≤ time) :
    Spaced config (.attempt server time :: log) := by
  refine ⟨fun previous last => ?_, fun latest head => ?_, h⟩
  · obtain ⟨record, member, rfl⟩ := lastAttempt_mem last
    have least := minBackoff_le_backoffTime ordered (streak server log)
    exact Nat.le_trans (Nat.add_le_add_left least _) (apart record member)
  · exact apart latest (List.mem_of_head? head)

structure Idle (s : Machine) (r : Machine × List Output) : Prop where
  later : s.clock ≤ r.1.clock
  silent : r.2.filterMap attemptOf = []
  kept : r.1.state = .reconnecting → s.state = .reconnecting ∧ r.1.retryCount = s.retryCount ∧
    r.1.currentBackoffMs = s.currentBackoffMs ∧ r.1.lastReconnectAttempt = s.lastReconnectAttempt

theorem transitionTo_attempts (t : Machine) (newState : ConnectionState) (first second : Nat) :
    (transitionTo t newState first second).2.filterMap attemptOf = [] := by
  rw [List.filterMap_eq_nil_iff]
  intro o invoked
  obtain ⟨old, rfl⟩ := transitionTo_silent _ _ _ _ invoked
  rfl

theorem idle_transition {t : Machine} {newState : ConnectionState} (first second : Nat)
    (later : s.clock ≤ t.clock) (other : newState ≠ .reconnecting) :
    Idle s (transitionTo t newState first second) := by
  refine ⟨?_, transitionTo_attempts t newState first second, fun entered => ?_⟩
  · obtain ⟨_, _, clock, le, _, same⟩ := transitionTo_eq t newState first second
    rw [same]
    exact Nat.le_trans later le
  · rw [transitionTo_state] at entered
    exact absurd entered other

theorem idle_same {t : Machine} (later : s.clock ≤ t.clock)
    (same : t.state = s.state ∧ t.retryCount = s.retryCount ∧
      t.currentBackoffMs = s.currentBackoffMs ∧ t.lastReconnectAttempt = s.lastReconnectAttempt) :
    Idle s (t, []) :=
  ⟨later, rfl, fun here => ⟨same.1 ▸ here, same.2⟩⟩

theorem onHeartbeatSuccess_idle (waits : Waits) : Idle s (onHeartbeatSuccess s waits) := by
  have back : Idle s (transitionTo (heartbeatNow s waits.first).restartBackoff .connected
      waits.second waits.third) :=
    idle_transition _ _ (Nat.le_add_right _ _) (by decide)
  simp only [onHeartbeatSuccess]
  split
  · exact back
  · exact back
  · refine ⟨back.later, ?_, back.kept⟩
    rw [List.filterMap_append, back.silent]
    split <;> rfl
  · exact idle_same (Nat.le_add_right _ _) ⟨rfl, rfl, rfl, rfl⟩

theorem onHeartbeatTimeout_idle (waits : Waits) : Idle s (onHeartbeatTimeout s waits) := by
  unfold onHeartbeatTimeout
  split
  · exact idle_transition _ _ (Nat.le_refl _) (by decide)
  · exact idle_transition _ _ (Nat.le_refl _) (by decide)
  · exact idle_same (Nat.le_refl _) ⟨rfl, rfl, rfl, rfl⟩

theorem onIoError_idle (waits : Waits) : Idle s (onIoError s waits) := by
  simp only [onIoError]
  split
  · exact idle_transition _ _ (Nat.le_refl s.clock) (by decide)
  · exact idle_same (Nat.le_refl s.clock) ⟨rfl, rfl, rfl, rfl⟩

theorem start_idle (waits : Waits) : Idle s (start s waits) := by
  have later : s.clock ≤ s.clock + waits.first + waits.second := by omega
  simp only [start]
  split
  · exact idle_transition _ _ later (by decide)
  · exact idle_transition _ _ later (by decide)

inductive Paces (s : Machine) (call : Call) (r : Machine × List Output) : Prop where
  | idle (quiet : Idle s r)
  | begins (away : s.state = .disconnected)
      (done : r = tryReconnect (s.now call.waits.first) call.waits.second call.waits.third)
  | attempts (accepted : Bool) (server : ServerEndpoint) (event : call.event = .tick accepted)
      (running : s.running = true) (trying : s.state = .reconnecting)
      (due : (s.now call.waits.first).due)
      (done : Attempted (s.now call.waits.first) server accepted call.waits.second
        call.waits.third r)

theorem tick_paces {accepted : Bool} {waits : Waits} (done : tick s accepted waits = some r) :
    Paces s ⟨.tick accepted, waits⟩ r := by
  cases tick_cases done with
  | asleep => exact .idle (idle_same (Nat.le_refl _) ⟨rfl, rfl, rfl, rfl⟩)
  | quiet => exact .idle (idle_same (Nat.le_add_right _ _) ⟨rfl, rfl, rfl, rfl⟩)
  | expired running newState move =>
    have other : newState ≠ .reconnecting := by
      rintro rfl
      generalize s.state = old at move
      cases move
    exact .idle (idle_transition _ _ (Nat.le_add_right _ _) other)
  | reconnects running away => exact .begins away rfl
  | attempts running trying due r' tried =>
    have here : (s.now waits.first).state = .reconnecting := trying
    obtain ⟨server, _, after⟩ := attempt_cases here tried
    exact .attempts accepted server rfl running trying due after

theorem react_paces {call : Call} (done : react s call = some r) : Paces s call r := by
  obtain ⟨event, waits⟩ := call
  cases event with
  | setServers servers =>
    cases done
    unfold setServers
    split <;> exact .idle (idle_same (Nat.le_refl _) ⟨rfl, rfl, rfl, rfl⟩)
  | setCallbacks callbacks =>
    cases done
    exact .idle (idle_same (Nat.le_refl _) ⟨rfl, rfl, rfl, rfl⟩)
  | start =>
    cases done
    exact .idle (start_idle waits)
  | stop =>
    cases done
    exact .idle (idle_transition _ _ (Nat.le_refl s.clock) (by decide))
  | heartbeatSuccess =>
    cases done
    exact .idle (onHeartbeatSuccess_idle waits)
  | heartbeatTimeout =>
    cases done
    exact .idle (onHeartbeatTimeout_idle waits)
  | ioSuccess =>
    cases done
    exact .idle (idle_same (Nat.le_add_right _ _) ⟨rfl, rfl, rfl, rfl⟩)
  | ioError errorCode =>
    cases done
    exact .idle (onIoError_idle waits)
  | tick accepted => exact tick_paces done

structure Ready (config : ReconnectConfig) (t : Observed) : Prop where
  timer : ∀ record ∈ t.log, record.time ≤ t.machine.lastReconnectAttempt
  counted : tries t.log ≤ t.machine.retryCount.toNat
  backoff : backoffTime config t.machine.retryCount.toNat ≤
    t.machine.currentBackoffMs.toNat * 1000000

structure Paced (config : ReconnectConfig) (t : Observed) : Prop where
  sound : Sound config t.machine
  spaced : Spaced config t.log
  past : ∀ record ∈ t.log, record.time ≤ t.machine.clock
  ready : t.machine.state = .reconnecting → config.minBackoffMs ≠ 0 → Ready config t

variable {t : Observed}

theorem records_idle (quiet : Idle s r) : records s r = [] := by
  have staying : ¬ (s.state ≠ .reconnecting ∧ r.1.state = .reconnecting) :=
    fun entering => entering.1 (quiet.kept entering.2).1
  rw [records, if_neg staying, quiet.silent, List.append_nil]

theorem paced_idle (h : Paced config t) (sound : Sound config r.1) (quiet : Idle t.machine r) :
    Paced config ⟨r.1, records t.machine r ++ t.log⟩ := by
  rw [records_idle quiet]
  refine ⟨sound, h.spaced, fun record member => ?_, fun trying positive => ?_⟩
  · exact Nat.le_trans (h.past record member) quiet.later
  · obtain ⟨before, retries, backoff, timer⟩ := quiet.kept trying
    obtain ⟨earlier, counted, grown⟩ := h.ready before positive
    exact ⟨timer ▸ earlier, retries ▸ counted, by rw [retries, backoff]; exact grown⟩

theorem backoffTime_zero (ordered : config.minBackoffMs ≤ config.maxBackoffMs) :
    backoffTime config 0 = config.minBackoffMs.toNat * 1000000 := by
  have le := UInt32.le_iff_toNat_le.mp ordered
  rw [backoffTime, Nat.pow_zero, Nat.mul_one, Nat.min_eq_right le]

theorem paced_begins (ordered : config.minBackoffMs ≤ config.maxBackoffMs) (h : Paced config t)
    (waits : Waits) (away : t.machine.state = .disconnected)
    (sound : Sound config (tryReconnect (t.machine.now waits.first) waits.second waits.third).1) :
    Paced config
      ⟨(tryReconnect (t.machine.now waits.first) waits.second waits.third).1,
        records t.machine (tryReconnect (t.machine.now waits.first) waits.second waits.third) ++
          t.log⟩ := by
  have other : t.machine.state ≠ .reconnecting := by
    rw [away]
    decide
  obtain ⟨enter, timer, clock, retries, backoff⟩ :=
    tryReconnect_fields (s := t.machine.now waits.first) waits.second waits.third other
  have state : (tryReconnect (t.machine.now waits.first) waits.second waits.third).1.state =
      .reconnecting := transitionTo_state _ _ _ _
  have added : records t.machine
      (tryReconnect (t.machine.now waits.first) waits.second waits.third) =
        [.entered (t.machine.clock + waits.first + waits.second)] := by
    rw [records, if_pos ⟨other, state⟩, enter, tryReconnect, transitionTo_attempts]
    rfl
  rw [added]
  have upTo : ∀ record ∈ .entered (t.machine.clock + waits.first + waits.second) :: t.log,
      record.time ≤ t.machine.clock + waits.first + waits.second + waits.third := by
    intro record member
    rcases List.mem_cons.mp member with rfl | old
    · exact Nat.le_add_right _ _
    · have past := h.past record old
      omega
  refine ⟨sound, h.spaced, ?_, fun _ _ => ⟨?_, Nat.zero_le _, ?_⟩⟩
  · rw [clock]
    exact upTo
  · rw [timer]
    exact upTo
  · have configured : (t.machine.now waits.first).config = config := h.sound.configured
    rw [retries, backoff, configured]
    exact Nat.le_of_eq (backoffTime_zero ordered)

theorem records_attempted {waits : Waits} {server : ServerEndpoint} {accepted : Bool}
    (trying : s.state = .reconnecting)
    (done : Attempted (s.now waits.first) server accepted waits.second waits.third r) :
    records s r = [.attempt server (s.now waits.first).clock] := by
  have staying : ¬ (s.state ≠ .reconnecting ∧ r.1.state = .reconnecting) :=
    fun entering => entering.1 trying
  rw [records, if_neg staying, List.nil_append]
  cases done with
  | connects => rw [List.filterMap_cons, transitionTo_attempts]; rfl
  | exhausted => rw [List.filterMap_cons, transitionTo_attempts]; rfl
  | failsOver => rfl
  | retries => rfl

theorem attempted_clock {server : ServerEndpoint} {accepted : Bool} {first second : Nat}
    (done : Attempted s server accepted first second r) : s.clock ≤ r.1.clock := by
  have later : ∀ (t : Machine) (newState : ConnectionState), t.clock = s.clock →
      s.clock ≤ (transitionTo t newState first second).1.clock := by
    intro t newState same
    obtain ⟨_, _, clock, le, _, moved⟩ := transitionTo_eq t newState first second
    rw [moved]
    exact same ▸ le
  cases done with
  | connects => exact later _ _ rfl
  | exhausted => exact later _ _ rfl
  | failsOver => exact Nat.le_refl _
  | retries => exact Nat.le_refl _

theorem due_apart (h : Paced config t) (server : ServerEndpoint) {wait : Nat}
    (trying : t.machine.state = .reconnecting) (due : (t.machine.now wait).due) :
    ∀ record ∈ t.log,
      record.time + backoffTime config (streak server t.log) ≤ (t.machine.now wait).clock := by
  intro record member
  have past := h.past record member
  have now : (t.machine.now wait).clock = t.machine.clock + wait := rfl
  by_cases zero : config.minBackoffMs = 0
  · have none : backoffTime config (streak server t.log) = 0 := by simp [backoffTime, zero]
    omega
  · obtain ⟨timer, counted, backoff⟩ := h.ready trying zero
    have grown := backoffTime_mono config (Nat.le_trans (streak_le_tries server t.log) counted)
    have least : 0 < t.machine.currentBackoffMs.toNat := by
      have lower := UInt32.le_iff_toNat_le.mp h.sound.backoff.1
      have positive : config.minBackoffMs.toNat ≠ 0 := fun none => zero (UInt32.toNat_inj.mp none)
      omega
    have elapsed : t.machine.currentBackoffMs.toNat ≤
        ((t.machine.now wait).clock - t.machine.lastReconnectAttempt) / 1000000 := due.1
    have before := timer record member
    omega

theorem paced_attempt (valid : Growing config) (doubles : config.backoffMultiplier = 2)
    (h : Paced config t) {waits : Waits} {server : ServerEndpoint} {accepted : Bool}
    (trying : t.machine.state = .reconnecting) (due : (t.machine.now waits.first).due)
    (done : Attempted (t.machine.now waits.first) server accepted waits.second waits.third r)
    (stays : config.minBackoffMs ≠ 0 → accepted = false →
      t.machine.config.maxRetryCount ≤ t.machine.retryCount + 1 →
        tryNextServer (t.machine.now waits.first) = none) :
    Paced config ⟨r.1, records t.machine r ++ t.log⟩ := by
  have here : (t.machine.now waits.first).state = .reconnecting := trying
  have seen : Sound config (t.machine.now waits.first) := h.sound.aside _ _ _ _
  have online : (t.machine.now waits.first).state ≠ .offline := by rw [here]; decide
  have apart := due_apart h server trying due
  have clock := attempted_clock done
  have upTo : ∀ record ∈ .attempt server (t.machine.now waits.first).clock :: t.log,
      record.time ≤ (t.machine.now waits.first).clock := by
    intro record member
    rcases List.mem_cons.mp member with rfl | old
    · exact Nat.le_refl _
    · exact Nat.le_trans (Nat.le_add_right _ _) (apart record old)
  rw [records_attempted trying done]
  refine ⟨attempt_sound valid seen here done, spaced_attempt valid.ordered h.spaced apart,
    fun record member => Nat.le_trans (upTo record member) clock, fun again positive => ?_⟩
  cases done with
  | connects =>
    rw [transitionTo_state] at again
    cases again
  | exhausted =>
    rw [transitionTo_state] at again
    cases again
  | failsOver failed last idx next =>
    rw [stays positive failed last] at next
    cases next
  | retries failed more backoff computed =>
    obtain ⟨_, counted, _⟩ := h.ready trying positive
    have succ := retryCount_succ seen online
    rw [seen.configured] at computed
    have grown := backoffLoop_doubles doubles _ computed
    refine ⟨upTo, ?_, Nat.mul_le_mul_right _ grown⟩
    rw [succ]
    exact Nat.succ_le_succ counted

theorem paced_step (valid : Growing config) (doubles : config.backoffMultiplier = 2)
    (h : Paced config t) {call : Call}
    (stays : config.minBackoffMs ≠ 0 → ¬ FailsOver (some t) call) :
    ∃ t', observedStep (some t) call = some t' ∧ Paced config t' := by
  obtain ⟨r, done, sound⟩ := react_sound valid h.sound call
  refine ⟨⟨r.1, records t.machine r ++ t.log⟩, by simp [observedStep, done], ?_⟩
  cases react_paces done with
  | idle quiet => exact paced_idle h sound quiet
  | begins away begun =>
    subst begun
    exact paced_begins valid.ordered h call.waits away sound
  | attempts accepted server event running trying due after =>
    refine paced_attempt valid doubles h trying due after fun positive failed last => ?_
    by_cases alone : t.machine.servers.length ≤ 1
    · exact tryNextServer_none alone
    · rw [failed] at event
      exact absurd ⟨t, rfl, event, running, trying, due, last, by omega⟩ (stays positive)

theorem paced_start (ordered : config.minBackoffMs ≤ config.maxBackoffMs) (clock : Nat) :
    Paced config ⟨newMachine config clock, []⟩ :=
  ⟨newMachine_sound ordered clock, trivial, fun _ member => (by cases member), nofun⟩

theorem rateLimited_of_stays (valid : Growing config) (doubles : config.backoffMultiplier = 2)
    (clock : Nat) {calls : List Call}
    (stays : config.minBackoffMs = 0 ∨
      Meets observedStep (fun o call => ¬ FailsOver o call) (observe config clock) calls) :
    RateLimited config clock calls := by
  have meets : Meets observedStep (fun o call => config.minBackoffMs ≠ 0 → ¬ FailsOver o call)
      (observe config clock) calls := by
    rw [meets_iff_splits]
    intro before call after split positive
    exact meets_iff_splits.mp (stays.resolve_left positive) before call after split
  have keep : ∀ o call, (∃ t, o = some t ∧ Paced config t) →
      (config.minBackoffMs ≠ 0 → ¬ FailsOver o call) →
        ∃ t, observedStep o call = some t ∧ Paced config t := by
    rintro o call ⟨t, rfl, h⟩ stays
    exact paced_step valid doubles h stays
  obtain ⟨t, reached, h⟩ :=
    always_run (invariant_always ⟨_, rfl, paced_start valid.ordered clock⟩ keep meets)
  exact ⟨t, reached, h.spaced⟩

theorem observed_sound (valid : Growing config) (clock : Nat) (calls : List Call) :
    ∃ t, run observedStep (observe config clock) calls = some t ∧ Sound config t.machine := by
  have start : Sound config (newMachine config clock) := newMachine_sound valid.ordered clock
  refine defined_run (P := fun t : Observed => Sound config t.machine) calls start ?_
  intro t call h
  obtain ⟨r, done, sound⟩ := react_sound valid h call
  exact ⟨⟨r.1, records t.machine r ++ t.log⟩, by simp [observedStep, done], sound⟩

theorem attempt_logged (valid : Growing config) (sound : Sound config t.machine) (accepted : Bool)
    (waits : Waits) (running : t.machine.running = true) (trying : t.machine.state = .reconnecting)
    (due : (t.machine.now waits.first).due) :
    ∃ r server, observedStep (some t) ⟨.tick accepted, waits⟩ =
        some ⟨r.1, .attempt server (t.machine.now waits.first).clock :: t.log⟩ ∧
      Attempted (t.machine.now waits.first) server accepted waits.second waits.third r := by
  obtain ⟨r, done⟩ := tick_returns valid sound accepted waits
  have tried : attempt (t.machine.now waits.first) accepted waits.second waits.third = some r := by
    rw [← done, tick, if_pos running, trying]
    exact (if_pos due).symm
  have here : (t.machine.now waits.first).state = .reconnecting := trying
  obtain ⟨server, _, after⟩ := attempt_cases here tried
  have added := records_attempted trying after
  refine ⟨r, server, ?_, after⟩
  simp only [observedStep, react, done, Option.bind_some, Option.map_some, added]
  rfl

theorem failover_not_spaced (valid : Growing config) (positive : config.minBackoffMs ≠ 0)
    (sound : Sound config t.machine) {call : Call} (moved : FailsOver (some t) call)
    (accepted : Bool) :
    ∃ t', run observedStep (some t) [call, atOnce (.tick accepted)] = some t' ∧
      ¬ Spaced config t'.log := by
  obtain ⟨t, same, event, running, trying, due, last, others⟩ := moved
  cases same
  obtain ⟨_, waits⟩ := call
  cases event
  obtain ⟨r, server, logged, after⟩ :=
    attempt_logged valid sound false waits running trying due
  have seen : Sound config (t.machine.now waits.first) := sound.aside _ _ _ _
  have sound' : Sound config r.1 := attempt_sound valid seen trying after
  have found := tryNextServer_next (s := t.machine.now waits.first) others (sound.index due.2.2)
  cases after with
  | connects ok => cases ok
  | exhausted failed last alone =>
    rw [found] at alone
    cases alone
  | retries failed more => exact absurd (UInt32.lt_of_lt_of_le more last) (UInt32.lt_irrefl _)
  | failsOver failed last idx next =>
    obtain ⟨r₂, server₂, logged₂, _⟩ := attempt_logged (t := ⟨_, _⟩) valid sound' accepted
      ⟨0, 0, 0⟩ running trying due
    refine ⟨_, by rw [run, logged, run, atOnce, logged₂, run], fun spaced => ?_⟩
    have gap := spaced.1 _ rfl
    have least : config.minBackoffMs.toNat ≠ 0 := fun none => positive (UInt32.toNat_inj.mp none)
    have same : (Machine.now { t.machine.now waits.first with
      currentServerIdx := idx, retryCount := 0 } 0).clock = (t.machine.now waits.first).clock := rfl
    rw [same] at gap
    omega

/-- A run in which no attempt fails over is rate limited, and every failover can be followed by
    a Tick that breaks the limit. -/
theorem attempts_rate_limited (config : ReconnectConfig)
    (ordered : config.minBackoffMs ≤ config.maxBackoffMs) (doubles : config.backoffMultiplier = 2)
    (fits : 2 * config.maxBackoffMs.toNat < 2 ^ 32) (clock : Nat) (calls : List Call) :
    (config.minBackoffMs = 0 ∨
        Meets observedStep (fun o call => ¬ FailsOver o call) (observe config clock) calls →
      RateLimited config clock calls) ∧
    (config.minBackoffMs ≠ 0 →
      ∀ call, FailsOver (run observedStep (observe config clock) calls) call →
        ∀ accepted, ¬ RateLimited config clock (calls ++ [call, atOnce (.tick accepted)])) := by
  have range : (config.maxBackoffMs.toNat : ℚ) * 2 < 4294967296 := by
    have small : config.maxBackoffMs.toNat * 2 < 4294967296 := by omega
    exact_mod_cast small
  have valid : Growing config := ⟨ordered, by rw [doubles]; norm_num, by rw [doubles]; exact range⟩
  refine ⟨rateLimited_of_stays valid doubles clock, ?_⟩
  rintro positive call moved accepted ⟨t', reached, spaced⟩
  obtain ⟨t, here, sound⟩ := observed_sound valid clock calls
  rw [here] at moved
  obtain ⟨t'', after, broken⟩ := failover_not_spaced valid positive sound moved accepted
  rw [run_append, here, after] at reached
  cases reached
  exact broken spaced

def reconnectTo (servers : List ServerEndpoint) : List Call :=
  [atOnce (.setServers servers), atOnce (.setCallbacks ⟨true, true, true⟩), atOnce .start,
    atOnce .heartbeatTimeout, atOnce .heartbeatTimeout, atOnce (.tick false)]

def primary : ServerEndpoint := ⟨[97], 9090, true⟩

def secondary : ServerEndpoint := ⟨[98], 9090, false⟩

theorem single_server_rate_limited :
    RateLimited {} 0 (reconnectTo [primary] ++
      [⟨.tick false, ⟨1000000000, 0, 0⟩⟩, ⟨.tick false, ⟨2000000000, 0, 0⟩⟩]) := by
  refine (attempts_rate_limited {} (by decide) rfl (by decide) 0 _).1 (Or.inr ?_)
  have other : ∀ (o : Option Observed) (call : Call), (∀ accepted, call.event ≠ .tick accepted) →
      ¬ FailsOver o call := fun o call other ⟨_, _, event, _⟩ => other _ event
  have single : ∀ (o : Option Observed) (call : Call),
      (o.map fun t => t.machine.servers.length) = some 1 → ¬ FailsOver o call := by
    rintro o call length ⟨t, rfl, _, _, _, _, _, others⟩
    have one : t.machine.servers.length = 1 := Option.some.inj length
    omega
  exact ⟨other _ _ nofun, other _ _ nofun, other _ _ nofun, other _ _ nofun, other _ _ nofun,
    single _ _ (by decide +kernel), single _ _ (by decide +kernel),
    single _ _ (by decide +kernel), trivial⟩

theorem failover_attempts_at_once :
    (run observedStep (observe { maxRetryCount := 1 } 0) (reconnectTo [primary, secondary] ++
        [⟨.tick false, ⟨1000000000, 0, 0⟩⟩, atOnce (.tick false)])).map Observed.log =
      some [.attempt secondary 1000000000, .attempt primary 1000000000, .entered 0] ∧
    ¬ RateLimited { maxRetryCount := 1 } 0 (reconnectTo [primary, secondary] ++
        [⟨.tick false, ⟨1000000000, 0, 0⟩⟩, atOnce (.tick false)]) := by
  have logged : (run observedStep (observe { maxRetryCount := 1 } 0)
      (reconnectTo [primary, secondary] ++
        [⟨.tick false, ⟨1000000000, 0, 0⟩⟩, atOnce (.tick false)])).map Observed.log =
      some [.attempt secondary 1000000000, .attempt primary 1000000000, .entered 0] := by
    decide +kernel
  refine ⟨logged, ?_⟩
  rintro ⟨t, reached, spaced⟩
  rw [reached, Option.map_some, Option.some.injEq] at logged
  rw [logged] at spaced
  have gap := spaced.1 1000000000 rfl
  exact absurd gap (by decide)

end RetryBackoff
