import HyperDisk.DiskRuntime.NetworkStateMachine
import HyperDisk.Foundations.StepRuns
import HyperDisk.Foundations.WordCounters

/- The invariant of the network state machine: the server index, the backoff, the retry
   counter and the running flag over every sequence of calls, none of which runs into
   undefined behaviour. -/
namespace MachineInvariant
open NetworkStateMachine StepRuns WordCounters

def retryLimit (config : ReconnectConfig) : Nat := max 1 config.maxRetryCount.toNat

structure Bounds (config : ReconnectConfig) (s : Machine) : Prop where
  configured : s.config = config
  index : s.servers ≠ [] → s.currentServerIdx < s.servers.length
  backoff : config.minBackoffMs ≤ s.currentBackoffMs ∧ s.currentBackoffMs ≤ config.maxBackoffMs
  retries : s.retryCount.toNat ≤ retryLimit config

structure Sound (config : ReconnectConfig) (s : Machine) : Prop extends Bounds config s where
  spent : s.retryCount.toNat = retryLimit config → s.state = .offline
  stopped : s.running = false → s.state = .offline

variable {config : ReconnectConfig} {s : Machine}

theorem Sound.live (h : Sound config s) (online : s.state ≠ .offline) :
    s.running = true ∧ s.retryCount.toNat < retryLimit config := by
  have running : s.running ≠ false := fun stopped => online (h.stopped stopped)
  have left : s.retryCount.toNat ≠ retryLimit config := fun spent => online (h.spent spent)
  have bound := h.retries
  exact ⟨by simpa using running, by omega⟩

theorem Sound.aside (h : Sound config s) (beat clock : Nat) (pending : UInt32)
    (callbacks : Callbacks) :
    Sound config { s with
      lastHeartbeat := beat, clock := clock, pendingIoCount := pending, callbacks := callbacks } :=
  ⟨⟨h.configured, h.index, h.backoff, h.retries⟩, h.spent, h.stopped⟩

theorem transition_sound (h : Bounds config s) {newState : ConnectionState} (first second : Nat)
    (live : newState = .offline ∨ s.running = true ∧ s.retryCount.toNat < retryLimit config) :
    Sound config (transitionTo s newState first second).1 := by
  obtain ⟨_, _, _, _, _, same⟩ := transitionTo_eq s newState first second
  rw [same]
  refine ⟨⟨h.configured, h.index, h.backoff, h.retries⟩, fun spent => ?_, fun stopped => ?_⟩
  · rcases live with offline | ⟨_, left⟩
    · exact offline
    · exact absurd spent (Nat.ne_of_lt left)
  · rcases live with offline | ⟨running, _⟩
    · exact offline
    · rw [running] at stopped
      cases stopped

theorem Sound.moves (h : Sound config s) {newState : ConnectionState} (first second : Nat)
    (online : s.state ≠ .offline) : Sound config (transitionTo s newState first second).1 :=
  transition_sound h.toBounds first second (Or.inr (h.live online))

theorem restart_bounds (ordered : config.minBackoffMs ≤ config.maxBackoffMs) (h : Bounds config s) :
    Bounds config s.restartBackoff := by
  refine ⟨h.configured, h.index, ?_, Nat.zero_le _⟩
  rw [Machine.restartBackoff, h.configured]
  exact ⟨UInt32.le_refl _, ordered⟩

theorem zero_lt_retryLimit (config : ReconnectConfig) :
    (0 : UInt32).toNat < retryLimit config :=
  Nat.lt_of_lt_of_le Nat.zero_lt_one (Nat.le_max_left _ _)

theorem restart_moves (ordered : config.minBackoffMs ≤ config.maxBackoffMs) (h : Sound config s)
    {newState : ConnectionState} (first second : Nat) (online : s.state ≠ .offline) :
    Sound config (transitionTo s.restartBackoff newState first second).1 :=
  transition_sound (restart_bounds ordered h.toBounds) first second
    (Or.inr ⟨(h.live online).1, zero_lt_retryLimit config⟩)

theorem primaryIdx_lt {servers : List ServerEndpoint} (nonempty : servers ≠ []) :
    primaryIdx servers < servers.length := by
  unfold primaryIdx
  cases found : servers.findIdx? (·.isPrimary) with
  | none => exact List.length_pos_iff.mpr nonempty
  | some i => exact (List.findIdx?_eq_some_iff_getElem.mp found).1

theorem tryNextServer_lt {idx : Nat} (next : tryNextServer s = some idx) :
    idx < s.servers.length := by
  unfold tryNextServer at next
  split at next
  · cases next
  · obtain ⟨i, _, rfl⟩ := List.mem_map.mp (List.mem_of_find?_eq_some next)
    exact Nat.mod_lt _ (by omega)

theorem tryNextServer_none (alone : s.servers.length ≤ 1) : tryNextServer s = none := if_pos alone

theorem tryNextServer_next (others : 1 < s.servers.length)
    (inside : s.currentServerIdx < s.servers.length) :
    tryNextServer s = some ((s.currentServerIdx + 1) % s.servers.length) := by
  have next : (s.currentServerIdx + 1) % s.servers.length ≠ s.currentServerIdx := by
    by_cases last : s.currentServerIdx + 1 = s.servers.length
    · rw [last, Nat.mod_self]
      omega
    · rw [Nat.mod_eq_of_lt (by omega)]
      omega
  obtain ⟨rest, size⟩ := Nat.exists_eq_succ_of_ne_zero (show s.servers.length ≠ 0 by omega)
  rw [tryNextServer, if_neg (by omega)]
  conv_lhs => rw [size, List.range_succ_eq_map, ← size]
  simp only [List.map_cons, Nat.add_zero]
  exact List.find?_cons_of_pos (by simpa using next)

/-- The configurations whose backoff grows and never leaves the 32-bit range. -/
structure Growing (config : ReconnectConfig) : Prop where
  ordered : config.minBackoffMs ≤ config.maxBackoffMs
  grows : 1 ≤ config.backoffMultiplier
  fits : config.maxBackoffMs.toNat * config.backoffMultiplier < 4294967296

theorem scaled_grows (valid : Growing config) {backoff : UInt32}
    (below : backoff ≤ config.maxBackoffMs) :
    ∃ next, scaled backoff config.backoffMultiplier = some next ∧ backoff ≤ next := by
  have factor := valid.grows
  have lower : (backoff.toNat : ℚ) ≤ backoff.toNat * config.backoffMultiplier :=
    le_mul_of_one_le_right (Nat.cast_nonneg _) factor
  have upper : backoff.toNat * config.backoffMultiplier < 4294967296 := by
    have cast : (backoff.toNat : ℚ) ≤ config.maxBackoffMs.toNat :=
      Nat.cast_le.mpr (UInt32.le_iff_toNat_le.mp below)
    calc backoff.toNat * config.backoffMultiplier
        ≤ config.maxBackoffMs.toNat * config.backoffMultiplier :=
          mul_le_mul_of_nonneg_right cast (by linarith)
      _ < 4294967296 := valid.fits
  have nonneg : (0 : ℚ) ≤ backoff.toNat := Nat.cast_nonneg _
  have small : ⌊backoff.toNat * config.backoffMultiplier⌋₊ < 2 ^ 32 :=
    (Nat.floor_lt (by linarith)).mpr (by norm_num; exact upper)
  refine ⟨_, if_pos ⟨by linarith, upper⟩, ?_⟩
  rw [UInt32.le_iff_toNat_le, UInt32.toNat_ofNat_of_lt' small]
  exact Nat.le_floor lower

-- By induction on the iterations left: the backoff stays between the two bounds.
theorem backoffLoop_bounds (valid : Growing config) (left : Nat) {backoff : UInt32}
    (lower : config.minBackoffMs ≤ backoff) (upper : backoff ≤ config.maxBackoffMs) :
    ∃ b, backoffLoop config backoff left = some b ∧
      config.minBackoffMs ≤ b ∧ b ≤ config.maxBackoffMs := by
  induction left generalizing backoff with
  | zero => exact ⟨backoff, rfl, lower, upper⟩
  | succ left ih =>
    obtain ⟨next, product, grown⟩ := scaled_grows valid upper
    simp only [backoffLoop, product, Option.bind_eq_bind, Option.bind_some]
    split
    · exact ⟨_, rfl, valid.ordered, UInt32.le_refl _⟩
    · rename_i capped
      exact ih (UInt32.le_trans lower grown) (UInt32.le_of_lt (UInt32.not_le.mp capped))

theorem computeBackoff_bounds (valid : Growing config) (retryCount : UInt32) :
    ∃ b, computeBackoff config retryCount = some b ∧
      config.minBackoffMs ≤ b ∧ b ≤ config.maxBackoffMs :=
  backoffLoop_bounds valid _ (UInt32.le_refl _) valid.ordered

theorem setServers_sound (h : Sound config s) (servers : List ServerEndpoint) :
    Sound config (setServers s servers) := by
  unfold setServers
  split
  · rename_i none
    exact ⟨⟨h.configured, fun other => absurd none other, h.backoff, h.retries⟩, h.spent, h.stopped⟩
  · exact ⟨⟨h.configured, primaryIdx_lt, h.backoff, h.retries⟩, h.spent, h.stopped⟩

theorem start_sound (ordered : config.minBackoffMs ≤ config.maxBackoffMs) (h : Sound config s)
    (waits : Waits) : Sound config (start s waits).1 := by
  have bounds := restart_bounds ordered h.toBounds
  simp only [start]
  split
  · refine transition_sound ?_ _ _ (Or.inr ⟨rfl, zero_lt_retryLimit config⟩)
    exact ⟨bounds.configured, bounds.index, bounds.backoff, bounds.retries⟩
  · refine transition_sound ?_ _ _ (Or.inl rfl)
    exact ⟨bounds.configured, bounds.index, bounds.backoff, bounds.retries⟩

theorem stop_sound (h : Sound config s) (waits : Waits) : Sound config (stop s waits).1 := by
  refine transition_sound ?_ _ _ (Or.inl rfl)
  exact ⟨h.configured, h.index, h.backoff, h.retries⟩

theorem onHeartbeatSuccess_sound (ordered : config.minBackoffMs ≤ config.maxBackoffMs)
    (h : Sound config s) (waits : Waits) : Sound config (onHeartbeatSuccess s waits).1 := by
  have beat : Sound config (heartbeatNow s waits.first) := h.aside _ _ _ _
  have online : s.state ≠ .offline →
      Sound config
        (transitionTo (heartbeatNow s waits.first).restartBackoff .connected waits.second
          waits.third).1 := fun online => restart_moves ordered beat _ _ online
  simp only [onHeartbeatSuccess]
  split <;> rename_i here
  · exact online (by rw [here]; decide)
  · exact online (by rw [here]; decide)
  · exact online (by rw [here]; decide)
  · exact beat

theorem onHeartbeatTimeout_sound (h : Sound config s) (waits : Waits) :
    Sound config (onHeartbeatTimeout s waits).1 := by
  unfold onHeartbeatTimeout
  split <;> rename_i here
  · exact h.moves _ _ (by rw [here]; decide)
  · exact h.moves _ _ (by rw [here]; decide)
  · exact h

theorem onIoError_sound (h : Sound config s) (waits : Waits) :
    Sound config (onIoError s waits).1 := by
  have failed : Sound config { s with pendingIoCount := s.pendingIoCount + 1 } := h.aside _ _ _ _
  simp only [onIoError]
  split <;> rename_i here
  · exact failed.moves _ _ (by rw [here]; decide)
  · exact failed

theorem retryCount_succ (h : Sound config s) (online : s.state ≠ .offline) :
    (s.retryCount + 1).toNat = s.retryCount.toNat + 1 := by
  have left := (h.live online).2
  have limit := config.maxRetryCount.toNat_lt
  unfold retryLimit at left
  exact succ_of_room (by omega)

theorem tick_defined (index : s.servers ≠ [] → s.currentServerIdx < s.servers.length)
    (computed : s.retryCount + 1 < s.config.maxRetryCount →
      ∃ b, computeBackoff s.config (s.retryCount + 1) = some b) (accepted : Bool) (waits : Waits) :
    ∃ r, tick s accepted waits = some r := by
  unfold tick
  split
  · cases here : s.state <;> simp only
    case reconnecting =>
      split
      · rename_i due
        obtain ⟨server, found⟩ : ∃ server,
            (s.now waits.first).servers[(s.now waits.first).currentServerIdx]? = some server :=
          ⟨_, List.getElem?_eq_getElem (index due.2.2)⟩
        simp only [attempt, found, Option.bind_eq_bind, Option.bind_some]
        split
        · exact ⟨_, rfl⟩
        · split
          · split <;> exact ⟨_, rfl⟩
          · rename_i more
            obtain ⟨b, product⟩ := computed (UInt32.not_le.mp more)
            have same : computeBackoff (s.now waits.first).config
                ((s.now waits.first).retryCount + 1) = some b := product
            simp only [same, Option.bind_some]
            exact ⟨_, rfl⟩
      · exact ⟨_, rfl⟩
    all_goals exact ⟨_, rfl⟩
  · exact ⟨_, rfl⟩

theorem tick_returns (valid : Growing config) (h : Sound config s) (accepted : Bool)
    (waits : Waits) : ∃ r, tick s accepted waits = some r := by
  apply tick_defined h.index
  intro _
  obtain ⟨b, computed, _⟩ := computeBackoff_bounds valid (s.retryCount + 1)
  exact ⟨b, h.configured ▸ computed⟩

theorem attempt_sound (valid : Growing config) (h : Sound config s) {server : ServerEndpoint}
    {accepted : Bool} {first second : Nat} {r : Machine × List Output}
    (trying : s.state = .reconnecting) (done : Attempted s server accepted first second r) :
    Sound config r.1 := by
  have online : s.state ≠ .offline := by rw [trying]; decide
  obtain ⟨running, left⟩ := h.live online
  have succ := retryCount_succ h online
  cases done with
  | connects => exact restart_moves valid.ordered h _ _ online
  | exhausted failed last alone =>
    have bounds : Bounds config { s with retryCount := s.retryCount + 1 } :=
      ⟨h.configured, h.index, h.backoff, by rw [succ]; exact left⟩
    exact transition_sound bounds _ _ (Or.inl rfl)
  | failsOver failed last idx next =>
    have inside := tryNextServer_lt next
    exact ⟨⟨h.configured, fun _ => inside, h.backoff, Nat.zero_le _⟩,
      fun spent => absurd spent (Nat.ne_of_lt (zero_lt_retryLimit config)), h.stopped⟩
  | retries failed more backoff computed =>
    have room : s.retryCount.toNat + 1 < config.maxRetryCount.toNat := by
      rw [← succ, ← h.configured]
      exact UInt32.lt_iff_toNat_lt.mp more
    have below : (s.retryCount + 1).toNat < retryLimit config := by
      rw [succ]
      exact Nat.lt_of_lt_of_le room (Nat.le_max_right _ _)
    obtain ⟨b, same, bounds⟩ := computeBackoff_bounds valid (s.retryCount + 1)
    rw [h.configured, same] at computed
    cases computed
    exact ⟨⟨h.configured, h.index, bounds, Nat.le_of_lt below⟩,
      fun spent => absurd spent (Nat.ne_of_lt below), h.stopped⟩

theorem tick_sound (valid : Growing config) (h : Sound config s) {accepted : Bool} {waits : Waits}
    {r : Machine × List Output} (done : tick s accepted waits = some r) : Sound config r.1 := by
  have seen : Sound config (s.now waits.first) := h.aside _ _ _ _
  cases tick_cases done with
  | asleep => exact h
  | quiet => exact seen
  | expired running newState move =>
    have online : s.state ≠ .offline := by
      intro offline
      rw [offline] at move
      cases move
    exact seen.moves _ _ online
  | reconnects running away =>
    exact restart_moves valid.ordered seen _ _ (by rw [Machine.now, away]; decide)
  | attempts running trying due r' tried =>
    have here : (s.now waits.first).state = .reconnecting := trying
    obtain ⟨server, _, after⟩ := attempt_cases here tried
    exact attempt_sound valid seen here after

theorem react_sound (valid : Growing config) (h : Sound config s) (call : Call) :
    ∃ r, react s call = some r ∧ Sound config r.1 := by
  obtain ⟨event, waits⟩ := call
  cases event with
  | setServers servers => exact ⟨_, rfl, setServers_sound h servers⟩
  | setCallbacks callbacks => exact ⟨_, rfl, h.aside _ _ _ _⟩
  | start => exact ⟨_, rfl, start_sound valid.ordered h waits⟩
  | stop => exact ⟨_, rfl, stop_sound h waits⟩
  | heartbeatSuccess => exact ⟨_, rfl, onHeartbeatSuccess_sound valid.ordered h waits⟩
  | heartbeatTimeout => exact ⟨_, rfl, onHeartbeatTimeout_sound h waits⟩
  | ioSuccess => exact ⟨_, rfl, h.aside _ _ _ _⟩
  | ioError errorCode => exact ⟨_, rfl, onIoError_sound h waits⟩
  | tick accepted =>
    obtain ⟨r, done⟩ := tick_returns valid h accepted waits
    exact ⟨r, done, tick_sound valid h done⟩

theorem newMachine_sound (ordered : config.minBackoffMs ≤ config.maxBackoffMs) (clock : Nat) :
    Sound config (newMachine config clock) :=
  ⟨⟨rfl, fun other => absurd rfl other, ⟨UInt32.le_refl _, ordered⟩, Nat.zero_le _⟩,
    fun _ => rfl, fun _ => rfl⟩

/-- Every sequence of calls returns and ends in a state that meets the invariant. -/
theorem machine_invariant (config : ReconnectConfig)
    (ordered : config.minBackoffMs ≤ config.maxBackoffMs) (grows : 1 ≤ config.backoffMultiplier)
    (fits : config.maxBackoffMs.toNat * config.backoffMultiplier < 4294967296)
    (clock : Nat) (calls : List Call) :
    ∃ s, run machineStep (some (newMachine config clock)) calls = some s ∧ Sound config s := by
  have valid : Growing config := ⟨ordered, grows, fits⟩
  refine defined_run calls (newMachine_sound ordered clock) fun s call h => ?_
  obtain ⟨r, done, sound⟩ := react_sound valid h call
  exact ⟨r.1, by simp [machineStep, done], sound⟩

def lostServer : List Call :=
  [atOnce (.setServers [⟨[104], 9090, true⟩, ⟨[105], 9090, false⟩]),
    atOnce (.setCallbacks ⟨true, true, true⟩), ⟨.start, ⟨1, 1, 1⟩⟩, atOnce .heartbeatTimeout,
    atOnce .heartbeatTimeout, atOnce (.tick false), ⟨.tick false, ⟨2000000000, 0, 0⟩⟩,
    ⟨.tick false, ⟨9000000000, 0, 0⟩⟩]

theorem lost_server_invariant :
    ∃ s, run machineStep (some (newMachine {} 0)) lostServer = some s ∧ Sound {} s ∧
      s.state = .reconnecting ∧ s.retryCount = 2 := by
  obtain ⟨s, ended, sound⟩ :=
    machine_invariant {} (by decide) (by norm_num) (by decide +kernel) 0 lostServer
  have shown : (run machineStep (some (newMachine {} 0)) lostServer).map
      (fun s => (s.state, s.retryCount)) = some (.reconnecting, 2) := by decide +kernel
  rw [ended, Option.map_some, Option.some_inj, Prod.mk.injEq] at shown
  exact ⟨s, ended, sound, shown⟩

end MachineInvariant
