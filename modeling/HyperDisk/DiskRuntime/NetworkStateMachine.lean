import Mathlib.Data.Rat.Floor
import HyperDisk.Foundations.LittleEndian

/- NetworkStateMachine of the disk runtime: the six connection states, the handlers that move
   between them, and the reconnect attempts of Tick. Every handler runs under the mutex, so a
   run of the machine is a sequence of calls. Times are readings of steady_clock in
   nanoseconds; the multiplier is an exact rational. -/
namespace NetworkStateMachine
open LittleEndian

inductive ConnectionState where
  | connected
  | detecting
  | disconnected
  | reconnecting
  | recovering
  | offline
  deriving DecidableEq, Repr

structure ReconnectConfig where
  detectTimeoutMs : UInt32 := 5000
  minBackoffMs : UInt32 := 1000
  maxBackoffMs : UInt32 := 30000
  backoffMultiplier : ℚ := 2
  maxRetryCount : UInt32 := 10
  recoveryTimeoutMs : UInt32 := 30000

structure ServerEndpoint where
  host : Bytes
  port : UInt16
  isPrimary : Bool
  deriving DecidableEq, Repr

structure Callbacks where
  onStateChange : Bool
  onConnectAttempt : Bool
  onRecoveryComplete : Bool
  deriving DecidableEq, Repr

/-- The fields of the class, and the last reading taken from the clock. -/
structure Machine where
  config : ReconnectConfig
  servers : List ServerEndpoint
  currentServerIdx : Nat
  state : ConnectionState
  retryCount : UInt32
  currentBackoffMs : UInt32
  lastHeartbeat : Nat
  stateEnterTime : Nat
  lastReconnectAttempt : Nat
  pendingIoCount : UInt32
  callbacks : Callbacks
  running : Bool
  clock : Nat

inductive Output where
  | stateChange (old new : ConnectionState)
  | connectAttempt (server : ServerEndpoint) (time : Nat)
  | recoveryComplete
  deriving DecidableEq, Repr

/-- How far the clock moves before each reading that a call takes. -/
structure Waits where
  first : Nat
  second : Nat
  third : Nat

def newMachine (config : ReconnectConfig) (clock : Nat) : Machine :=
  ⟨config, [], 0, .offline, 0, config.minBackoffMs, 0, 0, 0, 0, ⟨false, false, false⟩, false, clock⟩

def Machine.now (s : Machine) (wait : Nat) : Machine := { s with clock := s.clock + wait }

def Machine.elapsed (s : Machine) (since : Nat) : Nat := (s.clock - since) / 1000000

def Machine.restartBackoff (s : Machine) : Machine :=
  { s with retryCount := 0, currentBackoffMs := s.config.minBackoffMs }

def primaryIdx (servers : List ServerEndpoint) : Nat :=
  (servers.findIdx? (·.isPrimary)).getD 0

-- The index stays as it is when the new list is empty.
def setServers (s : Machine) (servers : List ServerEndpoint) : Machine :=
  if servers = [] then { s with servers := servers }
  else { s with servers := servers, currentServerIdx := primaryIdx servers }

def setCallbacks (s : Machine) (callbacks : Callbacks) : Machine :=
  { s with callbacks := callbacks }

def announce (s : Machine) (newState : ConnectionState) : List Output :=
  if s.callbacks.onStateChange then [.stateChange s.state newState] else []

def transitionTo (s : Machine) (newState : ConnectionState) (first second : Nat) :
    Machine × List Output :=
  if s.state = newState then (s, [])
  else if newState = .reconnecting then
    ({ s with
        state := newState
        stateEnterTime := s.clock + first
        lastReconnectAttempt := s.clock + first + second
        clock := s.clock + first + second }, announce s newState)
  else
    ({ s with
        state := newState
        stateEnterTime := s.clock + first
        clock := s.clock + first }, announce s newState)

def start (s : Machine) (waits : Waits) : Machine × List Output :=
  let ready : Machine :=
    { s.restartBackoff with
      running := true
      stateEnterTime := s.clock + waits.first
      lastHeartbeat := s.clock + waits.first + waits.second
      clock := s.clock + waits.first + waits.second }
  if s.servers ≠ [] then transitionTo ready .connected waits.third 0
  else transitionTo ready .offline waits.third 0

def stop (s : Machine) (waits : Waits) : Machine × List Output :=
  transitionTo { s with running := false } .offline waits.first waits.second

def heartbeatNow (s : Machine) (wait : Nat) : Machine :=
  { s with lastHeartbeat := s.clock + wait, clock := s.clock + wait }

def onHeartbeatSuccess (s : Machine) (waits : Waits) : Machine × List Output :=
  let beat := heartbeatNow s waits.first
  match s.state with
  | .detecting | .reconnecting =>
    transitionTo beat.restartBackoff .connected waits.second waits.third
  | .recovering =>
    let back := transitionTo beat.restartBackoff .connected waits.second waits.third
    (back.1, back.2 ++ if s.callbacks.onRecoveryComplete then [.recoveryComplete] else [])
  | _ => (beat, [])

def onHeartbeatTimeout (s : Machine) (waits : Waits) : Machine × List Output :=
  match s.state with
  | .connected => transitionTo s .detecting waits.first waits.second
  | .detecting => transitionTo s .disconnected waits.first waits.second
  | _ => (s, [])

def onIoSuccess (s : Machine) (waits : Waits) : Machine × List Output :=
  (heartbeatNow
    { s with
      pendingIoCount :=
        if 0 < s.pendingIoCount then s.pendingIoCount - 1 else s.pendingIoCount }
    waits.first, [])

def onIoError (s : Machine) (waits : Waits) : Machine × List Output :=
  let failed := { s with pendingIoCount := s.pendingIoCount + 1 }
  match s.state with
  | .connected => transitionTo failed .detecting waits.first waits.second
  | _ => (failed, [])

def tryReconnect (s : Machine) (first second : Nat) : Machine × List Output :=
  transitionTo s.restartBackoff .reconnecting first second

def tryNextServer (s : Machine) : Option Nat :=
  if s.servers.length ≤ 1 then none
  else
    ((List.range s.servers.length).map fun i =>
      (s.currentServerIdx + 1 + i) % s.servers.length).find? (· ≠ s.currentServerIdx)

/-- static_cast<uint32_t> of the product, undefined when the truncated value is out of range. -/
def scaled (backoff : UInt32) (multiplier : ℚ) : Option UInt32 :=
  if -1 < backoff.toNat * multiplier ∧ backoff.toNat * multiplier < 4294967296 then
    some (UInt32.ofNat ⌊backoff.toNat * multiplier⌋₊)
  else none

def backoffLoop (config : ReconnectConfig) (backoff : UInt32) : Nat → Option UInt32
  | 0 => some backoff
  | left + 1 => do
    let next ← scaled backoff config.backoffMultiplier
    if config.maxBackoffMs ≤ next then return config.maxBackoffMs
    backoffLoop config next left

def computeBackoff (config : ReconnectConfig) (retryCount : UInt32) : Option UInt32 :=
  backoffLoop config config.minBackoffMs retryCount.toNat

def attempt (s : Machine) (accepted : Bool) (first second : Nat) :
    Option (Machine × List Output) := do
  let server ← s.servers[s.currentServerIdx]?
  let invoked := Output.connectAttempt server s.clock
  if accepted then
    let next := transitionTo s.restartBackoff .recovering first second
    return (next.1, invoked :: next.2)
  let failed := { s with retryCount := s.retryCount + 1 }
  if s.config.maxRetryCount ≤ failed.retryCount then
    match tryNextServer failed with
    | none =>
      let next := transitionTo failed .offline first second
      return (next.1, invoked :: next.2)
    | some idx =>
      let next := transitionTo { failed with currentServerIdx := idx, retryCount := 0 }
        .reconnecting first second
      return (next.1, invoked :: next.2)
  else
    let backoff ← computeBackoff s.config failed.retryCount
    return ({ failed with currentBackoffMs := backoff, lastReconnectAttempt := s.clock }, [invoked])

/-- Tick makes an attempt in Reconnecting when the backoff is over. -/
def Machine.due (s : Machine) : Prop :=
  s.currentBackoffMs.toNat ≤ s.elapsed s.lastReconnectAttempt ∧
    s.callbacks.onConnectAttempt = true ∧ s.servers ≠ []

instance (s : Machine) : Decidable s.due :=
  inferInstanceAs (Decidable (_ ∧ _ ∧ _))

def leaveWhen (expired : Prop) [Decidable expired] (s : Machine) (newState : ConnectionState)
    (waits : Waits) : Machine × List Output :=
  if expired then transitionTo s newState waits.second waits.third else (s, [])

def tick (s : Machine) (accepted : Bool) (waits : Waits) : Option (Machine × List Output) :=
  if s.running then
    let seen := s.now waits.first
    match s.state with
    | .connected =>
      some (leaveWhen (s.config.detectTimeoutMs.toNat < seen.elapsed s.lastHeartbeat) seen
        .detecting waits)
    | .detecting =>
      some (leaveWhen (s.config.detectTimeoutMs.toNat < seen.elapsed s.stateEnterTime) seen
        .disconnected waits)
    | .disconnected => some (tryReconnect seen waits.second waits.third)
    | .reconnecting =>
      if seen.due then attempt seen accepted waits.second waits.third else some (seen, [])
    | .recovering =>
      some (leaveWhen (s.config.recoveryTimeoutMs.toNat < seen.elapsed s.stateEnterTime) seen
        .disconnected waits)
    | .offline => some (seen, [])
  else some (s, [])

inductive Event where
  | setServers (servers : List ServerEndpoint)
  | setCallbacks (callbacks : Callbacks)
  | start
  | stop
  | heartbeatSuccess
  | heartbeatTimeout
  | ioSuccess
  | ioError (errorCode : Int32)
  | tick (accepted : Bool)
  deriving DecidableEq

structure Call where
  event : Event
  waits : Waits

def atOnce (event : Event) : Call := ⟨event, ⟨0, 0, 0⟩⟩

/-- One call: the machine after it and the callbacks it invoked, or undefined behaviour. -/
def react (s : Machine) (call : Call) : Option (Machine × List Output) :=
  match call.event with
  | .setServers servers => some (setServers s servers, [])
  | .setCallbacks callbacks => some (setCallbacks s callbacks, [])
  | .start => some (start s call.waits)
  | .stop => some (stop s call.waits)
  | .heartbeatSuccess => some (onHeartbeatSuccess s call.waits)
  | .heartbeatTimeout => some (onHeartbeatTimeout s call.waits)
  | .ioSuccess => some (onIoSuccess s call.waits)
  | .ioError _ => some (onIoError s call.waits)
  | .tick accepted => tick s accepted call.waits

def machineStep (o : Option Machine) (call : Call) : Option Machine :=
  o.bind fun s => (react s call).map Prod.fst

section Transition
variable (s : Machine) (newState : ConnectionState) (first second : Nat)

theorem transitionTo_eq : ∃ entered lastAttempt clock,
    s.clock ≤ clock ∧ (newState ≠ .reconnecting → lastAttempt = s.lastReconnectAttempt) ∧
      (transitionTo s newState first second).1 =
        { s with
          state := newState
          stateEnterTime := entered
          lastReconnectAttempt := lastAttempt
          clock := clock } := by
  unfold transitionTo
  split
  · rename_i same
    subst same
    exact ⟨_, _, _, Nat.le_refl _, fun _ => rfl, rfl⟩
  · split
    · rename_i entering
      exact ⟨_, _, _, by omega, fun other => absurd entering other, rfl⟩
    · exact ⟨_, _, _, by omega, fun _ => rfl, rfl⟩

@[simp] theorem transitionTo_state : (transitionTo s newState first second).1.state = newState := by
  obtain ⟨_, _, _, _, _, same⟩ := transitionTo_eq s newState first second
  rw [same]

theorem transitionTo_same {s : Machine} (first second : Nat) {here : ConnectionState}
    (same : s.state = here) : transitionTo s here first second = (s, []) := if_pos same

theorem tryReconnect_fields {s : Machine} (first second : Nat) (other : s.state ≠ .reconnecting) :
    (tryReconnect s first second).1.stateEnterTime = s.clock + first ∧
      (tryReconnect s first second).1.lastReconnectAttempt = s.clock + first + second ∧
      (tryReconnect s first second).1.clock = s.clock + first + second ∧
      (tryReconnect s first second).1.retryCount = 0 ∧
      (tryReconnect s first second).1.currentBackoffMs = s.config.minBackoffMs := by
  have outside : ¬ s.restartBackoff.state = .reconnecting := other
  rw [tryReconnect, transitionTo, if_neg outside, if_pos rfl]
  exact ⟨rfl, rfl, rfl, rfl, rfl⟩

theorem transitionTo_silent {o : Output} (invoked : o ∈ (transitionTo s newState first second).2) :
    ∃ old, o = .stateChange old newState := by
  have announced : ∀ o ∈ announce s newState, ∃ old, o = .stateChange old newState := by
    intro o member
    unfold announce at member
    split at member
    · exact ⟨_, List.mem_singleton.mp member⟩
    · cases member
  unfold transitionTo at invoked
  split at invoked
  · cases invoked
  · split at invoked
    · exact announced o invoked
    · exact announced o invoked

end Transition

inductive Expires : ConnectionState → ConnectionState → Prop where
  | silent : Expires .connected .detecting
  | lost : Expires .detecting .disconnected
  | unrecovered : Expires .recovering .disconnected

inductive Ticked (s : Machine) (accepted : Bool) (waits : Waits) :
    Machine × List Output → Prop where
  | asleep (stopped : s.running = false) : Ticked s accepted waits (s, [])
  | quiet (running : s.running = true) : Ticked s accepted waits (s.now waits.first, [])
  | expired (running : s.running = true) (newState : ConnectionState)
      (move : Expires s.state newState) :
      Ticked s accepted waits (transitionTo (s.now waits.first) newState waits.second waits.third)
  | reconnects (running : s.running = true) (away : s.state = .disconnected) :
      Ticked s accepted waits (tryReconnect (s.now waits.first) waits.second waits.third)
  | attempts (running : s.running = true) (trying : s.state = .reconnecting)
      (due : (s.now waits.first).due) (r : Machine × List Output)
      (done : attempt (s.now waits.first) accepted waits.second waits.third = some r) :
      Ticked s accepted waits r

theorem leaveWhen_ticked {s : Machine} {expired : Prop} [Decidable expired] (accepted : Bool)
    (waits : Waits) {newState : ConnectionState} (running : s.running = true)
    (move : Expires s.state newState) :
    Ticked s accepted waits (leaveWhen expired (s.now waits.first) newState waits) := by
  unfold leaveWhen
  split
  · exact .expired running newState move
  · exact .quiet running

theorem tick_cases {s : Machine} {accepted : Bool} {waits : Waits} {r : Machine × List Output}
    (done : tick s accepted waits = some r) : Ticked s accepted waits r := by
  simp only [tick] at done
  split at done
  · rename_i running
    split at done <;> rename_i here
    · cases done
      exact leaveWhen_ticked accepted waits running (here ▸ .silent)
    · cases done
      exact leaveWhen_ticked accepted waits running (here ▸ .lost)
    · cases done
      exact .reconnects running here
    · split at done
      · exact .attempts running here ‹_› r done
      · cases done
        exact .quiet running
    · cases done
      exact leaveWhen_ticked accepted waits running (here ▸ .unrecovered)
    · cases done
      exact .quiet running
  · rename_i stopped
    cases done
    exact .asleep (by simpa using stopped)

inductive Attempted (s : Machine) (server : ServerEndpoint) (accepted : Bool) (first second : Nat) :
    Machine × List Output → Prop where
  | connects (ok : accepted = true) :
      Attempted s server accepted first second
        ((transitionTo s.restartBackoff .recovering first second).1,
          .connectAttempt server s.clock ::
            (transitionTo s.restartBackoff .recovering first second).2)
  | exhausted (failed : accepted = false) (last : s.config.maxRetryCount ≤ s.retryCount + 1)
      (alone : tryNextServer s = none) :
      Attempted s server accepted first second
        ((transitionTo { s with retryCount := s.retryCount + 1 } .offline first second).1,
          .connectAttempt server s.clock ::
            (transitionTo { s with retryCount := s.retryCount + 1 } .offline first second).2)
  | failsOver (failed : accepted = false) (last : s.config.maxRetryCount ≤ s.retryCount + 1)
      (idx : Nat) (next : tryNextServer s = some idx) :
      Attempted s server accepted first second
        ({ s with currentServerIdx := idx, retryCount := 0 }, [.connectAttempt server s.clock])
  | retries (failed : accepted = false) (more : s.retryCount + 1 < s.config.maxRetryCount)
      (backoff : UInt32) (computed : computeBackoff s.config (s.retryCount + 1) = some backoff) :
      Attempted s server accepted first second
        ({ s with
            retryCount := s.retryCount + 1
            currentBackoffMs := backoff
            lastReconnectAttempt := s.clock }, [.connectAttempt server s.clock])

-- The transition of the failover does nothing: the machine is in Reconnecting already.
theorem attempt_cases {s : Machine} {accepted : Bool} {first second : Nat}
    {r : Machine × List Output} (trying : s.state = .reconnecting)
    (done : attempt s accepted first second = some r) :
    ∃ server, s.servers[s.currentServerIdx]? = some server ∧
      Attempted s server accepted first second r := by
  unfold attempt at done
  cases found : s.servers[s.currentServerIdx]? with
  | none => simp [found] at done
  | some server =>
    refine ⟨server, rfl, ?_⟩
    simp only [found, Option.bind_eq_bind, Option.bind_some] at done
    split at done
    · cases done
      exact .connects ‹_›
    · rename_i refused
      have failed : accepted = false := by simpa using refused
      split at done
      · rename_i last
        have same : tryNextServer { s with retryCount := s.retryCount + 1 } = tryNextServer s := rfl
        rw [same] at done
        cases other : tryNextServer s with
        | none =>
          simp only [other] at done
          cases done
          exact .exhausted failed last other
        | some idx =>
          simp only [other] at done
          cases done
          have stays : transitionTo { s with currentServerIdx := idx, retryCount := 0 }
              .reconnecting first second = (_, []) := transitionTo_same _ _ trying
          rw [stays]
          exact .failsOver failed last idx other
      · rename_i more
        cases computed : computeBackoff s.config (s.retryCount + 1) with
        | none => simp [computed] at done
        | some backoff =>
          simp only [computed, Option.bind_some] at done
          cases done
          exact .retries failed (UInt32.not_le.mp more) backoff computed

end NetworkStateMachine
