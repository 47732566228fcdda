import Mathlib.Data.List.Induction
import HyperDisk.DiskRuntime.NetworkStateMachine
import HyperDisk.Foundations.StepRuns

/- The way from Disconnected back to Connected. The documented diagram leads through
   Recovering, where the blocks written while offline are synchronised; a heartbeat that
   arrives during the attempts takes a shortcut past it. -/
namespace Reconnection
open NetworkStateMachine StepRuns

inductive Move (event : Event) : ConnectionState → ConnectionState → Prop where
  | stay (state : ConnectionState) : Move event state state
  | silent : Move event .connected .detecting
  | heard (beat : event = .heartbeatSuccess) : Move event .detecting .connected
  | lost : Move event .detecting .disconnected
  | tries : Move event .disconnected .reconnecting
  | accepted : Move event .reconnecting .recovering
  | exhausted : Move event .reconnecting .offline
  | shortcut (beat : event = .heartbeatSuccess) : Move event .reconnecting .connected
  | unrecovered : Move event .recovering .disconnected
  | recovered (beat : event = .heartbeatSuccess) : Move event .recovering .connected

variable {s : Machine} {call : Call} {r : Machine × List Output}

theorem move_of_expires {old new : ConnectionState} (event : Event) (move : Expires old new) :
    Move event old new := by
  cases move with
  | silent => exact .silent
  | lost => exact .lost
  | unrecovered => exact .unrecovered

theorem attempted_move {server : ServerEndpoint} {accepted : Bool} {first second : Nat}
    (event : Event) (trying : s.state = .reconnecting)
    (done : Attempted s server accepted first second r) : Move event s.state r.1.state := by
  rw [trying]
  cases done with
  | connects =>
    rw [transitionTo_state]
    exact .accepted
  | exhausted =>
    rw [transitionTo_state]
    exact .exhausted
  | failsOver => exact trying ▸ .stay _
  | retries => exact trying ▸ .stay _

theorem tick_move {accepted : Bool} {waits : Waits} (event : Event)
    (done : tick s accepted waits = some r) : Move event s.state r.1.state := by
  cases tick_cases done with
  | asleep => exact .stay _
  | quiet => exact .stay _
  | expired running newState move =>
    rw [transitionTo_state]
    exact move_of_expires event move
  | reconnects running away =>
    rw [tryReconnect, transitionTo_state, away]
    exact .tries
  | attempts running trying due r' tried =>
    have here : (s.now waits.first).state = .reconnecting := trying
    obtain ⟨server, _, after⟩ := attempt_cases here tried
    have moved := attempted_move event here after
    exact moved

theorem onHeartbeatSuccess_move (waits : Waits) :
    Move .heartbeatSuccess s.state (onHeartbeatSuccess s waits).1.state := by
  simp only [onHeartbeatSuccess]
  split <;> rename_i here
  · rw [transitionTo_state, here]
    exact .heard rfl
  · rw [transitionTo_state, here]
    exact .shortcut rfl
  · rw [transitionTo_state, here]
    exact .recovered rfl
  · exact .stay _

theorem onHeartbeatTimeout_move (event : Event) (waits : Waits) :
    Move event s.state (onHeartbeatTimeout s waits).1.state := by
  unfold onHeartbeatTimeout
  split <;> rename_i here
  · rw [transitionTo_state, here]
    exact .silent
  · rw [transitionTo_state, here]
    exact .lost
  · exact .stay _

theorem onIoError_move (event : Event) (waits : Waits) :
    Move event s.state (onIoError s waits).1.state := by
  simp only [onIoError]
  split <;> rename_i here
  · rw [transitionTo_state, here]
    exact .silent
  · exact .stay _

def Handled (call : Call) : Prop := call.event ≠ .start ∧ call.event ≠ .stop

theorem react_move (handled : Handled call) (done : react s call = some r) :
    Move call.event s.state r.1.state := by
  obtain ⟨event, waits⟩ := call
  cases event with
  | setServers servers =>
    cases done
    unfold setServers
    split <;> exact .stay _
  | setCallbacks callbacks =>
    cases done
    exact .stay _
  | start => exact absurd rfl handled.1
  | stop => exact absurd rfl handled.2
  | heartbeatSuccess =>
    cases done
    exact onHeartbeatSuccess_move waits
  | heartbeatTimeout =>
    cases done
    exact onHeartbeatTimeout_move _ waits
  | ioSuccess =>
    cases done
    exact .stay _
  | ioError errorCode =>
    cases done
    exact onIoError_move _ waits
  | tick accepted => exact tick_move _ done

theorem handled_of_down (done : react s call = some r) (down : r.1.state ≠ .connected)
    (online : r.1.state ≠ .offline) : Handled call := by
  obtain ⟨event, waits⟩ := call
  constructor
  · rintro rfl
    cases done
    simp only [start] at down online
    split at down
    · exact down (transitionTo_state _ _ _ _)
    · rename_i empty
      rw [if_neg empty] at online
      exact online (transitionTo_state _ _ _ _)
  · rintro rfl
    cases done
    exact online (transitionTo_state _ _ _ _)

theorem recoveryComplete_iff (waits : Waits) :
    .recoveryComplete ∈ (onHeartbeatSuccess s waits).2 ↔
      s.state = .recovering ∧ s.callbacks.onRecoveryComplete = true := by
  have silent : ∀ t : Machine,
      .recoveryComplete ∉ (transitionTo t .connected waits.second waits.third).2 := by
    intro t invoked
    obtain ⟨old, same⟩ := transitionTo_silent _ _ _ _ invoked
    cases same
  simp only [onHeartbeatSuccess]
  split <;> rename_i here
  · simp [here, silent]
  · simp [here, silent]
  · simp [here, silent]
  · exact ⟨fun invoked => (by cases invoked), fun both => absurd both.1 here⟩

def outputs (o : Option Machine) (call : Call) : List Output :=
  ((o.bind fun s => react s call).map Prod.snd).getD []

def stateOf (o : Option Machine) : Option ConnectionState := o.map Machine.state

def Enters (o : Option Machine) (call : Call) (state : ConnectionState) : Prop :=
  stateOf o ≠ some state ∧ stateOf (machineStep o call) = some state

/-- `lost` enters Disconnected, and up to the end of `between` there is neither a Start nor a
    Stop nor a return to Connected. -/
structure Down (start : Option Machine) (before : List Call) (lost : Call) (between : List Call) :
    Prop where
  enters : Enters (run machineStep start before) lost .disconnected
  handled : ∀ call ∈ between, Handled call
  away : ∀ passed, passed <+: between →
    stateOf (run machineStep start (before ++ lost :: passed)) ≠ some .connected

/-- The next return to Connected after `lost` is `back`. -/
structure Outage (start : Option Machine) (before : List Call) (lost : Call) (between : List Call)
    (back : Call) : Prop extends Down start before lost between where
  last : Handled back
  returns : Enters (run machineStep start (before ++ lost :: between)) back .connected

def Recovered (start : Option Machine) (before : List Call) (lost : Call) (between : List Call)
    (back : Call) : Prop :=
  (∃ passed, passed <+: between ∧
    stateOf (run machineStep start (before ++ lost :: passed)) = some .recovering) ∧
  .recoveryComplete ∈ outputs (run machineStep start (before ++ lost :: between)) back

def Orderly (o : Option Machine) (call : Call) : Prop :=
  call.event = .heartbeatSuccess → ∀ s, o = some s →
    s.state ≠ .reconnecting ∧ (s.state = .recovering → s.callbacks.onRecoveryComplete = true)

variable {start : Option Machine} {before between : List Call} {lost back : Call}

theorem machineStep_some {o : Option Machine} {t : Machine} (done : machineStep o call = some t) :
    ∃ s r, o = some s ∧ react s call = some r ∧ r.1 = t := by
  cases o with
  | none => cases done
  | some s =>
    obtain ⟨r, reacted, same⟩ := Option.map_eq_some_iff.mp done
    exact ⟨s, r, rfl, reacted, same⟩

theorem run_snoc (calls : List Call) (call : Call) :
    run machineStep start (calls ++ [call]) = machineStep (run machineStep start calls) call := by
  rw [run_append]
  rfl

theorem Down.shorter {call : Call} (h : Down start before lost (between ++ [call])) :
    Down start before lost between := by
  refine ⟨h.enters, fun c member => h.handled c (List.mem_append_left _ member), ?_⟩
  intro passed inside
  exact h.away passed (inside.trans (List.prefix_append _ _))

theorem Down.longer (h : Down start before lost between)
    (reached : run machineStep start (before ++ lost :: between) = some s)
    (done : react s call = some r) (handled : Handled call) (down : r.1.state ≠ .connected) :
    Down start before lost (between ++ [call]) := by
  refine ⟨h.enters, fun c member => ?_, fun passed inside => ?_⟩
  · rcases List.mem_append.mp member with old | new
    · exact h.handled c old
    · rw [List.mem_singleton.mp new]
      exact handled
  · rcases List.prefix_concat_iff.mp inside with rfl | old
    · rw [← List.cons_append, ← List.append_assoc, run_snoc, reached]
      simpa [machineStep, done, stateOf] using down
    · exact h.away passed old

theorem down_fresh (here : run machineStep start before = some s) (done : react s call = some r)
    (other : s.state ≠ .disconnected) (entered : r.1.state = .disconnected) :
    Down start before call [] := by
  have enters : Enters (run machineStep start before) call .disconnected := by
    rw [here]
    exact ⟨by simpa [stateOf] using other, by simp [machineStep, done, stateOf, entered]⟩
  refine ⟨enters, fun c member => (by cases member), fun passed inside => ?_⟩
  rw [List.prefix_nil.mp inside, run_snoc, enters.2]
  decide

-- By induction on the calls since the connection was lost: Detecting is only entered from
-- Connected.
theorem Down.not_detecting (h : Down start before lost between) :
    stateOf (run machineStep start (before ++ lost :: between)) ≠ some .detecting := by
  induction between using List.reverseRecOn with
  | nil =>
    rw [run_snoc, h.enters.2]
    decide
  | append_singleton between call ih =>
    have old := ih h.shorter
    have away := h.away between (List.prefix_append _ _)
    rw [← List.cons_append, ← List.append_assoc, run_snoc]
    intro detecting
    obtain ⟨t, after, same⟩ := Option.map_eq_some_iff.mp detecting
    obtain ⟨s, r, here, done, rfl⟩ := machineStep_some after
    rw [here] at old away
    have move := react_move (h.handled call (by simp)) done
    rw [same] at move
    generalize from_state : s.state = q at move
    cases move with
    | stay => exact old (congrArg some from_state)
    | silent => exact away (congrArg some from_state)

def Seeking (state : ConnectionState) : Prop :=
  state = .disconnected ∨ state = .reconnecting ∨ state = .recovering

-- By induction on the calls: a machine that seeks entered Disconnected some calls ago.
theorem down_of_seeking {config : ReconnectConfig} {clock : Nat} (calls : List Call)
    (reached : run machineStep (some (newMachine config clock)) calls = some s)
    (seeking : Seeking s.state) :
    ∃ before lost between, calls = before ++ lost :: between ∧
      Down (some (newMachine config clock)) before lost between := by
  induction calls using List.reverseRecOn generalizing s with
  | nil =>
    cases reached
    rcases seeking with h | h | h <;> cases h
  | append_singleton calls call ih =>
    rw [run_snoc] at reached
    obtain ⟨t, r, here, done, rfl⟩ := machineStep_some reached
    have online : r.1.state ≠ .connected ∧ r.1.state ≠ .offline := by
      rcases seeking with h | h | h <;> rw [h] <;> decide
    have handled := handled_of_down done online.1 online.2
    -- Either the machine was seeking before this call, or the call enters Disconnected.
    have extend : Seeking t.state → ∃ before lost between, calls ++ [call] =
        before ++ lost :: between ∧
        Down (some (newMachine config clock)) before lost between := by
      intro before
      obtain ⟨earlier, lost, between, rfl, down⟩ := ih here before
      exact ⟨earlier, lost, between ++ [call], by simp, down.longer here done handled online.1⟩
    have move := react_move handled done
    generalize from_state : t.state = old at move
    generalize to_state : r.1.state = new at move
    cases move with
    | stay => exact extend (from_state ▸ to_state ▸ seeking)
    | silent => rcases seeking with h | h | h <;> rw [to_state] at h <;> cases h
    | heard => exact absurd to_state online.1
    | lost =>
      exact ⟨calls, call, [], rfl, down_fresh here done (by rw [from_state]; decide) to_state⟩
    | tries => exact extend (Or.inl from_state)
    | accepted => exact extend (Or.inr (Or.inl from_state))
    | exhausted => exact absurd to_state online.2
    | shortcut => exact absurd to_state online.1
    | unrecovered =>
      exact ⟨calls, call, [], rfl, down_fresh here done (by rw [from_state]; decide) to_state⟩
    | recovered => exact absurd to_state online.1

theorem Outage.heartbeat (h : Outage start before lost between back) :
    back.event = .heartbeatSuccess ∧ ∃ s,
      run machineStep start (before ++ lost :: between) = some s ∧
        (s.state = .reconnecting ∨ s.state = .recovering) := by
  have still := h.not_detecting
  obtain ⟨other, entered⟩ := h.returns
  obtain ⟨t, after, connected⟩ := Option.map_eq_some_iff.mp entered
  obtain ⟨s, r, here, done, rfl⟩ := machineStep_some after
  rw [here] at still other
  have move := react_move h.last done
  rw [connected] at move
  generalize from_state : s.state = old at move
  cases move with
  | stay => exact absurd (congrArg some from_state) other
  | heard beat => exact absurd (congrArg some from_state) still
  | shortcut beat => exact ⟨beat, s, here, Or.inl from_state⟩
  | recovered beat => exact ⟨beat, s, here, Or.inr from_state⟩

theorem outputs_heartbeat {o : Option Machine} (here : o = some s)
    (beat : call.event = .heartbeatSuccess) :
    outputs o call = (onHeartbeatSuccess s call.waits).2 := by
  obtain ⟨event, waits⟩ := call
  cases here
  cases beat
  rfl

theorem recovered_of_orderly (h : Outage start before lost between back)
    (orderly : Orderly (run machineStep start (before ++ lost :: between)) back) :
    Recovered start before lost between back := by
  obtain ⟨beat, s, here, states⟩ := h.heartbeat
  obtain ⟨untried, callback⟩ := orderly beat s here
  have recovering := states.resolve_left untried
  refine ⟨⟨between, List.prefix_rfl, by rw [here]; exact congrArg some recovering⟩, ?_⟩
  rw [outputs_heartbeat here beat, recoveryComplete_iff]
  exact ⟨recovering, callback recovering⟩

theorem outage_of_heartbeat (down : Down start before lost between)
    (here : run machineStep start (before ++ lost :: between) = some s)
    (beat : back.event = .heartbeatSuccess)
    (states : s.state = .reconnecting ∨ s.state = .recovering) :
    Outage start before lost between back := by
  obtain ⟨event, waits⟩ := back
  cases beat
  refine ⟨down, ⟨nofun, nofun⟩, ?_⟩
  rw [here]
  rcases states with trying | recovering
  · exact ⟨by simp [stateOf, trying],
      by simp [stateOf, machineStep, react, onHeartbeatSuccess, trying]⟩
  · exact ⟨by simp [stateOf, recovering],
      by simp [stateOf, machineStep, react, onHeartbeatSuccess, recovering]⟩

/-- Every return to Connected goes through Recovering and completes the recovery, exactly in the
    runs in which no heartbeat succeeds in Reconnecting and the callback is set when one
    succeeds in Recovering. -/
theorem returns_recovered_iff (config : ReconnectConfig) (clock : Nat) (calls : List Call) :
    (∀ before lost between back after, calls = before ++ lost :: between ++ back :: after →
      Outage (some (newMachine config clock)) before lost between back →
        Recovered (some (newMachine config clock)) before lost between back) ↔
      Meets machineStep Orderly (some (newMachine config clock)) calls := by
  rw [meets_iff_splits]
  constructor
  · intro every calls' call after split beat s here
    have ends : ∀ states : s.state = .reconnecting ∨ s.state = .recovering,
        s.state = .recovering ∧ s.callbacks.onRecoveryComplete = true := by
      intro states
      have seeking : Seeking s.state := Or.inr states
      obtain ⟨before, lost, between, rfl, down⟩ := down_of_seeking calls' here seeking
      obtain ⟨_, completed⟩ := every before lost between call after split
        (outage_of_heartbeat down here beat states)
      rwa [outputs_heartbeat here beat, recoveryComplete_iff] at completed
    constructor
    · intro trying
      have recovering := (ends (Or.inl trying)).1
      rw [trying] at recovering
      cases recovering
    · intro recovering
      exact (ends (Or.inr recovering)).2
  · intro every before lost between back after split outage
    exact recovered_of_orderly outage (every _ back after split)

def missedHeartbeat : List Call :=
  [atOnce (.setServers [⟨[104], 9090, true⟩]), atOnce (.setCallbacks ⟨true, true, true⟩),
    atOnce .start, atOnce .heartbeatTimeout]

/-- The second timeout disconnects, a Tick starts to reconnect, and a heartbeat before the first
    attempt brings the machine to Connected with nothing recovered. -/
theorem heartbeat_skips_recovery :
    Outage (some (newMachine {} 0)) missedHeartbeat (atOnce .heartbeatTimeout)
        [atOnce (.tick true)] (atOnce .heartbeatSuccess) ∧
      outputs (run machineStep (some (newMachine {} 0))
          (missedHeartbeat ++ [atOnce .heartbeatTimeout, atOnce (.tick true)]))
        (atOnce .heartbeatSuccess) = [.stateChange .reconnecting .connected] ∧
      ¬ Recovered (some (newMachine {} 0)) missedHeartbeat (atOnce .heartbeatTimeout)
        [atOnce (.tick true)] (atOnce .heartbeatSuccess) := by
  have down : Down (some (newMachine {} 0)) missedHeartbeat (atOnce .heartbeatTimeout)
      [atOnce (.tick true)] := by
    refine ⟨⟨by decide, by decide⟩, fun call member => ?_, fun passed inside => ?_⟩
    · rw [List.mem_singleton.mp member]
      exact ⟨nofun, nofun⟩
    · rcases List.prefix_cons_iff.mp inside with rfl | ⟨rest, rfl, inner⟩
      · decide
      · rw [List.prefix_nil.mp inner]
        decide
  have invoked : outputs (run machineStep (some (newMachine {} 0))
      (missedHeartbeat ++ [atOnce .heartbeatTimeout, atOnce (.tick true)]))
        (atOnce .heartbeatSuccess) = [.stateChange .reconnecting .connected] := by decide
  refine ⟨⟨down, ⟨nofun, nofun⟩, by decide, by decide⟩, invoked, fun recovered => ?_⟩
  have completed := recovered.2
  rw [invoked] at completed
  simp at completed

end Reconnection
