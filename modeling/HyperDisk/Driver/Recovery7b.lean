import HyperDisk.Foundations.StepRuns

/- Recovery from INACCESSIBLE_BOOT_DEVICE (blk_7b_recovery.c). The calls run on one thread and
   the environment changes the four availability flags at any moment, so a call is cut into
   steps at each of its reads of a flag. All calls between the functions are tail calls; where
   one waits for a delay, the next step comes behind it. -/
namespace Recovery7b

inductive RecoveryState where
  | normal
  | retrying
  | fallback
  | recovery
  | halted
  deriving DecidableEq, Repr

def maxRetries : UInt32 := 3

structure Recovery where
  state : RecoveryState
  retryCount : UInt32
  fallbackStep : UInt32
  localMetaAvailable : Bool
  networkAvailable : Bool
  metaServerReachable : Bool
  blockDeviceReady : Bool
  deriving DecidableEq, Repr

inductive Status where
  | success
  | deviceNotReady
  deriving DecidableEq, Repr

/-- Where the thread stands: at the entry of a function, before a read of a flag, or outside. -/
inductive Point where
  | initialized
  | processRetry
  | retryBlockDevice
  | retryMetaServer
  | processFallback
  | fallbackLocalMeta
  | fallbackNetwork
  | processRecovery
  | haltLoop
  | returned (status : Status)
  deriving DecidableEq, Repr

structure Config where
  recovery : Recovery
  point : Point
  deriving DecidableEq, Repr

def initialConfig : Config := ⟨⟨.normal, 0, 0, false, false, false, false⟩, .initialized⟩

inductive Call where
  | enterRecovery
  | processRetry
  | processFallback
  deriving DecidableEq, Repr

def enter (r : Recovery) : Call → Config
  | .enterRecovery => ⟨{ r with state := .retrying, retryCount := 0 }, .processRetry⟩
  | .processRetry => ⟨r, .processRetry⟩
  | .processFallback => ⟨r, .processFallback⟩

def retryEntry (r : Recovery) : Config :=
  if maxRetries ≤ r.retryCount then
    ⟨{ r with state := .fallback, fallbackStep := 0 }, .processFallback⟩
  else ⟨{ r with retryCount := r.retryCount + 1 }, .retryBlockDevice⟩

def fallbackEntry (r : Recovery) : Config :=
  match r.fallbackStep with
  | 0 => ⟨{ r with fallbackStep := r.fallbackStep + 1 }, .returned .deviceNotReady⟩
  | 1 => ⟨r, .fallbackLocalMeta⟩
  | 2 => ⟨r, .fallbackNetwork⟩
  | 3 => ⟨{ r with fallbackStep := r.fallbackStep + 1 }, .returned .deviceNotReady⟩
  | _ => ⟨{ r with state := .recovery }, .processRecovery⟩

theorem last_fallback {n : UInt32} (no0 : n ≠ 0) (no1 : n ≠ 1) (no2 : n ≠ 2) (no3 : n ≠ 3) :
    4 ≤ n.toNat := by
  have other : ∀ m : UInt32, n ≠ m → n.toNat ≠ m.toNat := by
    intro m differs same
    exact differs (UInt32.toNat_inj.mp same)
  have not0 : n.toNat ≠ 0 := other 0 no0
  have not1 : n.toNat ≠ 1 := other 1 no1
  have not2 : n.toNat ≠ 2 := other 2 no2
  have not3 : n.toNat ≠ 3 := other 3 no3
  omega

/-- One step of the running call; `BlockDeviceReady && MetaServerReachable` reads the second
    flag after the first. -/
def advance (c : Config) : Config :=
  let r := c.recovery
  match c.point with
  | .processRetry => retryEntry r
  | .retryBlockDevice =>
    if r.blockDeviceReady then { c with point := .retryMetaServer }
    else { c with point := .processRetry }
  | .retryMetaServer =>
    if r.metaServerReachable then ⟨{ r with state := .normal }, .returned .success⟩
    else { c with point := .processRetry }
  | .processFallback => fallbackEntry r
  | .fallbackLocalMeta =>
    if r.localMetaAvailable then ⟨{ r with state := .normal }, .returned .success⟩
    else ⟨{ r with fallbackStep := r.fallbackStep + 1 }, .returned .deviceNotReady⟩
  | .fallbackNetwork =>
    if r.networkAvailable then ⟨{ r with state := .retrying, retryCount := 0 }, .processRetry⟩
    else ⟨{ r with fallbackStep := r.fallbackStep + 1 }, .returned .deviceNotReady⟩
  | .processRecovery => ⟨{ r with state := .halted }, .haltLoop⟩
  | .haltLoop => c
  | .initialized => c
  | .returned _ => c

/-- A next call can be made. The loop of Hd7bProcessRecovery does not end, so behind it a call
    is another thread's. -/
def Point.callable : Point → Bool
  | .initialized => true
  | .returned _ => true
  | .haltLoop => true
  | _ => false

structure Flags where
  localMetaAvailable : Bool
  networkAvailable : Bool
  metaServerReachable : Bool
  blockDeviceReady : Bool
  deriving DecidableEq, Repr

inductive Event where
  | call (f : Call)
  | tick
  | environment (flags : Flags)
  deriving DecidableEq, Repr

def setFlags (r : Recovery) (flags : Flags) : Recovery :=
  { r with
    localMetaAvailable := flags.localMetaAvailable
    networkAvailable := flags.networkAvailable
    metaServerReachable := flags.metaServerReachable
    blockDeviceReady := flags.blockDeviceReady }

def step (c : Config) : Event → Config
  | .call f => if c.point.callable then enter c.recovery f else c
  | .tick => advance c
  | .environment flags => { c with recovery := setFlags c.recovery flags }

end Recovery7b
