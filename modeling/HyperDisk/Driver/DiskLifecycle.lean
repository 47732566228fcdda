import HyperDisk.Driver.BusChildren
import HyperDisk.Foundations.StepRuns

/- The life of the disk device in the plug and play driver (pnp_disk_driver.c), which puts it on
   the device stack of the bus, and in the legacy driver (wdm_disk_driver.c), which makes it when
   it is loaded. -/
namespace DiskLifecycle
open Handles DeviceInterfaces LittleEndian StepRuns
open OverlayDriver (NtStatus statusSuccess statusInsufficientResources ntSuccess)
open BusChildren (MinorFunction statusPending wide)

def statusObjectNameCollision : NtStatus := 0xC0000035

structure Stack where
  device : Option DeviceInterface
  names : Table
  deriving DecidableEq

structure AddAnswers where
  createDevice : NtStatus
  attach : NtStatus
  register : NtStatus
  deriving DecidableEq, Repr

/-- HdBlkAddDevice: the device number is always 0, so a second device has the name of the first. -/
def addDevice (sys : AddAnswers) (s : Stack) : NtStatus × Stack :=
  if s.device.isSome then (statusObjectNameCollision, s)
  else if ¬ ntSuccess sys.createDevice then (sys.createDevice, s)
  else if ¬ ntSuccess sys.attach then (sys.attach, s)
  else
    let (d, names) := registerInterface sys.register noInterface s.names
    (statusSuccess, ⟨some d, names⟩)

/-- HdBlkDispatchPnp of the device; `lower` is what the driver below answers, and `switch` what
    IoSetDeviceInterfaceState does. -/
def dispatchPnp (d : DeviceInterface) (names : Table) (minor : MinorFunction)
    (lower switch : NtStatus) : Option (NtStatus × Stack) := do
  match minor with
  | .startDevice =>
    if ntSuccess lower then
      let d := { d with started := true }
      let names ← setInterfaceState switch d names true
      some (lower, ⟨some d, names⟩)
    else some (lower, ⟨some d, names⟩)
  | .removeDevice =>
    let (_, names) ← removeInterface switch d names
    some (lower, ⟨none, names⟩)
  | .surpriseRemoval =>
    let (d, names) ← surpriseInterface switch d names
    some (lower, ⟨some d, names⟩)
  | _ => some (lower, ⟨some d, names⟩)

inductive Event where
  | addDevice (sys : AddAnswers)
  | pnp (minor : MinorFunction) (lower switch : NtStatus)
  deriving DecidableEq

def step (o : Option Stack) (event : Event) : Option Stack := do
  let s ← o
  match event, s.device with
  | .addDevice sys, _ => some (addDevice sys s).2
  | .pnp _ _ _, none => some s
  | .pnp minor lower switch, some d => (dispatchPnp d s.names minor lower switch).map (·.2)

def noStack : Stack := ⟨none, noHandles⟩

def holderOf (s : Stack) (_ : Unit) : Holder :=
  (s.device.map DeviceInterface.holder).getD noInterface.holder

def Sound (s : Stack) : Prop := Kept s.names (holderOf s)

theorem sound_noStack : Sound noStack := kept_none fun _ => rfl

theorem holderOf_some (d : DeviceInterface) (s : Stack) (names : Table) :
    holderOf ⟨some d, names⟩ = Function.update (holderOf s) () d.holder := by
  rw [Function.update_eq_const_of_subsingleton]
  rfl

theorem addDevice_sound (sys : AddAnswers) {s : Stack} (sound : Sound s) :
    Sound (addDevice sys s).2 ∧ (addDevice sys s).2.names.refused = s.names.refused := by
  unfold addDevice
  split
  · exact ⟨sound, rfl⟩
  · rename_i absent
    have none : s.device = none := by simpa using absent
    split
    · exact ⟨sound, rfl⟩
    · split
      · exact ⟨sound, rfl⟩
      · constructor
        · change Kept _ (holderOf _)
          rw [holderOf_some _ s]
          apply kept_registerInterface sound
          · rw [holderOf, none]
            rfl
          · rfl
          · rfl
        · exact registerInterface_refused sys.register noInterface s.names

theorem dispatchPnp_sound (minor : MinorFunction) (lower switch : NtStatus) {s : Stack}
    {d : DeviceInterface} (present : s.device = some d) (sound : Sound s) :
    ∃ status after, dispatchPnp d s.names minor lower switch = some (status, after) ∧
      Sound after ∧ Obeyed (ntSuccess switch) s.names after.names := by
  have here : holderOf s () = d.holder := by
    rw [holderOf, present]
    rfl
  have same : Sound ⟨some d, s.names⟩ := by
    change Kept _ (holderOf _)
    rw [holderOf_some d s, ← here, Function.update_eq_self]
    exact sound
  cases minor with
  | startDevice =>
    by_cases below : ntSuccess lower = true
    · obtain ⟨names, switched, obeyed, still⟩ := kept_setInterfaceState switch sound here true
      refine ⟨lower, ⟨some { d with started := true }, names⟩, ?_, ?_, obeyed⟩
      · simp only [dispatchPnp, below, if_true, switched, Option.bind_eq_bind, Option.bind_some]
      · change Kept _ (holderOf _)
        rw [holderOf_some _ s]
        exact still
    · refine ⟨lower, ⟨some d, s.names⟩, ?_, same, obeyed_refl _ _⟩
      simp only [dispatchPnp, below]
      rfl
  | removeDevice =>
    obtain ⟨after, names, removed, free, obeyed, still⟩ := kept_removeInterface switch sound here
    refine ⟨lower, ⟨none, names⟩, ?_, ?_, obeyed⟩
    · simp only [dispatchPnp, removed, Option.bind_eq_bind, Option.bind_some]
    · have unheld : Kept names
          (Function.update (Function.update (holderOf s) () after.holder)
            () noInterface.holder) := by
        apply kept_idle still
        · rw [Function.update_self]
          exact free
        · rfl
      rw [Function.update_eq_const_of_subsingleton] at unheld
      exact unheld
  | surpriseRemoval =>
    obtain ⟨after, names, removed, obeyed, still⟩ := kept_surpriseInterface switch sound here
    refine ⟨lower, ⟨some after, names⟩, ?_, ?_, obeyed⟩
    · simp only [dispatchPnp, removed, Option.bind_eq_bind, Option.bind_some]
    · change Kept _ (holderOf _)
      rw [holderOf_some _ s]
      exact still
  | queryId | queryStopDevice | queryRemoveDevice | cancelStopDevice | cancelRemoveDevice
  | queryDeviceRelations | queryCapabilities | queryDeviceText | other =>
    exact ⟨lower, ⟨some d, s.names⟩, rfl, same, obeyed_refl _ _⟩

def Event.switches : Event → Bool
  | .addDevice _ => true
  | .pnp _ _ switch => ntSuccess switch

theorem step_sound (s : Stack) (event : Event) (sound : Sound s) :
    ∃ after, step (some s) event = some after ∧ Sound after ∧
      Obeyed event.switches s.names after.names := by
  cases event with
  | addDevice sys =>
    obtain ⟨still, same⟩ := addDevice_sound sys sound
    exact ⟨_, rfl, still, fun _ => same.subset⟩
  | pnp minor lower switch =>
    cases present : s.device with
    | none =>
      refine ⟨s, ?_, sound, obeyed_refl _ _⟩
      simp only [step, present, Option.bind_eq_bind, Option.bind_some]
    | some d =>
      obtain ⟨status, after, answered, still⟩ := dispatchPnp_sound minor lower switch present sound
      refine ⟨after, ?_, still⟩
      simp only [step, present, answered, Option.bind_eq_bind, Option.bind_some, Option.map_some]

theorem run_sound (events : List Event) {s : Stack} (sound : Sound s) :
    ∃ after, run step (some s) events = some after ∧ Sound after ∧
      ((∀ event ∈ events, event.switches = true) → after.names.refused ⊆ s.names.refused) :=
  defined_run_related (R := fun s t : Stack => t.names.refused ⊆ s.names.refused)
    (fun _ => Finset.Subset.refl _) (fun _ _ _ first second => second.trans first) step_sound events
    sound

theorem exists_holderOf (R : Holder → Nat → Prop) (s : Stack) (name : Nat)
    (nobody : ¬ R noInterface.holder name) :
    (∃ u, R (holderOf s u) name) ↔ ∃ d, s.device = some d ∧ R d.holder name := by
  cases present : s.device with
  | none => simp [holderOf, present, nobody]
  | some d => simp [holderOf, present]

/-- Whatever the requests and the answers, the name of the interface is given out exactly while a
    device that registered one exists. It is enabled exactly while that device is started, except
    where the system refused its last switch; and it refused none if every answer was a success. -/
theorem disk_interface (events : List Event) :
    ∃ s, run step (some noStack) events = some s ∧
      (∀ name, name ∈ s.names.live ↔
        ∃ d, s.device = some d ∧ d.interfaceRegistered = true ∧ d.interfaceName = name) ∧
      (∀ name, name ∉ s.names.refused → (name ∈ s.names.on ↔ ∃ d, s.device = some d ∧
        (d.interfaceRegistered = true ∧ d.interfaceName = name) ∧ d.started = true)) ∧
      ((∀ event ∈ events, event.switches = true) → s.names.refused = ∅) := by
  obtain ⟨s, ran, sound, obeyed⟩ := run_sound events sound_noStack
  have unheld : noInterface.holder.held = false := rfl
  refine ⟨s, ran, ?_, ?_, ?_⟩
  · intro name
    rw [sound.live, exists_holderOf Holder.holds s name (by simp [Holder.holds, unheld])]
    rfl
  · intro name switched
    rw [sound.on name switched,
      exists_holderOf Holder.enables s name (by simp [Holder.enables, Holder.holds, unheld])]
    rfl
  · intro answered
    exact Finset.subset_empty.mp (obeyed answered)

/-- What the legacy driver has taken from the system: its device with the name HyperDiskBlk0,
    which g_BlkDevice also points to, the symbolic link, interface names, references to the mount
    manager's file and blocks of pool. -/
structure Machine where
  blkDevice : Option DeviceInterface
  symLink : Bool
  names : Table
  references : Nat
  pool : Nat
  deriving DecidableEq

structure LoadAnswers where
  createDevice : NtStatus
  createSymbolicLink : NtStatus
  register : NtStatus
  enable : NtStatus
  getDeviceObjectPointer : NtStatus
  memory : Bool
  buildRequest : Bool
  callDriver : NtStatus
  ioStatus : NtStatus
  disable : NtStatus
  deriving DecidableEq, Repr

def deviceName : List Char := "\\Device\\HyperDiskBlk0".toList

/-- MOUNTMGR_TARGET_NAME is a USHORT and one WCHAR, and the name replaces that one. -/
def targetName : Option Bytes := do
  let length := (wide deviceName).length
  let target ← overwrite (List.replicate (4 + length - 2) 0) 0 (store 2 length)
  overwrite target 2 (wide deviceName)

def giveBack : Nat → Option Nat
  | 0 => none
  | n + 1 => some n

def notifyMountManager (sys : LoadAnswers) (m : Machine) : Option (NtStatus × Machine) := do
  if ¬ ntSuccess sys.getDeviceObjectPointer then return (sys.getDeviceObjectPointer, m)
  let m := { m with references := m.references + 1 }
  if ¬ sys.memory then
    let references ← giveBack m.references
    return (statusInsufficientResources, { m with references := references })
  let m := { m with pool := m.pool + 1 }
  let _ ← targetName
  if ¬ sys.buildRequest then
    let pool ← giveBack m.pool
    let references ← giveBack m.references
    return (statusInsufficientResources, { m with pool := pool, references := references })
  let status := if sys.callDriver = statusPending then sys.ioStatus else sys.callDriver
  let pool ← giveBack m.pool
  let references ← giveBack m.references
  return (status, { m with pool := pool, references := references })

def driverEntry (sys : LoadAnswers) (m : Machine) : Option (NtStatus × Machine) := do
  if m.blkDevice.isSome then return (statusObjectNameCollision, m)
  if ¬ ntSuccess sys.createDevice then return (sys.createDevice, m)
  if ¬ ntSuccess sys.createSymbolicLink then return (sys.createSymbolicLink, m)
  let (d, names) := registerInterface sys.register noInterface m.names
  let names ← setInterfaceState sys.enable d names true
  let (_, m) ← notifyMountManager sys
    { m with blkDevice := some d, symLink := true, names := names }
  return (statusSuccess, m)

end DiskLifecycle
