import HyperDisk.Driver.OverlayDriver
import HyperDisk.Foundations.Handles

/- The mounted-device interface of a disk as the bus driver (bus_pnp.c) and the disk drivers
   (pnp_disk_driver.c, wdm_disk_driver.c) register, switch and free it. The names the system has
   given out are a table of handles; `none` is the use of a name that was freed or never given
   out. No driver looks at the answer of IoSetDeviceInterfaceState. -/
namespace DeviceInterfaces
open Handles
open OverlayDriver (NtStatus statusSuccess statusInsufficientResources ntSuccess)

structure DeviceInterface where
  interfaceName : Nat
  interfaceRegistered : Bool
  started : Bool
  deriving DecidableEq, Repr

def noInterface : DeviceInterface := ⟨0, false, false⟩

def registerInterface (status : NtStatus) (d : DeviceInterface) (names : Table) :
    DeviceInterface × Table :=
  if ntSuccess status then
    ({ d with interfaceName := names.next, interfaceRegistered := true }, names.register)
  else (d, names)

/-- IoSetDeviceInterfaceState, which answers `status`, behind its test of InterfaceRegistered. -/
def setInterfaceState (status : NtStatus) (d : DeviceInterface) (names : Table) (state : Bool) :
    Option Table :=
  if d.interfaceRegistered then names.setState d.interfaceName state (ntSuccess status)
  else some names

def removeInterface (status : NtStatus) (d : DeviceInterface) (names : Table) :
    Option (DeviceInterface × Table) := do
  if d.interfaceRegistered then
    let names ← names.setState d.interfaceName false (ntSuccess status)
    let names ← names.release d.interfaceName
    some ({ d with interfaceRegistered := false, started := false }, names)
  else some ({ d with started := false }, names)

def surpriseInterface (status : NtStatus) (d : DeviceInterface) (names : Table) :
    Option (DeviceInterface × Table) := do
  let names ← setInterfaceState status d names false
  some ({ d with started := false }, names)

def DeviceInterface.holder (d : DeviceInterface) : Holder :=
  ⟨d.interfaceName, d.interfaceRegistered, d.started⟩

section Keeping
variable {ι : Type} [DecidableEq ι] {holders : ι → Holder} {i : ι} {d : DeviceInterface}
  {names : Table}

theorem kept_setInterfaceState (status : NtStatus) (kept : Kept names holders)
    (here : holders i = d.holder) (state : Bool) :
    ∃ after, setInterfaceState status { d with started := state } names state = some after ∧
      Obeyed (ntSuccess status) names after ∧
      Kept after (Function.update holders i
        { d with started := state : DeviceInterface }.holder) := by
  unfold setInterfaceState
  by_cases registered : d.interfaceRegistered = true
  · have held : (holders i).held = true := by rw [here]; exact registered
    obtain ⟨after, switched, obeyed, still⟩ := kept_switch kept held state (ntSuccess status)
    rw [here] at switched still
    exact ⟨after, (if_pos registered).trans switched, obeyed, still⟩
  · have free : d.interfaceRegistered = false := Bool.eq_false_iff.mpr registered
    refine ⟨names, if_neg registered, obeyed_refl _ _, kept_idle kept ?_ free⟩
    rw [here]
    exact free

theorem kept_registerInterface (kept : Kept names holders) (here : holders i = d.holder)
    (free : d.interfaceRegistered = false) (idle : d.started = false) (status : NtStatus) :
    Kept (registerInterface status d names).2
      (Function.update holders i (registerInterface status d names).1.holder) := by
  have unheld : (holders i).held = false := by rw [here]; exact free
  unfold registerInterface
  split
  · have given := kept_register kept unheld
    rw [← idle] at given
    exact given
  · exact kept_idle kept unheld free

theorem registerInterface_refused (status : NtStatus) (d : DeviceInterface) (names : Table) :
    (registerInterface status d names).2.refused = names.refused := by
  unfold registerInterface
  split <;> rfl

theorem kept_surpriseInterface (status : NtStatus) (kept : Kept names holders)
    (here : holders i = d.holder) :
    ∃ after names', surpriseInterface status d names = some (after, names') ∧
      Obeyed (ntSuccess status) names names' ∧
      Kept names' (Function.update holders i after.holder) := by
  obtain ⟨names', switched, obeyed, still⟩ := kept_setInterfaceState status kept here false
  refine ⟨_, names', ?_, obeyed, still⟩
  rw [surpriseInterface, show setInterfaceState status d names false = some names' from switched]
  rfl

theorem kept_removeInterface (status : NtStatus) (kept : Kept names holders)
    (here : holders i = d.holder) :
    ∃ after names', removeInterface status d names = some (after, names') ∧
      after.interfaceRegistered = false ∧ Obeyed (ntSuccess status) names names' ∧
      Kept names' (Function.update holders i after.holder) := by
  by_cases registered : d.interfaceRegistered = true
  · have held : (holders i).held = true := by rw [here]; exact registered
    obtain ⟨off, switched, obeyed, still⟩ := kept_switch kept held false (ntSuccess status)
    have heldOff :
        (Function.update holders i { holders i with active := false } i).held = true := by
      rw [Function.update_self]
      exact held
    obtain ⟨names', released, same, freed⟩ :=
      kept_release still heldOff (by rw [Function.update_self])
    rw [Function.update_self, Function.update_idem, here] at freed
    rw [Function.update_self, here] at released
    rw [here] at switched
    refine ⟨{ d with interfaceRegistered := false, started := false }, names', ?_, rfl, ?_, freed⟩
    · simp only [removeInterface, if_pos registered]
      rw [show names.setState d.interfaceName false (ntSuccess status) = some off from switched]
      exact congrArg (Option.bind · _) released
    · rw [Obeyed, same]
      exact obeyed
  · have free : d.interfaceRegistered = false := Bool.eq_false_iff.mpr registered
    refine ⟨{ d with started := false }, names, ?_, free, obeyed_refl _ _, kept_idle kept ?_ free⟩
    · simp only [removeInterface, if_neg registered]
    · rw [here]
      exact free

end Keeping

end DeviceInterfaces
