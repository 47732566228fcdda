import HyperDisk.Driver.DeviceInterfaces
import HyperDisk.Foundations.DecimalText
import HyperDisk.Foundations.LittleEndian

/- Plug and play in the bus driver (bus_pnp.c): the bus device makes children, and every child has
   an interface of its own. `none` is a misused interface name, a write outside a buffer, or a
   kernel stack that is used up. -/
namespace BusChildren
open Handles DeviceInterfaces LittleEndian
open OverlayDriver (NtStatus statusSuccess statusInsufficientResources ntSuccess)

def statusPending : NtStatus := 0x103
def statusNotSupported : NtStatus := 0xC00000BB
def statusNoSuchDevice : NtStatus := 0xC000000E

abbrev Device := Nat

structure Child where
  childId : UInt32
  childDeviceObject : Device
  interface : DeviceInterface
  deriving DecidableEq, Repr

structure Bus where
  busDeviceObject : Device
  childCount : UInt32
  children : List Child
  devices : Nat
  names : Table
  deriving DecidableEq

inductive BusQueryIdType where
  | deviceId
  | hardwareIds
  | instanceId
  | compatibleIds
  | other
  deriving DecidableEq, Repr

inductive MinorFunction where
  | startDevice
  | queryStopDevice
  | queryRemoveDevice
  | cancelStopDevice
  | cancelRemoveDevice
  | removeDevice
  | surpriseRemoval
  | queryDeviceRelations (busRelations : Bool)
  | queryId (idType : BusQueryIdType)
  | queryCapabilities
  | queryDeviceText (description : Bool)
  | other
  deriving DecidableEq, Repr

inductive Information where
  | nothing
  | text (bytes : Bytes)
  | relations (objects : List Device)
  deriving DecidableEq, Repr

structure IoStatus where
  status : NtStatus
  information : Information
  deriving DecidableEq, Repr

/-- What the system answers during one call: whether the pool has memory, and the status of
    IoCreateDevice, IoRegisterDeviceInterface and IoSetDeviceInterfaceState. -/
structure System where
  memory : Bool
  createDevice : NtStatus
  registerDeviceInterface : NtStatus
  setDeviceInterfaceState : NtStatus
  deriving DecidableEq, Repr

def wide (text : List Char) : Bytes := text.flatMap fun c => store 2 c.toNat

def singleId (text : List Char) : Option Bytes :=
  overwrite (List.replicate ((wide text).length + 2 + 2) 0) 0 (wide text)

def totalLen : List (List Char) → Nat
  | [] => 2
  | id :: ids => (id.length + 1) * 2 + totalLen ids

def copyIds : List (List Char) → Nat → Bytes → Option Bytes
  | [], _, buf => some buf
  | id :: ids, ptr, buf => do
    let buf ← overwrite buf ptr (wide id)
    copyIds ids (ptr + (id.length + 1) * 2) buf

def multipleIds (ids : List (List Char)) : Option Bytes :=
  copyIds ids 0 (List.replicate (totalLen ids) 0)

def idBuffer : BusQueryIdType → Option (Option Bytes)
  | .deviceId => some (singleId "ROOT\\HYPERDISKBLK".toList)
  | .hardwareIds => some (multipleIds ["ROOT\\HYPERDISKBLK".toList,
      "HTKIS\\HyperDisk_VDisk".toList])
  | .instanceId => some (singleId "0".toList)
  | .compatibleIds => some (multipleIds ["ROOT\\DISK".toList])
  | .other => none

def pdoQueryId (sys : System) (idType : BusQueryIdType) (irp : IoStatus) :
    Option (NtStatus × IoStatus) :=
  match idBuffer idType with
  | none => some (statusNotSupported, irp)
  | some fill =>
    if sys.memory then do
      let buffer ← fill
      some (statusSuccess, { irp with information := .text buffer })
    else some (statusInsufficientResources, irp)

def deviceText (sys : System) (description : Bool) (irp : IoStatus) : NtStatus × IoStatus :=
  if description then
    if sys.memory then
      (statusSuccess,
        { irp with
          information := .text (wide "HTKIS HyperDisk Virtual Disk".toList ++ [0, 0]) })
    else (statusInsufficientResources, irp)
  else (statusSuccess, irp)

def registerChild (sys : System) (d : DeviceInterface) (names : Table) :
    NtStatus × DeviceInterface × Table :=
  if d.interfaceRegistered then (statusSuccess, d, names)
  else (sys.registerDeviceInterface, registerInterface sys.registerDeviceInterface d names)

/-- IRP_MN_START_DEVICE of a child: Started comes first and stays when the registration fails. -/
def startChild (sys : System) (d : DeviceInterface) (names : Table) :
    Option (NtStatus × DeviceInterface × Table) := do
  let d := { d with started := true }
  let (status, d, names) := registerChild sys d names
  let names ← setInterfaceState sys.setDeviceInterfaceState d names true
  some (status, d, names)

def finish (status : NtStatus) (irp : IoStatus) : IoStatus × Bool :=
  if status ≠ statusPending then
    ({ irp with status := if irp.status ≠ statusSuccess then irp.status else status }, true)
  else (irp, false)

structure Served where
  interface : DeviceInterface
  names : Table
  irp : IoStatus
  completed : Bool
  deriving DecidableEq

def serve (status : NtStatus) (irp : IoStatus) (d : DeviceInterface) (names : Table) : Served :=
  ⟨d, names, (finish status irp).1, (finish status irp).2⟩

def pdoPnp (sys : System) (d : DeviceInterface) (names : Table) (minor : MinorFunction)
    (irp : IoStatus) : Option Served :=
  match minor with
  | .startDevice => do
    let (status, d, names) ← startChild sys d names
    some (serve status { irp with status := statusSuccess } d names)
  | .removeDevice => do
    let (d, names) ← removeInterface sys.setDeviceInterfaceState d names
    some (serve statusSuccess { irp with status := statusSuccess } d names)
  | .surpriseRemoval => do
    let (d, names) ← surpriseInterface sys.setDeviceInterfaceState d names
    some (serve statusSuccess { irp with status := statusSuccess } d names)
  | .queryId idType => do
    let (status, irp) ← pdoQueryId sys idType irp
    some (serve status { irp with status := status } d names)
  | .queryDeviceText description =>
    let (status, irp) := deviceText sys description irp
    some (serve status { irp with status := status } d names)
  | .queryStopDevice | .queryRemoveDevice | .cancelStopDevice | .cancelRemoveDevice
  | .queryDeviceRelations _ | .queryCapabilities =>
    some (serve statusSuccess { irp with status := statusSuccess } d names)
  | .other => some (serve statusSuccess { irp with status := statusNotSupported } d names)

/-- HdBusAutoEnumerateChild with HdBusCreatePdo: a child that gets no device object uses up its
    number. -/
def autoEnumerateChild (sys : System) (bus : Bus) : NtStatus × Bus :=
  if ¬ sys.memory then (statusInsufficientResources, bus)
  else
    let childId := bus.childCount + 1
    if ¬ ntSuccess sys.createDevice then (sys.createDevice, { bus with childCount := childId })
    else
      (statusSuccess,
        { bus with
          childCount := childId
          devices := bus.devices + 1
          children := bus.children ++ [⟨childId, bus.devices, noInterface⟩] })

def fdoPnp (sys : System) (bus : Bus) (minor : MinorFunction) (irp : IoStatus) : Bus × IoStatus :=
  match minor with
  | .startDevice => ((autoEnumerateChild sys bus).2, { irp with status := statusSuccess })
  | .queryDeviceRelations true =>
    if sys.memory then (bus, ⟨statusSuccess, .relations (bus.children.map (·.childDeviceObject))⟩)
    else (bus, { irp with status := statusInsufficientResources })
  | _ => (bus, irp)

def findChildByPdo (bus : Bus) (pdo : Device) : Option Nat :=
  bus.children.findIdx? fun child => child.childDeviceObject = pdo

def setChild (bus : Bus) (n : Nat) (child : Child) (served : Served) : Bus :=
  { bus with
    children := bus.children.set n { child with interface := served.interface }
    names := served.names }

def childPnp (sys : System) (bus : Bus) (pdo : Device) (minor : MinorFunction) (irp : IoStatus) :
    Option (Bus × IoStatus × Bool) :=
  match findChildByPdo bus pdo with
  | none => some (bus, { irp with status := statusNoSuchDevice }, true)
  | some n => do
    let child ← bus.children[n]?
    let served ← pdoPnp sys child.interface bus.names minor irp
    some (setChild bus n child served, served.irp, served.completed)

/-- HdBusDispatchPnp with room for so many nested calls; `sys` answers in each of them. The bus
    device passes its IRPs to the driver of BusDeviceObject, which is this driver. -/
def dispatchPnp (sys : Nat → System) :
    Nat → Bus → Device → MinorFunction → IoStatus → Option (Bus × IoStatus × Bool)
  | 0, _, _, _, _ => none
  | room + 1, bus, device, minor, irp =>
    if device = bus.busDeviceObject then
      let (bus, irp) := fdoPnp (sys room) bus minor irp
      dispatchPnp sys room bus bus.busDeviceObject minor irp
    else childPnp (sys room) bus device minor irp

def driverEntry : Bus := ⟨0, 0, [], 1, noHandles⟩

inductive Event where
  | pass (sys : System) (minor : MinorFunction) (irp : IoStatus)
  | request (sys : System) (pdo : Device) (minor : MinorFunction) (irp : IoStatus)
  deriving DecidableEq

def step (o : Option Bus) (event : Event) : Option Bus := do
  let bus ← o
  match event with
  | .pass sys minor irp => some (fdoPnp sys bus minor irp).1
  | .request sys pdo minor irp => (childPnp sys bus pdo minor irp).map (·.1)

theorem wide_length (text : List Char) : (wide text).length = text.length * 2 := by
  induction text with
  | nil => rfl
  | cons c text ih =>
    rw [wide, List.flatMap_cons, List.length_append, store_length, List.length_cons]
    change 2 + (wide text).length = _
    omega

theorem singleId_fits (text : List Char) : singleId text = some (wide text ++ [0, 0, 0, 0]) := by
  have filled := overwrite_zeros [] (wide text) ((wide text).length + 4) (Nat.le_add_right _ _)
  rw [Nat.add_sub_cancel_left] at filled
  exact filled

def texts (ids : List (List Char)) : Bytes := ids.flatMap fun id => wide id ++ [0, 0]

theorem copyIds_fits (ids : List (List Char)) (front : Bytes) :
    copyIds ids front.length (front ++ List.replicate (totalLen ids) 0) =
      some (front ++ texts ids ++ [0, 0]) := by
  induction ids generalizing front with
  | nil => simp [copyIds, totalLen, texts]
  | cons id ids ih =>
    have split : totalLen (id :: ids) = (wide id).length + (2 + totalLen ids) := by
      rw [totalLen, wide_length]
      omega
    have filled := overwrite_zeros front (wide id) ((wide id).length + (2 + totalLen ids))
      (Nat.le_add_right _ _)
    rw [Nat.add_sub_cancel_left] at filled
    have next := ih (front ++ wide id ++ [0, 0])
    have here : (front ++ wide id ++ [0, 0]).length = front.length + (id.length + 1) * 2 := by
      simp only [List.length_append, wide_length, List.length_cons, List.length_nil]
      omega
    rw [copyIds, split, filled, Option.bind_eq_bind, Option.bind_some, List.replicate_add, ← here]
    rw [← List.append_assoc, show List.replicate 2 (0 : UInt8) = [0, 0] from rfl, next]
    simp [texts]

theorem idBuffer_fits (idType : BusQueryIdType) (fill : Option Bytes)
    (known : idBuffer idType = some fill) : ∃ buffer, fill = some buffer := by
  have multiple : ∀ ids, multipleIds ids = some (texts ids ++ [0, 0]) :=
    fun ids => copyIds_fits ids []
  cases idType with
  | deviceId => exact ⟨_, (Option.some.inj known).symm.trans (singleId_fits _)⟩
  | hardwareIds => exact ⟨_, (Option.some.inj known).symm.trans (multiple _)⟩
  | instanceId => exact ⟨_, (Option.some.inj known).symm.trans (singleId_fits _)⟩
  | compatibleIds => exact ⟨_, (Option.some.inj known).symm.trans (multiple _)⟩
  | other => cases known

theorem pdoQueryId_answers (sys : System) (idType : BusQueryIdType) (irp : IoStatus) :
    ∃ out, pdoQueryId sys idType irp = some out := by
  unfold pdoQueryId
  cases known : idBuffer idType with
  | none => exact ⟨_, rfl⟩
  | some fill =>
    obtain ⟨buffer, rfl⟩ := idBuffer_fits idType fill known
    cases sys.memory with
    | true => exact ⟨_, rfl⟩
    | false => exact ⟨_, rfl⟩

def System.switches (sys : System) : Bool := ntSuccess sys.setDeviceInterfaceState

def Event.switches : Event → Bool
  | .pass sys _ _ => sys.switches
  | .request sys _ _ _ => sys.switches

section Keeping
variable {ι : Type} [DecidableEq ι] {holders : ι → Holder} {i : ι} {d : DeviceInterface}
  {names : Table}

theorem registerChild_kept (sys : System) (kept : Kept names holders)
    (here : holders i = d.holder) :
    ∃ (status : NtStatus) (e : DeviceInterface) (names' : Table),
      registerChild sys { d with started := true } names =
        (status, { e with started := true }, names') ∧
      names'.refused = names.refused ∧ Kept names' (Function.update holders i e.holder) := by
  unfold registerChild registerInterface
  by_cases registered : d.interfaceRegistered = true
  · refine ⟨statusSuccess, d, names, if_pos registered, rfl, ?_⟩
    rw [← here, Function.update_eq_self]
    exact kept
  · have free : (holders i).held = false := by
      rw [here]
      exact Bool.eq_false_iff.mpr registered
    by_cases given : ntSuccess sys.registerDeviceInterface = true
    · refine ⟨sys.registerDeviceInterface, ⟨names.next, true, false⟩, names.register, ?_, rfl, ?_⟩
      · rw [if_neg registered, if_pos given]
      · exact kept_register kept free
    · refine ⟨sys.registerDeviceInterface, d, names, ?_, rfl, ?_⟩
      · rw [if_neg registered, if_neg given]
      · rw [← here, Function.update_eq_self]
        exact kept

theorem startChild_kept (sys : System) (kept : Kept names holders) (here : holders i = d.holder) :
    ∃ status after names', startChild sys d names = some (status, after, names') ∧
      Obeyed sys.switches names names' ∧ Kept names' (Function.update holders i after.holder) := by
  obtain ⟨status, e, given, registered, same, still⟩ := registerChild_kept sys kept here
  obtain ⟨names', switched, obeyed, on⟩ := kept_setInterfaceState sys.setDeviceInterfaceState still
    (Function.update_self i e.holder holders) true
  rw [Function.update_idem] at on
  refine ⟨status, { e with started := true }, names', ?_, ?_, on⟩
  · simp only [startChild, registered, switched, Option.bind_eq_bind, Option.bind_some]
  · rw [Obeyed, ← same]
    exact obeyed

theorem pdoPnp_kept (sys : System) (minor : MinorFunction) (irp : IoStatus)
    (kept : Kept names holders) (here : holders i = d.holder) :
    ∃ served, pdoPnp sys d names minor irp = some served ∧
      Obeyed sys.switches names served.names ∧
      Kept served.names (Function.update holders i served.interface.holder) := by
  have same : Kept names (Function.update holders i d.holder) := by
    rw [← here, Function.update_eq_self]
    exact kept
  cases minor with
  | startDevice =>
    obtain ⟨status, after, names', started, still⟩ := startChild_kept sys kept here
    simp only [pdoPnp, started, Option.bind_eq_bind, Option.bind_some]
    exact ⟨_, rfl, still⟩
  | removeDevice =>
    obtain ⟨after, names', removed, -, still⟩ :=
      kept_removeInterface sys.setDeviceInterfaceState kept here
    simp only [pdoPnp, removed, Option.bind_eq_bind, Option.bind_some]
    exact ⟨_, rfl, still⟩
  | surpriseRemoval =>
    obtain ⟨after, names', removed, still⟩ :=
      kept_surpriseInterface sys.setDeviceInterfaceState kept here
    simp only [pdoPnp, removed, Option.bind_eq_bind, Option.bind_some]
    exact ⟨_, rfl, still⟩
  | queryId idType =>
    obtain ⟨out, answered⟩ := pdoQueryId_answers sys idType irp
    simp only [pdoPnp, answered, Option.bind_eq_bind, Option.bind_some]
    exact ⟨_, rfl, obeyed_refl _ _, same⟩
  | queryStopDevice | queryRemoveDevice | cancelStopDevice | cancelRemoveDevice
  | queryDeviceRelations | queryCapabilities | queryDeviceText | other =>
    exact ⟨_, rfl, obeyed_refl _ _, same⟩

end Keeping

end BusChildren
