import HyperDisk.Driver.BusChildren
import HyperDisk.Foundations.StepRuns

/- Whole runs of the bus driver: any sequence of passes through the bus device and of requests to
   its children. -/
namespace BusRuns
open BusChildren Handles DeviceInterfaces StepRuns
open OverlayDriver (NtStatus statusSuccess statusInsufficientResources ntSuccess)

def childHolder (child : Child) : Holder := child.interface.holder

def holderAt (children : List Child) (n : Nat) : Holder :=
  (children[n]?.map childHolder).getD noInterface.holder

theorem holderAt_set {children : List Child} {n : Nat} (inside : n < children.length)
    (child : Child) :
    holderAt (children.set n child) = Function.update (holderAt children) n
      (childHolder child) := by
  funext m
  by_cases it : m = n
  · rw [it, Function.update_self, holderAt, List.getElem?_set_self inside]
    rfl
  · rw [Function.update_of_ne it, holderAt, List.getElem?_set_ne (Ne.symm it)]
    rfl

theorem holderAt_append (children : List Child) (child : Child) :
    holderAt (children ++ [child]) = Function.update (holderAt children) children.length
      (childHolder child) := by
  funext m
  by_cases it : m = children.length
  · rw [it, Function.update_self, holderAt, List.getElem?_concat_length]
    rfl
  · rw [Function.update_of_ne it]
    unfold holderAt
    rcases Nat.lt_or_gt_of_ne it with before | behind
    · rw [List.getElem?_append_left before]
    · rw [List.getElem?_eq_none (by simp; omega), List.getElem?_eq_none (by omega)]

structure Sound (bus : Bus) : Prop where
  names : Kept bus.names (holderAt bus.children)
  apart : (bus.children.map Child.childDeviceObject).Nodup
  made : ∀ child ∈ bus.children, child.childDeviceObject < bus.devices

theorem sound_driverEntry : Sound driverEntry := by
  constructor
  · exact kept_none fun _ => rfl
  · exact List.nodup_nil
  · intro child here
    cases here

def Listed (bus after : Bus) : Prop :=
  bus.children.map Child.childDeviceObject <+: after.children.map Child.childDeviceObject

structure Grows (ok : Bool) (bus after : Bus) : Prop where
  listed : Listed bus after
  obeyed : Obeyed ok bus.names after.names

theorem grows_refl (ok : Bool) (bus : Bus) : Grows ok bus bus := ⟨List.prefix_rfl, obeyed_refl _ _⟩

theorem autoEnumerateChild_sound (sys : System) {bus : Bus} (sound : Sound bus) :
    Sound (autoEnumerateChild sys bus).2 ∧
      Grows sys.switches bus (autoEnumerateChild sys bus).2 := by
  unfold autoEnumerateChild
  split
  · exact ⟨sound, grows_refl _ bus⟩
  · split
    · exact ⟨⟨sound.names, sound.apart, sound.made⟩, List.prefix_rfl, obeyed_refl _ _⟩
    · refine ⟨⟨?_, ?_, ?_⟩, ?_, obeyed_refl _ _⟩
      · rw [holderAt_append]
        apply kept_idle sound.names
        · simp [holderAt, noInterface, DeviceInterface.holder]
        · rfl
      · rw [List.map_append, List.nodup_append]
        refine ⟨sound.apart, List.nodup_singleton _, ?_⟩
        intro old here new there
        obtain ⟨child, listed, rfl⟩ := List.mem_map.mp here
        rw [List.map_singleton, List.mem_singleton] at there
        rw [there]
        exact Nat.ne_of_lt (sound.made child listed)
      · intro child here
        rcases List.mem_append.mp here with old | new
        · exact Nat.lt_succ_of_lt (sound.made child old)
        · rw [List.mem_singleton.mp new]
          exact Nat.lt_succ_self _
      · rw [Listed, List.map_append]
        exact List.prefix_append _ _

theorem fdoPnp_sound (sys : System) (minor : MinorFunction) (irp : IoStatus) {bus : Bus}
    (sound : Sound bus) :
    Sound (fdoPnp sys bus minor irp).1 ∧ Grows sys.switches bus (fdoPnp sys bus minor irp).1 := by
  unfold fdoPnp
  split
  · exact autoEnumerateChild_sound sys sound
  · split
    · exact ⟨sound, grows_refl _ bus⟩
    · exact ⟨sound, grows_refl _ bus⟩
  · exact ⟨sound, grows_refl _ bus⟩

theorem setChild_devices {bus : Bus} {n : Nat} (inside : n < bus.children.length)
    (served : Served) :
    (setChild bus n bus.children[n] served).children.map Child.childDeviceObject =
      bus.children.map Child.childDeviceObject := by
  change (bus.children.set n _).map _ = _
  rw [List.map_set]
  apply List.ext_getElem?
  intro m
  by_cases it : n = m
  · subst it
    rw [List.getElem?_set_self (by simpa using inside), List.getElem?_map,
      List.getElem?_eq_getElem inside]
    rfl
  · rw [List.getElem?_set_ne it]

theorem childPnp_sound (sys : System) (pdo : Device) (minor : MinorFunction) (irp : IoStatus)
    {bus : Bus} (sound : Sound bus) :
    ∃ after answer, childPnp sys bus pdo minor irp = some (after, answer) ∧ Sound after ∧
      Grows sys.switches bus after := by
  unfold childPnp
  cases found : findChildByPdo bus pdo with
  | none => exact ⟨bus, _, rfl, sound, grows_refl _ bus⟩
  | some n =>
    obtain ⟨inside, -⟩ := List.findIdx?_eq_some_iff_getElem.mp found
    have there : bus.children[n]? = some bus.children[n] := List.getElem?_eq_getElem inside
    have here : holderAt bus.children n = bus.children[n].interface.holder := by
      rw [holderAt, there]
      rfl
    obtain ⟨served, answered, obeyed, kept⟩ := pdoPnp_kept sys minor irp sound.names here
    simp only [there, answered, Option.bind_eq_bind, Option.bind_some]
    have devices := setChild_devices inside served
    refine ⟨_, _, rfl, ⟨?_, ?_, ?_⟩, ?_, obeyed⟩
    · rw [setChild, holderAt_set inside]
      exact kept
    · rw [devices]
      exact sound.apart
    · intro child listed
      have known : child.childDeviceObject ∈ bus.children.map Child.childDeviceObject := by
        rw [← devices]
        exact List.mem_map_of_mem listed
      obtain ⟨old, among, same⟩ := List.mem_map.mp known
      rw [← same]
      exact sound.made old among
    · rw [Listed, devices]

theorem step_sound (bus : Bus) (event : Event) (sound : Sound bus) :
    ∃ after, step (some bus) event = some after ∧ Sound after ∧ Grows event.switches bus after := by
  cases event with
  | pass sys minor irp => exact ⟨_, rfl, fdoPnp_sound sys minor irp sound⟩
  | request sys pdo minor irp =>
    obtain ⟨after, answer, served, kept⟩ := childPnp_sound sys pdo minor irp sound
    refine ⟨after, ?_, kept⟩
    simp only [step, served, Option.bind_eq_bind, Option.bind_some, Option.map_some]

theorem run_sound (events : List Event) {bus : Bus} (sound : Sound bus) :
    ∃ after, run step (some bus) events = some after ∧ (Sound after ∧ Listed bus after) ∧
      ((∀ event ∈ events, event.switches = true) → after.names.refused ⊆ bus.names.refused) := by
  have keep (now : Bus) (event : Event) (h : Sound now ∧ Listed bus now) :
      ∃ next, step (some now) event = some next ∧ (Sound next ∧ Listed bus next) ∧
        (event.switches = true → next.names.refused ⊆ now.names.refused) := by
    obtain ⟨next, stepped, kept, grown⟩ := step_sound now event h.1
    exact ⟨next, stepped, ⟨kept, h.2.trans grown.listed⟩, grown.obeyed⟩
  exact defined_run_related (R := fun now next : Bus => next.names.refused ⊆ now.names.refused)
    (fun _ => Finset.Subset.refl _) (fun _ _ _ first second => second.trans first) keep events
    ⟨sound, List.prefix_rfl⟩

theorem exists_holderAt (R : Holder → Nat → Prop) (children : List Child) (name : Nat)
    (nobody : ¬ R noInterface.holder name) :
    (∃ n, R (holderAt children n) name) ↔ ∃ child ∈ children, R (childHolder child) name := by
  constructor
  · rintro ⟨n, here⟩
    cases at_n : children[n]? with
    | none =>
      rw [holderAt, at_n] at here
      exact absurd here nobody
    | some child =>
      rw [holderAt, at_n] at here
      exact ⟨child, List.mem_of_getElem? at_n, here⟩
  · rintro ⟨child, listed, here⟩
    obtain ⟨n, at_n⟩ := List.mem_iff_getElem?.mp listed
    refine ⟨n, ?_⟩
    rw [holderAt, at_n]
    exact here

/-- Whatever the requests and the answers, exactly the registered children's names are given out,
    each to one child. Exactly those of started children are enabled, except where the system
    refused the last switch of a name; and it refused none if every answer was a success. -/
theorem children_interfaces (events : List Event) :
    ∃ bus, run step (some driverEntry) events = some bus ∧
      (bus.children.map Child.childDeviceObject).Nodup ∧
      (∀ name, name ∈ bus.names.live ↔ ∃ child ∈ bus.children,
        child.interface.interfaceRegistered = true ∧ child.interface.interfaceName = name) ∧
      (∀ name, name ∉ bus.names.refused → (name ∈ bus.names.on ↔ ∃ child ∈ bus.children,
        (child.interface.interfaceRegistered = true ∧ child.interface.interfaceName = name) ∧
          child.interface.started = true)) ∧
      ((∀ event ∈ events, event.switches = true) → bus.names.refused = ∅) ∧
      ∀ child ∈ bus.children, ∀ other ∈ bus.children,
        child.interface.interfaceRegistered = true → other.interface.interfaceRegistered = true →
        child.interface.interfaceName = other.interface.interfaceName → child = other := by
  obtain ⟨bus, ran, ⟨sound, -⟩, obeyed⟩ := run_sound events sound_driverEntry
  have unheld : noInterface.holder.held = false := rfl
  refine ⟨bus, ran, sound.apart, ?_, ?_, ?_, ?_⟩
  · intro name
    rw [sound.names.live, exists_holderAt Holder.holds bus.children name
      (by simp [Holder.holds, unheld])]
    rfl
  · intro name switched
    rw [sound.names.on name switched, exists_holderAt Holder.enables bus.children name
      (by simp [Holder.enables, Holder.holds, unheld])]
    rfl
  · intro answered
    exact Finset.subset_empty.mp (obeyed answered)
  · intro child listed other among registered too same
    obtain ⟨n, at_n⟩ := List.mem_iff_getElem?.mp listed
    obtain ⟨m, at_m⟩ := List.mem_iff_getElem?.mp among
    have equal : n = m := by
      apply sound.names.own n m child.interface.interfaceName
      · rw [holderAt, at_n]
        exact ⟨registered, rfl⟩
      · rw [holderAt, at_m]
        exact ⟨too, same.symm⟩
    rw [equal, at_m] at at_n
    exact (Option.some.inj at_n).symm

theorem relations_reported (sys : System) (bus : Bus) (irp : IoStatus)
    (memory : sys.memory = true) :
    (fdoPnp sys bus (.queryDeviceRelations true) irp).2 =
      ⟨statusSuccess, .relations (bus.children.map Child.childDeviceObject)⟩ := by
  rw [fdoPnp, if_pos memory]

/-- A child that the bus has reported once is reported ever after, at the same place, removed or
    not. -/
theorem relations_keep_removed (earlier later : List Event) (sys : System) (irp : IoStatus)
    (memory : sys.memory = true) :
    ∃ bus after before now, run step (some driverEntry) earlier = some bus ∧
      run step (some bus) later = some after ∧
      (fdoPnp sys bus (.queryDeviceRelations true) irp).2 = ⟨statusSuccess, .relations before⟩ ∧
      (fdoPnp sys after (.queryDeviceRelations true) irp).2 = ⟨statusSuccess, .relations now⟩ ∧
        before <+: now := by
  obtain ⟨bus, ran, ⟨sound, -⟩, -⟩ := run_sound earlier sound_driverEntry
  obtain ⟨after, more, ⟨-, grown⟩, -⟩ := run_sound later sound
  exact ⟨bus, after, _, _, ran, more, relations_reported sys bus irp memory,
    relations_reported sys after irp memory, grown⟩

theorem removed_child_reported :
    ∃ bus after before now,
      run step (some driverEntry) [.pass ⟨true, 0, 0, 0⟩ .startDevice ⟨0, .nothing⟩] = some bus ∧
      run step (some bus) [.request ⟨true, 0, 0, 0⟩ 1 .startDevice ⟨0, .nothing⟩,
        .request ⟨true, 0, 0, 0⟩ 1 .removeDevice ⟨0, .nothing⟩] = some after ∧
      (fdoPnp ⟨true, 0, 0, 0⟩ bus (.queryDeviceRelations true) ⟨0, .nothing⟩).2 =
        ⟨statusSuccess, .relations before⟩ ∧
      (fdoPnp ⟨true, 0, 0, 0⟩ after (.queryDeviceRelations true) ⟨0, .nothing⟩).2 =
        ⟨statusSuccess, .relations now⟩ ∧
      before <+: now :=
  relations_keep_removed _ _ ⟨true, 0, 0, 0⟩ ⟨0, .nothing⟩ rfl

def nested (sys : Nat → System) (minor : MinorFunction) : Nat → Bus × IoStatus → Bus × IoStatus
  | 0, s => s
  | room + 1, s => nested sys minor room (fdoPnp (sys room) s.1 minor s.2)

def makesChild (sys : System) : Bool := sys.memory && ntSuccess sys.createDevice

theorem startDevice_children (sys : System) (bus : Bus) (irp : IoStatus) :
    (fdoPnp sys bus .startDevice irp).1.children.length =
      bus.children.length + (makesChild sys).toNat := by
  unfold fdoPnp autoEnumerateChild makesChild
  cases sys.memory <;> cases ntSuccess sys.createDevice <;> simp

/-- The bus device passes its requests to itself: no stack is deep enough for one, and a START
    makes a child in every nested call that gets one. -/
theorem bus_request_never_returns (sys : Nat → System) (room : Nat) (bus : Bus)
    (minor : MinorFunction) (irp : IoStatus) :
    dispatchPnp sys room bus bus.busDeviceObject minor irp = none ∧
      (nested sys .startDevice room (bus, irp)).1.children.length =
        bus.children.length + ((List.range room).filter fun call =>
          makesChild (sys call)).length := by
  induction room generalizing bus irp with
  | zero => exact ⟨rfl, rfl⟩
  | succ room ih =>
    constructor
    · rw [dispatchPnp, if_pos rfl]
      exact (ih _ _).1
    · rw [nested, (ih _ _).2, startDevice_children, List.range_succ, List.filter_append,
        List.length_append]
      cases here : makesChild (sys room) with
      | true =>
        simp [here]
        omega
      | false => simp [here]

end BusRuns
