import Mathlib.Data.Fintype.Card
import Mathlib.Data.List.FinRange
import HyperDisk.Foundations.StepRuns
import HyperDisk.Foundations.WordCounters

/- The connection table of the network driver (net_connect.c, net_driver.c): its counter, its
   slots and the indices it hands out. -/
namespace NetConnections
open StepRuns WordCounters

inductive Status where
  | success
  | insufficientResources
  | invalidParameter
  deriving DecidableEq, Repr

structure SockAddrIn where
  sinFamily : UInt16
  sinPort : UInt16
  sinAddr : UInt32
  deriving DecidableEq, Repr

structure NetConnection where
  isActive : Bool
  serverAddr : SockAddrIn
  retryCount : UInt32
  deriving DecidableEq, Repr

abbrev Slot := Fin 64

structure NetExtension where
  connectionCount : UInt32
  connections : Slot → NetConnection
  nextFrameId : UInt32

def initialNet : NetExtension := ⟨0, fun _ => ⟨false, ⟨0, 0, 0⟩, 0⟩, 1⟩

def byteSwap (port : UInt16) : UInt16 := (port <<< 8) ||| (port >>> 8)

def firstInactive (ext : NetExtension) : Option Slot :=
  (List.finRange 64).find? fun i => !(ext.connections i).isActive

/-- HdNetConnect, which never reads its ServerAddr; the index is what it stores through
    ConnIdx. -/
def connect (ext : NetExtension) (port : UInt16) : Status × Option UInt32 × NetExtension :=
  match firstInactive ext with
  | some i =>
    (.success, some (UInt32.ofNat i), { ext with
      connections := Function.update ext.connections i ⟨true, ⟨2, byteSwap port, 0⟩, 0⟩
      connectionCount := ext.connectionCount + 1 })
  | none => (.insufficientResources, none, ext)

def disconnect (ext : NetExtension) (connIdx : UInt32) : Status × NetExtension :=
  if h : connIdx.toNat < 64 then
    (.success, { ext with
      connections := Function.update ext.connections ⟨connIdx.toNat, h⟩
        { ext.connections ⟨connIdx.toNat, h⟩ with isActive := false }
      connectionCount := ext.connectionCount - 1 })
  else (.invalidParameter, ext)

def cleanupSlot (ext : NetExtension) (i : Slot) : NetExtension :=
  if (ext.connections i).isActive then (disconnect ext (UInt32.ofNat i)).2 else ext

def cleanup (ext : NetExtension) : NetExtension := (List.finRange 64).foldl cleanupSlot ext

inductive Call where
  | connect (port : UInt16)
  | disconnect (connIdx : UInt32)
  | cleanup
  deriving DecidableEq, Repr

/-- The table with the indices of the connections that are open: handed out, and neither
    disconnected nor cleaned up since. -/
structure Session where
  ext : NetExtension
  opened : List UInt32

def newSession : Session := ⟨initialNet, []⟩

def step (s : Session) : Call → Session
  | .connect port => ⟨(connect s.ext port).2.2, s.opened ++ (connect s.ext port).2.1.toList⟩
  | .disconnect connIdx => ⟨(disconnect s.ext connIdx).2, s.opened.filter (· ≠ connIdx)⟩
  | .cleanup => ⟨cleanup s.ext, []⟩

def activeSlots (ext : NetExtension) : Finset Slot :=
  Finset.univ.filter fun i => (ext.connections i).isActive

def Counted (ext : NetExtension) : Prop := ext.connectionCount.toNat = (activeSlots ext).card

def ConnectsFree (ext : NetExtension) : Prop :=
  ∀ port, ((connect ext port).1 = .success ↔ ∃ i, (ext.connections i).isActive = false) ∧
    ((connect ext port).1 = .success →
      ∃ i : Slot, (connect ext port).2.1 = some (UInt32.ofNat i) ∧
        (ext.connections i).isActive = false)

structure Accounted (s : Session) : Prop where
  counted : Counted s.ext
  limit : s.ext.connectionCount.toNat ≤ 64
  connects : ConnectsFree s.ext
  distinct : s.opened.Nodup

def ActiveClosed (s : Session) : Call → Prop
  | .disconnect connIdx => ∀ h : connIdx.toNat < 64,
      (s.ext.connections ⟨connIdx.toNat, h⟩).isActive = true
  | _ => True

structure Owned (s : Session) : Prop where
  distinct : s.opened.Nodup
  active : ∀ idx ∈ s.opened, ∃ h : idx.toNat < 64,
    (s.ext.connections ⟨idx.toNat, h⟩).isActive = true

theorem mem_activeSlots {ext : NetExtension} {i : Slot} :
    i ∈ activeSlots ext ↔ (ext.connections i).isActive = true := by
  simp [activeSlots]

theorem slot_toNat (i : Slot) : (UInt32.ofNat i).toNat = i := by
  rw [UInt32.toNat_ofNat']
  exact Nat.mod_eq_of_lt (by have := i.isLt; omega)

theorem firstInactive_some {ext : NetExtension} {i : Slot} (found : firstInactive ext = some i) :
    (ext.connections i).isActive = false := by
  simpa using List.find?_some found

theorem firstInactive_none {ext : NetExtension} (missing : firstInactive ext = none) (i : Slot) :
    (ext.connections i).isActive = true := by
  have passed := List.find?_eq_none.mp missing i (List.mem_finRange i)
  simpa using passed

theorem connects_free (ext : NetExtension) : ConnectsFree ext := by
  intro port
  cases found : firstInactive ext with
  | none =>
    have all := firstInactive_none found
    simp [connect, found, all]
  | some i =>
    have inactive := firstInactive_some found
    refine ⟨⟨fun _ => ⟨i, inactive⟩, fun _ => by simp [connect, found]⟩, fun _ => ⟨i, ?_, inactive⟩⟩
    simp [connect, found]

theorem counted_limit {ext : NetExtension} (h : Counted ext) : ext.connectionCount.toNat ≤ 64 := by
  rw [h]
  simpa using Finset.card_le_univ (activeSlots ext)

theorem connect_active {ext : NetExtension} {i : Slot} (found : firstInactive ext = some i)
    (port : UInt16) : activeSlots (connect ext port).2.2 = insert i (activeSlots ext) := by
  ext j
  by_cases same : j = i
  · subst same
    simp [mem_activeSlots, connect, found]
  · simp [mem_activeSlots, connect, found, same]

theorem disconnect_slot (ext : NetExtension) (i : Slot) :
    (disconnect ext (UInt32.ofNat i)).2 = { ext with
      connections := Function.update ext.connections i { ext.connections i with isActive := false }
      connectionCount := ext.connectionCount - 1 } := by
  simp only [disconnect, slot_toNat, i.isLt, dif_pos, Fin.eta]

theorem disconnect_active (ext : NetExtension) (i : Slot) :
    activeSlots (disconnect ext (UInt32.ofNat i)).2 = (activeSlots ext).erase i := by
  rw [disconnect_slot]
  ext j
  by_cases same : j = i
  · subst same
    simp [mem_activeSlots]
  · simp [mem_activeSlots, same]

theorem connect_counted {ext : NetExtension} (h : Counted ext) (port : UInt16) :
    Counted (connect ext port).2.2 := by
  cases found : firstInactive ext with
  | none => simpa [connect, found] using h
  | some i =>
    have fresh : i ∉ activeSlots ext := by
      rw [mem_activeSlots, firstInactive_some found]
      exact Bool.false_ne_true
    have below := counted_limit h
    rw [Counted, connect_active found, Finset.card_insert_of_notMem fresh, ← h]
    simp only [connect, found]
    exact succ_of_room (by omega)

theorem disconnect_counted_iff {ext : NetExtension} (h : Counted ext) (i : Slot) :
    Counted (disconnect ext (UInt32.ofNat i)).2 ↔ (ext.connections i).isActive = true := by
  rw [← mem_activeSlots, Counted, disconnect_active, disconnect_slot]
  by_cases mem : i ∈ activeSlots ext
  · apply iff_of_true _ mem
    apply pred_of_succ
    rw [h, Finset.card_erase_add_one mem]
  · apply iff_of_false _ mem
    rw [Finset.erase_eq_of_notMem mem, ← h]
    exact pred_ne ext.connectionCount

theorem cleanup_counted {ext : NetExtension} (h : Counted ext) : Counted (cleanup ext) := by
  have loop : ∀ (slots : List Slot) (ext : NetExtension), Counted ext →
      Counted (slots.foldl cleanupSlot ext) := by
    intro slots
    induction slots with
    | nil => exact fun _ h => h
    | cons i slots ih =>
      intro ext h
      apply ih
      rw [cleanupSlot]
      split
      · rename_i active
        exact (disconnect_counted_iff h i).mpr active
      · exact h
  exact loop _ ext h

theorem disconnect_invalid {ext : NetExtension} {connIdx : UInt32} (h : ¬ connIdx.toNat < 64) :
    (disconnect ext connIdx).2 = ext := by
  simp [disconnect, h]

theorem owned_connect {s : Session} (h : Owned s) (port : UInt16) :
    Owned (step s (.connect port)) := by
  cases found : firstInactive s.ext with
  | none => simpa [step, connect, found] using ⟨h.distinct, h.active⟩
  | some i =>
    have inactive := firstInactive_some found
    have fresh : UInt32.ofNat i ∉ s.opened := by
      intro mem
      obtain ⟨_, active⟩ := h.active _ mem
      simp only [slot_toNat] at active
      rw [Fin.eta, inactive] at active
      cases active
    constructor
    · simp only [step, connect, found, Option.toList]
      rw [← List.concat_eq_append]
      exact h.distinct.concat fresh
    · intro idx mem
      simp only [step, connect, found, Option.toList, List.mem_append, List.mem_singleton] at mem
      rcases mem with earlier | new
      · obtain ⟨valid, active⟩ := h.active idx earlier
        refine ⟨valid, ?_⟩
        simp only [step, connect, found]
        by_cases same : (⟨idx.toNat, valid⟩ : Slot) = i
        · simp [same]
        · simp [same, active]
      · subst new
        refine ⟨by rw [slot_toNat]; exact i.isLt, ?_⟩
        simp only [step, connect, found, slot_toNat, Fin.eta, Function.update_self]

theorem owned_disconnect {s : Session} (h : Owned s) (connIdx : UInt32) :
    Owned (step s (.disconnect connIdx)) := by
  constructor
  · exact h.distinct.filter _
  · intro idx mem
    obtain ⟨earlier, other⟩ := List.mem_filter.mp mem
    obtain ⟨valid, active⟩ := h.active idx earlier
    refine ⟨valid, ?_⟩
    by_cases inRange : connIdx.toNat < 64
    · have different : (⟨idx.toNat, valid⟩ : Slot) ≠ ⟨connIdx.toNat, inRange⟩ := by
        intro same
        have equal : idx = connIdx := UInt32.toNat_inj.mp (Fin.mk.inj same)
        simp [equal] at other
      simp only [step, disconnect, inRange, dif_pos, Function.update_of_ne different]
      exact active
    · rw [step, disconnect_invalid inRange]
      exact active

theorem owned_step (s : Session) (c : Call) (h : Owned s) : Owned (step s c) := by
  cases c with
  | connect port => exact owned_connect h port
  | disconnect connIdx => exact owned_disconnect h connIdx
  | cleanup => exact ⟨List.nodup_nil, fun _ mem => absurd mem List.not_mem_nil⟩

theorem accounted_iff_counted {s : Session} (h : Owned s) : Accounted s ↔ Counted s.ext := by
  constructor
  · exact fun accounted => accounted.counted
  · intro counted
    exact ⟨counted, counted_limit counted, connects_free s.ext, h.distinct⟩

theorem counted_step_iff {s : Session} (h : Counted s.ext) (c : Call) :
    Counted (step s c).ext ↔ ActiveClosed s c := by
  cases c with
  | connect port => exact iff_of_true (connect_counted h port) trivial
  | cleanup =>
    have counted := cleanup_counted h
    simp only [step, ActiveClosed, counted]
  | disconnect connIdx =>
    by_cases valid : connIdx.toNat < 64
    · have closed := disconnect_counted_iff h ⟨connIdx.toNat, valid⟩
      simp only [UInt32.ofNat_toNat] at closed
      rw [step, closed]
      simp [ActiveClosed, valid]
    · rw [step, disconnect_invalid valid]
      exact iff_of_true h fun inRange => absurd inRange valid

/-- The table is accounted for throughout exactly when no call disconnects an inactive slot. -/
theorem connections_accounted_iff (calls : List Call) :
    Always step Accounted newSession calls ↔ Meets step ActiveClosed newSession calls := by
  have owned : Owned newSession := ⟨List.nodup_nil, fun _ mem => absurd mem List.not_mem_nil⟩
  have counted : Counted newSession.ext := by
    simp [Counted, newSession, initialNet, activeSlots]
  apply always_iff_meets owned ((accounted_iff_counted owned).mpr counted) owned_step
  intro s c own accounted
  rw [accounted_iff_counted (owned_step s c own)]
  exact counted_step_iff accounted.counted c

theorem idle_disconnect_counted :
    let s := run step newSession [.disconnect 0]
    ¬ Accounted s ∧ s.ext.connectionCount = 4294967295 ∧
      ∀ i, (s.ext.connections i).isActive = false := by
  refine ⟨fun accounted => ?_, by decide, by decide⟩
  exact absurd accounted.limit (by decide)

end NetConnections
