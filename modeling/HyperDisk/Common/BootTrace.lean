import Mathlib.Data.List.Induction
import HyperDisk.Foundations.PackedFields
import HyperDisk.Foundations.RecentSlots
import HyperDisk.Foundations.StepRuns
import HyperDisk.Foundations.WordCounters

/- The boot IO trace (hd_boot_trace). Its counters are atomics, so calls take effect one after
   another; they are uint32_t and wrap. buffer_ is given by its elements, whose indices are
   always taken modulo its size. -/
namespace BootTrace
open PackedFields StepRuns RecentSlots WordCounters

def bootTraceBufSize : UInt32 := 65536

inductive BootIoType where
  | read
  | write
  | cacheHit
  | cacheMiss
  | netSend
  | netRecv
  | overlayHit
  | prefetch
  deriving DecidableEq, Repr

structure BootIoEvent where
  timestampNs : UInt64
  ioType : BootIoType
  layerId : UInt8
  cacheLevel : UInt8
  reserved : UInt8
  status : UInt32
  blockAddr : UInt64
  blockCount : UInt32
  latencyUs : UInt32
  imageId : UInt64
  requestId : UInt64
  padding : Chars 16
  deriving DecidableEq

structure BootIoTrace where
  buffer : Nat → BootIoEvent
  writePos : UInt32
  count : UInt32
  nextRequestId : UInt64

def zeroEvent : BootIoEvent :=
  ⟨0, .read, 0, 0, 0, 0, 0, 0, 0, 0, 0, List.replicate 16 0, List.length_replicate⟩

def newTrace : BootIoTrace := ⟨fun _ => zeroEvent, 0, 0, 1⟩

def recordEvent (s : BootIoTrace) (event : BootIoEvent) : BootIoTrace :=
  let pos := s.writePos % bootTraceBufSize
  { s with
    buffer := fun i => if i = pos.toNat then event else s.buffer i
    writePos := s.writePos + 1
    count := s.count + 1 }

def recordIo (s : BootIoTrace) (type : BootIoType) (blockAddr : UInt64)
    (blockCount latencyUs : UInt32) (cacheLevel : UInt8) (status : UInt32) (now : UInt64) :
    BootIoTrace :=
  recordEvent { s with nextRequestId := s.nextRequestId + 1 }
    { zeroEvent with
      timestampNs := now
      ioType := type
      blockAddr := blockAddr
      blockCount := blockCount
      latencyUs := latencyUs
      cacheLevel := cacheLevel
      status := status
      requestId := s.nextRequestId }

/-- The loop of GetEvents from index i on; `none` is a store outside out_buffer. -/
def copyLoop (s : BootIoTrace) (pos toCopy : UInt32) :
    Nat → Nat → List BootIoEvent → Option (List BootIoEvent)
  | _, 0, out => some out
  | i, left + 1, out =>
    let srcIdx := (pos - toCopy + UInt32.ofNat i) % bootTraceBufSize
    if i < out.length then copyLoop s pos toCopy (i + 1) left (out.set i (s.buffer srcIdx.toNat))
    else none

def toCopy (s : BootIoTrace) (maxCount : UInt32) : UInt32 :=
  if s.count < maxCount then s.count else maxCount

def getEvents (s : BootIoTrace) (out : List BootIoEvent) (maxCount : UInt32) :
    Option (UInt32 × List BootIoEvent) := do
  let out ← copyLoop s s.writePos (toCopy s maxCount) 0 (toCopy s maxCount).toNat out
  some (toCopy s maxCount, out)

def reset (s : BootIoTrace) : BootIoTrace := { s with writePos := 0, count := 0 }

section Runs
variable {s : BootIoTrace} {events : List BootIoEvent}

structure Traced (events : List BootIoEvent) (s : BootIoTrace) : Prop where
  position : s.writePos.toNat = events.length % 2 ^ 32
  count : s.count.toNat = events.length % 2 ^ 32
  recent : Recent 65536 (fun i => some (s.buffer i)) events

theorem traced_reset (s : BootIoTrace) : Traced [] (reset s) := ⟨rfl, rfl, recent_nil⟩

theorem slot_toNat (pos : UInt32) : (pos % bootTraceBufSize).toNat = pos.toNat % 65536 :=
  UInt32.toNat_mod pos bootTraceBufSize

theorem succ_toNat {n : UInt32} {length : Nat} (same : n.toNat = length % 2 ^ 32) :
    (n + 1).toNat = (length + 1) % 2 ^ 32 := by
  rw [succ_mod, same, Nat.mod_add_mod]

theorem traced_record (h : Traced events s) (event : BootIoEvent) :
    Traced (events ++ [event]) (recordEvent s event) := by
  have slot : (s.writePos % bootTraceBufSize).toNat = events.length % 65536 := by
    rw [slot_toNat, h.position]
    omega
  constructor
  · rw [List.length_append, List.length_singleton]
    exact succ_toNat h.position
  · rw [List.length_append, List.length_singleton]
    exact succ_toNat h.count
  · apply recent_push h.recent
    · simp only [recordEvent, slot, if_true]
    · intro j _ other
      simp only [recordEvent, slot, other, if_false]

theorem traced_run (s : BootIoTrace) (events : List BootIoEvent) :
    Traced events (run recordEvent (reset s) events) := by
  induction events using List.reverseRecOn with
  | nil => exact traced_reset s
  | append_singleton events event ih =>
    rw [run_append]
    exact traced_record ih event

theorem copyLoop_eq (s : BootIoTrace) (pos toCopy : UInt32) (i left : Nat) (out : List BootIoEvent)
    (room : i + left ≤ out.length) :
    copyLoop s pos toCopy i left out = some (out.take i ++
      (List.range' i left).map (fun j =>
        s.buffer ((pos - toCopy + UInt32.ofNat j) % bootTraceBufSize).toNat) ++
      out.drop (i + left)) := by
  induction left generalizing i out with
  | zero => simp [copyLoop]
  | succ left ih =>
    have inside : i < out.length := by omega
    have front : ∀ e : BootIoEvent, (out.set i e).take (i + 1) = out.take i ++ [e] := by
      intro e
      rw [List.take_succ_eq_append_getElem (by rw [List.length_set]; exact inside),
        List.take_set_of_le (Nat.le_refl i), List.getElem_set_self]
    rw [copyLoop, if_pos inside, ih (i + 1) _ (by rw [List.length_set]; omega), front,
      List.drop_set_of_lt (by omega), List.range'_succ, List.map_cons, List.append_assoc,
      List.append_assoc, List.append_assoc, Nat.add_assoc, Nat.add_comm 1 left]
    rfl

theorem copied_latest (h : Traced events s) (few : events.length < 2 ^ 32) {toCopy : UInt32}
    (some_of : toCopy.toNat ≤ events.length) (fits : toCopy.toNat ≤ 65536) :
    (List.range' 0 toCopy.toNat).map (fun j =>
        s.buffer ((s.writePos - toCopy + UInt32.ofNat j) % bootTraceBufSize).toNat) =
      events.drop (events.length - toCopy.toNat) := by
  apply List.ext_getElem?
  intro j
  by_cases inside : j < toCopy.toNat
  · have index : ((s.writePos - toCopy + UInt32.ofNat j) % bootTraceBufSize).toNat =
        (events.length - toCopy.toNat + j) % 65536 := by
      rw [slot_toNat, UInt32.toNat_add, UInt32.toNat_sub, h.position,
        UInt32.toNat_ofNat_of_lt' (show j < 2 ^ 32 by omega)]
      have small := toCopy.toNat_lt
      omega
    have bound : events.length - toCopy.toNat + j < events.length := by omega
    have found := List.getElem?_eq_getElem bound
    have slot := h.recent _ _ found (by omega)
    rw [List.getElem?_drop, List.getElem?_map, List.getElem?_range' inside, Option.map_some, found,
      Nat.zero_add, Nat.one_mul, index]
    exact slot
  · rw [List.getElem?_eq_none (by simpa using inside), List.getElem?_eq_none (by simp; omega)]

theorem toCopy_toNat (h : Traced events s) (few : events.length < 2 ^ 32) (maxCount : UInt32) :
    (toCopy s maxCount).toNat = min events.length maxCount.toNat := by
  unfold toCopy
  have count := h.count
  rw [Nat.mod_eq_of_lt few] at count
  by_cases fewer : s.count < maxCount
  · rw [if_pos fewer, count]
    rw [UInt32.lt_iff_toNat_lt] at fewer
    omega
  · rw [if_neg fewer]
    rw [UInt32.lt_iff_toNat_lt] at fewer
    omega

theorem getEvents_returns (h : Traced events s) (few : events.length < 2 ^ 32)
    (out : List BootIoEvent) (maxCount : UInt32) (room : maxCount.toNat ≤ out.length) :
    ∃ returned filled, getEvents s out maxCount = some (returned, filled) ∧
      returned.toNat = min events.length maxCount.toNat ∧
      (min events.length maxCount.toNat ≤ 65536 →
        filled = events.drop (events.length - returned.toNat) ++ out.drop returned.toNat) := by
  have size := toCopy_toNat h few maxCount
  refine ⟨toCopy s maxCount, (List.range' 0 (toCopy s maxCount).toNat).map (fun j => s.buffer
    ((s.writePos - toCopy s maxCount + UInt32.ofNat j) % bootTraceBufSize).toNat) ++
    out.drop (toCopy s maxCount).toNat, ?_, size, ?_⟩
  · rw [getEvents, copyLoop_eq _ _ _ _ _ _ (by omega), List.take_zero, List.nil_append,
      Nat.zero_add]
    rfl
  · intro fits
    rw [copied_latest h few (by omega) (by omega)]

theorem recent_events_iff (s : BootIoTrace) (events : List BootIoEvent)
    (few : events.length < 2 ^ 32) (out : List BootIoEvent) (maxCount : UInt32)
    (room : maxCount.toNat ≤ out.length) :
    (∃ returned, returned.toNat = min events.length (min maxCount.toNat 65536) ∧
      getEvents (run recordEvent (reset s) events) out maxCount =
        some (returned, events.drop (events.length - returned.toNat) ++ out.drop returned.toNat)) ↔
      min events.length maxCount.toNat ≤ 65536 := by
  obtain ⟨returned, filled, result, count, latest⟩ :=
    getEvents_returns (traced_run s events) few out maxCount room
  constructor
  · rintro ⟨claimed, size, same⟩
    rw [result] at same
    cases same
    omega
  · intro fits
    exact ⟨returned, by omega, by rw [result, latest fits]⟩

end Runs

def readEvent : BootIoEvent := { zeroEvent with blockAddr := 7 }

theorem two_events_returned :
    getEvents (run recordEvent (reset newTrace) [zeroEvent, readEvent]) [zeroEvent, zeroEvent] 2 =
      some (2, [zeroEvent, readEvent]) := by
  obtain ⟨returned, size, result⟩ := (recent_events_iff newTrace [zeroEvent, readEvent] (by decide)
    [zeroEvent, zeroEvent] 2 (by decide)).mpr (by decide)
  cases UInt32.toNat_inj.mp (size.trans (show _ = (2 : UInt32).toNat by rfl))
  exact result

/-- After 65537 events a caller with room for them gets 65537, one of them twice. -/
theorem repeated_event_returned :
    ∃ filled, getEvents (run recordEvent (reset newTrace) (List.replicate 65537 readEvent))
        (List.replicate 65537 zeroEvent) 65537 = some (65537, filled) ∧
      min (List.replicate 65537 readEvent).length (min (65537 : UInt32).toNat 65536) = 65536 := by
  have length : (List.replicate 65537 readEvent).length = 65537 := List.length_replicate
  obtain ⟨returned, filled, result, count, _⟩ :=
    getEvents_returns (traced_run newTrace (List.replicate 65537 readEvent))
      (by rw [length]; decide)
      (List.replicate 65537 zeroEvent) 65537 (by rw [List.length_replicate]; decide)
  rw [length] at count ⊢
  cases UInt32.toNat_inj.mp (count.trans (show _ = (65537 : UInt32).toNat by rfl))
  exact ⟨filled, result, by decide⟩

end BootTrace
