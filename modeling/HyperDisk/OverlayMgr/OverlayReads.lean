import HyperDisk.Foundations.LittleEndian
import HyperDisk.Foundations.StepRuns
import HyperDisk.Foundations.WeightedMaps

/- RamOverlay keeps each write whole under its start offset. What a Read returns is compared
   with a byte-addressed memory that every write goes to as well. -/
namespace OverlayReads
open LittleEndian StepRuns WeightedMaps

structure RamOverlay where
  data : Map UInt64 Bytes

def RamOverlay.write (s : RamOverlay) (offset : UInt64) (data : Bytes) : RamOverlay × Bool :=
  (⟨s.data.insert offset data⟩, true)

/-- RamOverlay::Read; `out` is left alone when there is nothing at the offset. -/
def RamOverlay.read (s : RamOverlay) (offset : UInt64) (out : Bytes) : Bytes × Bool :=
  match s.data.lookup offset with
  | some data => (data, true)
  | none => (out, false)

def RamOverlay.clear (_ : RamOverlay) : RamOverlay := ⟨∅⟩

inductive OverlayCall where
  | write (offset : UInt64) (data : Bytes)
  | clear

/-- The overlay, and the byte last written at each address since the last Clear. -/
structure Observed where
  overlay : RamOverlay
  latest : Nat → Option UInt8

def overlayStep (t : Observed) : OverlayCall → Observed
  | .write offset data =>
    ⟨(t.overlay.write offset data).1, fun address =>
      if offset.toNat ≤ address ∧ address < offset.toNat + data.length then
        data[address - offset.toNat]?
      else t.latest address⟩
  | .clear => ⟨t.overlay.clear, fun _ => none⟩

def emptyOverlay : Observed := ⟨⟨∅⟩, fun _ => none⟩

def Current (t : Observed) : Prop :=
  (∀ offset out, (t.overlay.read offset out).2 = true → ∀ (j : Nat) (b : UInt8),
    (t.overlay.read offset out).1[j]? = some b → t.latest (offset.toNat + j) = some b) ∧
  ∀ (offset : UInt64) (out : Bytes), (t.latest offset.toNat).isSome →
    (t.overlay.read offset out).2 = true

/-- A write that starts at every address it covers but its first has been made already, and
    that agrees with each write stored under another start where the two overlap. -/
def Harmless (t : Observed) : OverlayCall → Prop
  | .write offset data =>
    (∀ other : UInt64, offset < other → other.toNat < offset.toNat + data.length →
      (t.overlay.data.lookup other).isSome) ∧
    ∀ (other : UInt64) (stored : Bytes), other ≠ offset →
      t.overlay.data.lookup other = some stored →
      ∀ (i j : Nat) (x y : UInt8), other.toNat + i = offset.toNat + j →
        stored[i]? = some x → data[j]? = some y → x = y
  | .clear => True

theorem read_iff {s : RamOverlay} {offset : UInt64} {data : Bytes} (out : Bytes) :
    s.read offset out = (data, true) ↔ s.data.lookup offset = some data := by
  unfold RamOverlay.read
  split
  · rename_i found
    rw [found]
    simp
  · rename_i absent
    rw [absent]
    simp

theorem read_found {s : RamOverlay} {offset : UInt64} (out : Bytes) :
    (s.read offset out).2 = true ↔ (s.data.lookup offset).isSome := by
  unfold RamOverlay.read
  split
  · rename_i found
    simp [found]
  · rename_i absent
    simp [absent]

theorem current_iff (t : Observed) :
    Current t ↔
      (∀ offset data, t.overlay.data.lookup offset = some data → ∀ (j : Nat) (b : UInt8),
        data[j]? = some b → t.latest (offset.toNat + j) = some b) ∧
      ∀ offset : UInt64, (t.latest offset.toNat).isSome →
        (t.overlay.data.lookup offset).isSome := by
  constructor
  · rintro ⟨returned, present⟩
    constructor
    · intro offset data found j b byte
      have whole := (read_iff []).mpr found
      exact returned offset [] (by rw [whole]) j b (by rw [whole]; exact byte)
    · intro offset written
      exact (read_found []).mp (present offset [] written)
  · rintro ⟨returned, present⟩
    constructor
    · intro offset out found j b byte
      obtain ⟨data, stored⟩ := Option.isSome_iff_exists.mp ((read_found out).mp found)
      rw [(read_iff out).mpr stored] at byte
      exact returned offset data stored j b byte
    · intro offset out written
      exact (read_found out).mpr (present offset written)

theorem harmless_of_current {t : Observed} {offset : UInt64} {data : Bytes}
    (after : Current (overlayStep t (.write offset data))) : Harmless t (.write offset data) := by
  obtain ⟨returned, present⟩ := (current_iff _).mp after
  simp only [overlayStep, RamOverlay.write, lookup_insert_eq] at returned present
  constructor
  · intro other later inside
    have above := UInt64.lt_iff_toNat_lt.mp later
    have apart : other ≠ offset := by
      rintro rfl
      omega
    have found := present other
      (by rw [if_pos ⟨by omega, inside⟩, List.getElem?_eq_getElem (by omega)]; rfl)
    rwa [if_neg apart] at found
  · intro other stored apart found i j x y same old new
    have short := (List.getElem?_eq_some_iff.mp new).1
    have byte := returned other stored (by rw [if_neg apart, found]) i x old
    rw [same, if_pos (by omega), Nat.add_sub_cancel_left, new] at byte
    exact (Option.some.inj byte).symm

theorem current_of_harmless {t : Observed} {offset : UInt64} {data : Bytes} (before : Current t)
    (harmless : Harmless t (.write offset data)) :
    Current (overlayStep t (.write offset data)) := by
  obtain ⟨returned, present⟩ := (current_iff t).mp before
  obtain ⟨started, agrees⟩ := harmless
  rw [current_iff]
  simp only [overlayStep, RamOverlay.write, lookup_insert_eq]
  constructor
  · intro other stored found j b byte
    by_cases here : other = offset
    · rw [if_pos here] at found
      cases found
      have short := (List.getElem?_eq_some_iff.mp byte).1
      rw [here, if_pos (by omega), Nat.add_sub_cancel_left, byte]
    · rw [if_neg here] at found
      split
      · rename_i covered
        -- the new write covers this address too, so it has to store the same byte
        have inside : other.toNat + j - offset.toNat < data.length := by omega
        have new := List.getElem?_eq_getElem inside
        rw [new, agrees other stored here found j _ b _ (by omega) byte new]
      · exact returned other stored found j b byte
  · intro other written
    by_cases here : other = offset
    · rw [if_pos here]
      rfl
    · rw [if_neg here]
      split at written
      · rename_i covered
        have later : offset < other := by
          rw [UInt64.lt_iff_toNat_lt]
          have apart : offset.toNat ≠ other.toNat :=
            fun same => here (UInt64.toNat_inj.mp same).symm
          omega
        exact started other later covered.2
      · exact present other written

theorem clear_current (t : Observed) : Current (overlayStep t .clear) := by
  rw [current_iff]
  constructor
  · intro offset data found
    cases found
  · intro offset written
    cases written

theorem step_current_iff (t : Observed) (call : OverlayCall) (before : Current t) :
    Current (overlayStep t call) ↔ Harmless t call := by
  cases call with
  | write offset data => exact ⟨harmless_of_current, current_of_harmless before⟩
  | clear => exact ⟨fun _ => trivial, fun _ => clear_current t⟩

/-- Reads see the latest writes throughout a run exactly when every write in it is
    harmless. -/
theorem reads_current_iff_harmless (calls : List OverlayCall) :
    Always overlayStep Current emptyOverlay calls ↔
      Meets overlayStep Harmless emptyOverlay calls :=
  always_iff_meets (I := fun _ => True) trivial (clear_current emptyOverlay) (fun _ _ _ => trivial)
    fun t call _ => step_current_iff t call

def overlappingWrites : List OverlayCall := [.write 0 [1, 2], .write 1 [9]]

theorem overlapping_write_unseen :
    ((run overlayStep emptyOverlay overlappingWrites).overlay.read 0 [] = ([1, 2], true) ∧
      (run overlayStep emptyOverlay overlappingWrites).latest 1 = some 9) ∧
    (((overlayStep emptyOverlay (.write 0 [1, 2])).overlay.read 1 []).2 = false ∧
      (overlayStep emptyOverlay (.write 0 [1, 2])).latest 1 = some 2) ∧
    ¬ Always overlayStep Current emptyOverlay overlappingWrites := by
  refine ⟨by decide +kernel, by decide +kernel, fun always => ?_⟩
  have last := (always_run always).1 0 [] (by decide +kernel) 1 2 (by decide +kernel)
  exact absurd last (by decide +kernel)

end OverlayReads
