import HyperDisk.Foundations.LittleEndian
import HyperDisk.Foundations.StepRuns
import HyperDisk.Foundations.WeightedMaps

/- The RAM tier of the smart cache and the byte counter it keeps beside its map. The capacity
   is stored and never looked at, so the counter is its only record of the memory in use. -/
namespace L1RamCache
open LittleEndian WeightedMaps StepRuns

structure Cache where
  capacity : UInt64
  used : UInt64
  hits : UInt64
  misses : UInt64
  store : Map UInt64 Bytes

def newCache (capacity : UInt64) : Cache := ⟨capacity, 0, 0, 0, ∅⟩

def Cache.lookup (c : Cache) (key : UInt64) (out : Bytes) : Cache × Bool × Bytes :=
  match c.store.lookup key with
  | some data => ({ c with hits := c.hits + 1 }, true, data)
  | none => ({ c with misses := c.misses + 1 }, false, out)

/-- Only a key that is not there yet is charged. -/
def Cache.insert (c : Cache) (key : UInt64) (data : Bytes) : Cache :=
  { c with
    used := if c.store.lookup key = none then c.used + UInt64.ofNat data.length else c.used
    store := c.store.insert key data }

def Cache.invalidate (c : Cache) (key : UInt64) : Cache :=
  match c.store.lookup key with
  | some data => { c with used := c.used - UInt64.ofNat data.length, store := c.store.erase key }
  | none => c

inductive Call where
  | lookup (key : UInt64) (out : Bytes)
  | insert (key : UInt64) (data : Bytes)
  | invalidate (key : UInt64)
  deriving DecidableEq

def callStep (c : Cache) : Call → Cache
  | .lookup key out => (c.lookup key out).1
  | .insert key data => c.insert key data
  | .invalidate key => c.invalidate key

def Cache.stored (c : Cache) : Nat := total List.length c.store

def Accounted (c : Cache) : Prop := c.used.toNat = c.stored

instance (c : Cache) : Decidable (Accounted c) := by unfold Accounted; infer_instance

def SameSize (c : Cache) : Call → Prop
  | .insert key data => ∀ old ∈ c.store.lookup key, data.length = old.length
  | _ => True

theorem lookup_used (c : Cache) (key : UInt64) (out : Bytes) :
    (c.lookup key out).1.used = c.used ∧ (c.lookup key out).1.store = c.store := by
  unfold Cache.lookup
  split <;> exact ⟨rfl, rfl⟩

theorem insert_fresh {c : Cache} {key : UInt64} (absent : c.store.lookup key = none)
    (data : Bytes) :
    (c.insert key data).used = c.used + UInt64.ofNat data.length ∧
      (c.insert key data).stored = data.length + c.stored :=
  ⟨if_pos absent, total_fresh absent data⟩

theorem insert_present {c : Cache} {key : UInt64} {old : Bytes}
    (present : c.store.lookup key = some old) (data : Bytes) :
    (c.insert key data).used = c.used ∧
      (c.insert key data).stored + old.length = data.length + c.stored := by
  refine ⟨if_neg (by simp [present]), ?_⟩
  have before : c.stored = old.length + total List.length (c.store.erase key) := total_erase present
  have after : (c.insert key data).stored = data.length + total List.length (c.store.erase key) :=
    total_insert ..
  omega

theorem invalidate_present {c : Cache} {key : UInt64} {old : Bytes}
    (present : c.store.lookup key = some old) :
    (c.invalidate key).used = c.used - UInt64.ofNat old.length ∧
      c.stored = old.length + (c.invalidate key).stored := by
  have next : c.invalidate key =
      { c with used := c.used - UInt64.ofNat old.length, store := c.store.erase key } := by
    rw [Cache.invalidate, present]
  rw [next]
  exact ⟨rfl, total_erase present⟩

theorem invalidate_absent {c : Cache} {key : UInt64} (absent : c.store.lookup key = none) :
    c.invalidate key = c := by
  rw [Cache.invalidate, absent]

theorem used_add {used : UInt64} {size : Nat} (fits : size + used.toNat < 2 ^ 64) :
    (used + UInt64.ofNat size).toNat = size + used.toNat := by
  rw [UInt64.toNat_add, UInt64.toNat_ofNat_of_lt' (by simp [UInt64.size]; omega),
    Nat.mod_eq_of_lt (by omega), Nat.add_comm]

theorem used_sub {used : UInt64} {size : Nat} (enough : size ≤ used.toNat) :
    (used - UInt64.ofNat size).toNat = used.toNat - size := by
  have bound := used.toNat_lt
  have value : (UInt64.ofNat size).toNat = size :=
    UInt64.toNat_ofNat_of_lt' (by simp [UInt64.size]; omega)
  rw [UInt64.toNat_sub_of_le _ _ (by rw [UInt64.le_iff_toNat_le, value]; exact enough), value]

theorem insert_accounted_iff {c : Cache} {key : UInt64} {data : Bytes} (accounted : Accounted c)
    (fits : (c.insert key data).stored < 2 ^ 64) :
    Accounted (c.insert key data) ↔ SameSize c (.insert key data) := by
  unfold Accounted at accounted ⊢
  cases found : c.store.lookup key with
  | none =>
    obtain ⟨used, stored⟩ := insert_fresh found data
    rw [used, stored, used_add (by omega), accounted]
    simp [SameSize, found]
  | some old =>
    obtain ⟨used, stored⟩ := insert_present found data
    rw [used, accounted]
    simp only [SameSize, found, Option.mem_some, forall_eq']
    omega

theorem invalidate_accounted {c : Cache} (key : UInt64) (accounted : Accounted c) :
    Accounted (c.invalidate key) := by
  cases found : c.store.lookup key with
  | none =>
    rw [invalidate_absent found]
    exact accounted
  | some old =>
    obtain ⟨used, stored⟩ := invalidate_present found
    unfold Accounted at accounted ⊢
    rw [used, used_sub (by omega)]
    omega

theorem step_accounted_iff (c : Cache) (call : Call) (fits : (callStep c call).stored < 2 ^ 64)
    (accounted : Accounted c) : Accounted (callStep c call) ↔ SameSize c call := by
  cases call with
  | lookup key out =>
    obtain ⟨used, store⟩ := lookup_used c key out
    have same : Accounted (callStep c (.lookup key out)) ↔ Accounted c := by
      unfold Accounted Cache.stored
      rw [callStep, used, store]
    rw [same]
    exact iff_of_true accounted trivial
  | insert key data => exact insert_accounted_iff accounted fits
  | invalidate key => exact iff_of_true (invalidate_accounted key accounted) trivial

/-- While less than 2^64 bytes are stored, the counter is right exactly as long as no key is
    inserted again with a vector of another size. -/
theorem accounted_iff_same_size (capacity : UInt64) (calls : List Call)
    (small : Always callStep (fun c => c.stored < 2 ^ 64) (newCache capacity) calls) :
    Always callStep Accounted (newCache capacity) calls ↔
      Meets callStep SameSize (newCache capacity) calls := by
  have start : Accounted (newCache capacity) := rfl
  apply always_iff_meets_under small start
  intro c call _ after accounted
  exact step_accounted_iff c call after accounted

def insertedSize : Call → Nat
  | .insert _ data => data.length
  | _ => 0

def inserted (calls : List Call) : Nat := (calls.map insertedSize).foldr (· + ·) 0

theorem step_stored_le (c : Cache) (call : Call) :
    (callStep c call).stored ≤ insertedSize call + c.stored := by
  cases call with
  | lookup key out =>
    obtain ⟨_, store⟩ := lookup_used c key out
    rw [callStep, Cache.stored, store]
    exact Nat.le_add_left ..
  | insert key data =>
    cases found : c.store.lookup key with
    | none => exact (insert_fresh found data).2.le
    | some old =>
      have stored := (insert_present found data).2
      rw [callStep, insertedSize]
      omega
  | invalidate key =>
    rw [callStep]
    cases found : c.store.lookup key with
    | none =>
      rw [invalidate_absent found]
      exact Nat.le_add_left ..
    | some old =>
      have stored := (invalidate_present found).2
      omega

theorem stored_within {c : Cache} {calls : List Call} {bound : Nat}
    (fits : inserted calls + c.stored < bound) :
    Always callStep (fun c => c.stored < bound) c calls := by
  induction calls generalizing c with
  | nil => exact lt_of_le_of_lt (Nat.le_add_left ..) fits
  | cons call calls ih =>
    have grows := step_stored_le c call
    have split : inserted (call :: calls) = insertedSize call + inserted calls := rfl
    refine ⟨by omega, ih ?_⟩
    omega

def refreshes : List Call := [.insert 1 [7, 7], .lookup 1 [], .insert 1 [8, 8], .invalidate 1]

theorem refreshes_accounted :
    inserted refreshes < 2 ^ 64 ∧ Always callStep Accounted (newCache 64) refreshes := by
  have small : Always callStep (fun c => c.stored < 2 ^ 64) (newCache 64) refreshes :=
    stored_within (by decide)
  refine ⟨by decide, (accounted_iff_same_size 64 refreshes small).mpr ?_⟩
  simp only [refreshes, Meets, SameSize, true_and, and_true]
  exact ⟨by decide, by decide⟩

/-- One byte, then two under the same key: the counter stays at one, and Invalidate takes it
    below zero. -/
theorem grown_vector_unaccounted :
    inserted [.insert 1 [7], .insert 1 [7, 8], .invalidate 1] < 2 ^ 64 ∧
      ¬ Accounted (run callStep (newCache 64) [.insert 1 [7], .insert 1 [7, 8]]) ∧
      (run callStep (newCache 64) [.insert 1 [7], .insert 1 [7, 8], .invalidate 1]).used =
        0xFFFFFFFFFFFFFFFF ∧
      (run callStep (newCache 64) [.insert 1 [7], .insert 1 [7, 8], .invalidate 1]).stored = 0 := by
  decide

end L1RamCache
