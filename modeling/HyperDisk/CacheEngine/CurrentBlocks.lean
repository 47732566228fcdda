import HyperDisk.CacheEngine.CacheInvariant

/- What Lookup delivers against what was last inserted. Insert returns at once when the key is
   there, so the cache goes stale exactly when such an Insert carries other data. -/
namespace CurrentBlocks
open LittleEndian StepRuns WeightedMaps L3SsdCache CacheInvariant

structure Observed where
  cache : L3Cache
  latest : UInt64 → Option Bytes

def record (latest : UInt64 → Option Bytes) : Call → UInt64 → Option Bytes
  | .lookup _ _, k => latest k
  | .insert key data _, k => if k = key then some data else latest k
  | .invalidate key, k => if k = key then none else latest k

def observeStep (o : Option Observed) (call : Call) : Option Observed := do
  let t ← o
  let cache ← t.cache.perform call
  some ⟨cache, record t.latest call⟩

def freshObserved (capacity threshold : UInt64) : Option Observed :=
  some ⟨newCache capacity threshold, fun _ => none⟩

/-- Every Lookup returns, and what it finds is the data of the last Insert of its key, which was
    not invalidated since. -/
def Current (o : Option Observed) : Prop :=
  ∃ t, o = some t ∧ ∀ k now, ∃ s found, t.cache.lookup k now = some (s, found) ∧
    ∀ data, found = some data → t.latest k = some data

def SameData (o : Option Observed) : Call → Prop
  | .insert k data _ => ∀ t old, o = some t → contents t.cache k = some old → old = data
  | _ => True

def Matches (t : Observed) : Prop :=
  ∀ k data, contents t.cache k = some data → t.latest k = some data

theorem lookup_finds {s : L3Cache} (h : Represented s) (k now : UInt64) :
    ∃ t, s.lookup k now = some (t, contents s k) := by
  cases stored : s.entries.lookup k with
  | none => exact ⟨_, by rw [lookup_absent stored now, contents, stored]; rfl⟩
  | some e =>
    obtain ⟨t, hit, _⟩ := lookup_present h stored now
    exact ⟨t, by rw [hit, contents, stored]; rfl⟩

theorem current_iff {t : Observed} (h : Represented t.cache) : Current (some t) ↔ Matches t := by
  constructor
  · rintro ⟨u, same, delivers⟩ k data stored
    cases same
    obtain ⟨s, found, result, right⟩ := delivers k 0
    obtain ⟨s', finds⟩ := lookup_finds h k 0
    rw [finds, stored] at result
    cases result
    exact right data rfl
  · intro every
    refine ⟨t, rfl, fun k now => ?_⟩
    obtain ⟨s, finds⟩ := lookup_finds h k now
    exact ⟨s, contents t.cache k, finds, fun data stored => every k data stored⟩

theorem sameData_of_missing {t : Observed} {k now : UInt64} {data : Bytes}
    (missing : t.cache.entries.lookup k = none) : SameData (some t) (.insert k data now) := by
  intro u old same stored
  cases same
  rw [contents, missing] at stored
  cases stored

theorem matches_update {t : Observed} {s : L3Cache} {k : UInt64} {value : Option Bytes}
    (current : Matches t) (cached : ∀ x data, contents s x = some data →
      (x = k ∧ value = some data) ∨ (x ≠ k ∧ contents t.cache x = some data)) :
    Matches ⟨s, fun x => if x = k then value else t.latest x⟩ := by
  intro x data found
  rcases cached x data found with ⟨here, same⟩ | ⟨other, before⟩
  · exact (if_pos here).trans same
  · exact (if_neg other).trans (current x data before)

theorem other_key {s : L3Cache} {k x : UInt64} {data : Bytes} (missing : s.entries.lookup k = none)
    (cached : contents s x = some data) : x ≠ k := by
  rintro rfl
  rw [contents, missing] at cached
  cases cached

theorem performed_matches_iff {t : Observed} {call : Call} {s : L3Cache}
    (current : Matches t) (done : Performed t.cache call s) :
    Matches ⟨s, record t.latest call⟩ ↔ SameData (some t) call := by
  cases done with
  | hit stored touched =>
    refine iff_of_true (fun x data found => ?_) trivial
    rw [touched.contents_eq] at found
    exact current x data found
  | missed missing => exact iff_of_true (fun x data found => current x data found) trivial
  | @present k now data e stored =>
    constructor
    · intro fresh u old same cached
      cases same
      have latest := fresh k old cached
      simp only [record, if_true, Option.some_inj] at latest
      exact latest.symm
    · intro same
      refine matches_update current fun x found cached => ?_
      by_cases here : x = k
      · subst here
        exact Or.inl ⟨rfl, by rw [same t found rfl cached]⟩
      · exact Or.inr ⟨here, cached⟩
  | refused missing =>
    refine iff_of_true (matches_update current fun x found cached => ?_)
      (sameData_of_missing missing)
    exact Or.inr ⟨other_key missing cached, cached⟩
  | @inserted k now data u _ missing added evicted =>
    refine iff_of_true (matches_update current fun x found cached => ?_)
      (sameData_of_missing missing)
    rw [evicted.contents_eq] at cached
    split at cached
    · rw [added.contents_eq] at cached
      split at cached
      · rename_i here
        exact Or.inl ⟨here, cached⟩
      · rename_i other
        exact Or.inr ⟨other, cached⟩
    · cases cached
  | invalidated stored removed =>
    refine iff_of_true (matches_update current fun x found cached => ?_) trivial
    rw [removed.contents_eq] at cached
    split at cached
    · cases cached
    · rename_i other
      exact Or.inr ⟨other, cached⟩
  | absent missing =>
    refine iff_of_true (matches_update current fun x found cached => ?_) trivial
    exact Or.inr ⟨other_key missing cached, cached⟩

def Defined (threshold : UInt64) (o : Option Observed) : Prop :=
  ∃ t, o = some t ∧ Kept threshold t.cache

theorem observe_performs {threshold : UInt64} {t : Observed} (h : Kept threshold t.cache)
    (call : Call) : ∃ s, observeStep (some t) call = some ⟨s, record t.latest call⟩ ∧
      Kept threshold s ∧ Performed t.cache call s := by
  obtain ⟨s, done, performed⟩ := performs h.represented call
  refine ⟨s, ?_, performed_kept h performed, performed⟩
  simp only [observeStep, Option.bind_eq_bind, Option.bind_some, done]

/-- A run serves current data in every state exactly when no Insert of a cached block carries
    other data than the cache holds. -/
theorem current_blocks_iff_same_data (capacity threshold : UInt64) (calls : List Call) :
    Always observeStep Current (freshObserved capacity threshold) calls ↔
      Meets observeStep SameData (freshObserved capacity threshold) calls := by
  have fresh : Kept threshold (newCache capacity threshold) :=
    ⟨new_represented capacity threshold, rfl, UInt64.zero_le⟩
  apply always_iff_meets (I := Defined threshold)
  · exact ⟨_, rfl, fresh⟩
  · refine (current_iff fresh.represented).mpr fun k data stored => ?_
    cases stored
  · rintro o call ⟨t, rfl, kept⟩
    obtain ⟨s, next, kept', _⟩ := observe_performs kept call
    exact ⟨_, next, kept'⟩
  · rintro o call ⟨t, rfl, kept⟩ current
    obtain ⟨s, next, kept', performed⟩ := observe_performs kept call
    have before := (current_iff kept.represented).mp current
    rw [next, current_iff kept'.represented]
    exact performed_matches_iff before performed

theorem stale_block_served :
    ∃ t, run observeStep (freshObserved 100 90) [.insert 1 [1] 0, .insert 1 [2] 1] = some t ∧
      t.latest 1 = some [2] ∧ (t.cache.lookup 1 2).map Prod.snd = some (some [1]) :=
  ⟨_, rfl, rfl, by decide +kernel⟩

end CurrentBlocks
