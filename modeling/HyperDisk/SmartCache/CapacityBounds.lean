import HyperDisk.Foundations.StepRuns
import HyperDisk.SmartCache.QueueInvariant
import HyperDisk.SmartCache.SketchBounds

/- How many entries the cache holds and which it loses. Put evicts only when the cache is
   full, and then EvictOne finds exactly one victim, because no estimate of the sketch reaches
   the value its search starts from. -/
namespace CapacityBounds
open LittleEndian WeightedMaps TaggedQueues StepRuns TinyLfu WTinyLfu QueueInvariant SketchBounds

inductive Call where
  | put (key : UInt64) (src : Source) (mallocs : Bool)
  | get (key : UInt64) (dst : Destination)
  | remove (key : UInt64)
  | clear

/-- `none` after a Put that copies from a null pointer. -/
def callStep (s : Option Cache) (call : Call) : Option Cache := do
  let s ← s
  match call with
  | .put key src mallocs => (s.put key src mallocs).map Prod.fst
  | .get key dst => some (s.get key dst).cache
  | .remove key => some (s.remove key).1
  | .clear => some s.clear

def contents (m : Map UInt64 Entry) (key : UInt64) : Option (Option Bytes × UInt32) :=
  (m.lookup key).map fun e => (e.data, e.size)

theorem contents_isSome (m : Map UInt64 Entry) (key : UInt64) :
    (contents m key).isSome = (m.lookup key).isSome := Option.isSome_map ..

theorem contents_insert (m : Map UInt64 Entry) (key x : UInt64) (e : Entry) :
    contents (m.insert key e) x = if x = key then some (e.data, e.size) else contents m x := by
  rw [contents, contents, lookup_insert_eq]
  split <;> rfl

theorem contents_erase (m : Map UInt64 Entry) (key x : UInt64) :
    contents (m.erase key) x = if x = key then none else contents m x := by
  rw [contents, contents, lookup_erase_eq]
  split <;> rfl

theorem keys_length_of_contents {m m' : Map UInt64 Entry}
    (same : ∀ x, contents m x = contents m' x) : m.keys.length = m'.keys.length :=
  keys_length_eq fun x => by rw [← contents_isSome, ← contents_isSome, same]

theorem contents_retag {m : Map UInt64 Entry} {key : UInt64} {e : Entry} (q : QueueType)
    (stored : m.lookup key = some e) (x : UInt64) :
    contents (m.insert key { e with queue := q }) x = contents m x := by
  rw [contents_insert]
  split
  · rename_i here
    rw [here, contents, stored, Option.map_some]
  · rfl

theorem demote_contents (capacity : Nat) (entries : Map UInt64 Entry)
    (probation protect : List UInt64) (x : UInt64) :
    contents (demote capacity entries probation protect).1 x = contents entries x := by
  induction protect generalizing entries probation with
  | nil => rfl
  | cons front rest ih =>
    unfold demote
    split
    · split
      · rename_i e stored
        rw [ih, contents_retag .probation stored]
      · exact ih _ _
    · rfl

theorem get_contents (s : Cache) (key : UInt64) (dst : Destination) (x : UInt64) :
    contents (s.get key dst).cache.entries x = contents s.entries x := by
  unfold Cache.get
  split
  · rfl
  · rename_i e stored
    dsimp only
    split
    · exact (demote_contents _ _ _ _ x).trans (contents_retag .protect stored x)
    · rfl

theorem put_present_contents {s s' : Cache} {key : UInt64} {src : Source} {mallocs ok : Bool}
    {e : Entry} (stored : s.entries.lookup key = some e)
    (done : s.put key src mallocs = some (s', ok)) :
    (contents s'.entries key).isSome ∧ ∀ x, x ≠ key →
      contents s'.entries x = contents s.entries x := by
  obtain ⟨e', _, rfl⟩ := put_stored stored done
  constructor
  · rw [contents_insert, if_pos rfl]
    rfl
  · intro x other
    rw [contents_insert, if_neg other]

theorem pickVictim_isSome (estimate : UInt64 → UInt32) (i : Nat) (minFreq : UInt32)
    (best : UInt64 × Nat) (ks : List UInt64) :
    (pickVictim estimate i minFreq (some best) ks).isSome := by
  induction ks generalizing i minFreq best with
  | nil => rfl
  | cons k ks ih =>
    unfold pickVictim
    dsimp only
    split
    · split
      · rfl
      · exact ih ..
    · exact ih ..

theorem victim_isSome {s : Cache} {key : UInt64} {e : Entry} (h : Inv s)
    (sketch : Bounded s.tinylfu) (stored : s.entries.lookup key = some e) : s.victim.isSome := by
  have member : key ∈ queues s e.queue := (placed_mem h.placed).mpr (by rw [tag, stored]; rfl)
  unfold Cache.victim
  split
  · rfl
  · rename_i noWindow
    split
    · rename_i k ks probation
      have low := estimate_lt k sketch
      rw [Option.isSome_map, List.take_succ_cons]
      unfold pickVictim
      dsimp only
      rw [if_pos low]
      split
      · rfl
      · exact pickVictim_isSome ..
    · rename_i noProbation
      split
      · rfl
      · rename_i noProtected
        cases place : e.queue <;>
          simp [place, queues, layout, noWindow, noProbation, noProtected] at member

theorem evictOne_erases {s : Cache} {key : UInt64} {e : Entry} (h : Inv s)
    (sketch : Bounded s.tinylfu) (stored : s.entries.lookup key = some e) :
    s.evictOne.2 = true ∧ s.evictOne.1.totalCapacity = s.totalCapacity ∧
      s.evictOne.1.tinylfu = s.tinylfu ∧
      ∃ v gone, s.entries.lookup v = some gone ∧ s.evictOne.1.entries = s.entries.erase v := by
  obtain ⟨⟨v, s'⟩, chosen⟩ := Option.isSome_iff_exists.mp (victim_isSome h sketch stored)
  obtain ⟨⟨entries, _, total, _, same⟩, q, i, position, _⟩ := victim_cases chosen
  obtain ⟨gone, found, _⟩ :=
    lookup_of_tag ((placed_mem h.placed).mp (List.mem_of_getElem? position))
  simp only [Cache.evictOne, chosen, entries, found]
  exact ⟨trivial, total, same, v, gone, found, rfl⟩

structure Good (s : Cache) : Prop where
  inv : Inv s
  sketch : Bounded s.tinylfu
  positive : 0 < s.totalCapacity.toNat
  within : s.entries.keys.length ≤ s.totalCapacity.toNat

theorem exists_entry {m : Map UInt64 Entry} (nonempty : 0 < m.keys.length) :
    ∃ key e, m.lookup key = some e := by
  obtain ⟨key, member⟩ := List.exists_mem_of_length_pos nonempty
  obtain ⟨e, found⟩ :=
    Option.isSome_iff_exists.mp (AList.lookup_isSome.mpr (AList.mem_keys.mpr member))
  exact ⟨key, e, found⟩

theorem makeRoom_room {s : Cache} (fuel : Nat)
    (room : s.entries.keys.length < s.totalCapacity.toNat) : makeRoom fuel s = s := by
  cases fuel with
  | zero => rfl
  | succ fuel => rw [makeRoom, if_neg (by omega)]

theorem makeRoom_full {s : Cache} (h : Good s)
    (full : s.entries.keys.length = s.totalCapacity.toNat) :
    makeRoom (s.queued + 1) s = s.evictOne.1 := by
  have positive := h.positive
  obtain ⟨key, e, stored⟩ := exists_entry (show 0 < s.entries.keys.length by omega)
  obtain ⟨evicted, total, _, v, gone, found, entries⟩ := evictOne_erases h.inv h.sketch stored
  have fewer := keys_length_erase found
  rw [makeRoom, if_pos (by omega)]
  dsimp only
  rw [if_pos evicted]
  exact makeRoom_room _ (by rw [entries, total]; omega)

theorem put_new {s s' : Cache} {key : UInt64} {src : Source} {mallocs ok : Bool} (h : Good s)
    (absent : s.entries.lookup key = none) (done : s.put key src mallocs = some (s', ok)) :
    s'.totalCapacity = s.totalCapacity ∧ s'.tinylfu = s.tinylfu.access key ∧
      ∃ kept, s'.entries = kept.insert key (newEntry src mallocs) ∧
        ((s.entries.keys.length < s.totalCapacity.toNat ∧ kept = s.entries) ∨
          (s.entries.keys.length = s.totalCapacity.toNat ∧
            ∃ v gone, s.entries.lookup v = some gone ∧ kept = s.entries.erase v)) := by
  simp only [Cache.put, absent] at done
  have within := h.within
  have positive := h.positive
  by_cases room : s.entries.keys.length < s.totalCapacity.toNat
  · rw [makeRoom_room _ room] at done
    cases done
    exact ⟨rfl, rfl, s.entries, rfl, Or.inl ⟨room, rfl⟩⟩
  · have full : s.entries.keys.length = s.totalCapacity.toNat := by omega
    rw [makeRoom_full h full] at done
    obtain ⟨other, e, stored⟩ := exists_entry (show 0 < s.entries.keys.length by omega)
    obtain ⟨_, total, same, v, gone, found, entries⟩ := evictOne_erases h.inv h.sketch stored
    cases done
    refine ⟨total, by rw [← same], s.entries.erase v, ?_, Or.inr ⟨full, v, gone, found, rfl⟩⟩
    rw [← entries]

theorem put_new_room {s : Cache} {key : UInt64} {kept : Map UInt64 Entry}
    (absent : s.entries.lookup key = none)
    (cases : (s.entries.keys.length < s.totalCapacity.toNat ∧ kept = s.entries) ∨
      (s.entries.keys.length = s.totalCapacity.toNat ∧
        ∃ v gone, s.entries.lookup v = some gone ∧ kept = s.entries.erase v)) :
    kept.lookup key = none ∧ kept.keys.length < s.totalCapacity.toNat := by
  rcases cases with ⟨room, rfl⟩ | ⟨full, v, gone, found, rfl⟩
  · exact ⟨absent, room⟩
  · have fewer := keys_length_erase found
    refine ⟨?_, by omega⟩
    rw [lookup_erase_eq, absent]
    split <;> rfl

theorem put_good {s s' : Cache} {key : UInt64} {src : Source} {mallocs ok : Bool} (h : Good s)
    (done : s.put key src mallocs = some (s', ok)) :
    Good s' ∧ s'.totalCapacity = s.totalCapacity := by
  have inv := put_inv h.inv done
  have sketch := access_bounded key h.sketch
  cases stored : s.entries.lookup key with
  | some e =>
    obtain ⟨e', _, rfl⟩ := put_stored stored done
    exact ⟨⟨inv, sketch, h.positive, by rw [keys_length_replace stored e']; exact h.within⟩, rfl⟩
  | none =>
    obtain ⟨total, frequency, kept, entries, cases⟩ := put_new h stored done
    obtain ⟨fresh, room⟩ := put_new_room stored cases
    refine ⟨⟨inv, by rw [frequency]; exact sketch, by rw [total]; exact h.positive, ?_⟩, total⟩
    rw [entries, total, keys_length_insert fresh]
    exact room

theorem get_good {s : Cache} (key : UInt64) (dst : Destination) (h : Good s) :
    Good (s.get key dst).cache ∧ (s.get key dst).cache.totalCapacity = s.totalCapacity := by
  have total : (s.get key dst).cache.totalCapacity = s.totalCapacity := by
    unfold Cache.get
    split
    · rfl
    · dsimp only
      split <;> rfl
  have sketch : Bounded (s.get key dst).cache.tinylfu := by
    unfold Cache.get
    split
    · exact h.sketch
    · dsimp only
      split <;> exact access_bounded key h.sketch
  have keys := keys_length_of_contents (get_contents s key dst)
  exact ⟨⟨get_inv key dst h.inv, sketch, by rw [total]; exact h.positive,
    by rw [keys, total]; exact h.within⟩, total⟩

theorem remove_fields (s : Cache) (key : UInt64) :
    (s.remove key).1.totalCapacity = s.totalCapacity ∧ (s.remove key).1.tinylfu = s.tinylfu ∧
      ((s.remove key).1.entries = s.entries ∨ (s.remove key).1.entries = s.entries.erase key) := by
  unfold Cache.remove
  split
  · exact ⟨rfl, rfl, Or.inl rfl⟩
  · rename_i e _
    dsimp only
    cases e.queue <;> exact ⟨rfl, rfl, Or.inr rfl⟩

theorem remove_good {s : Cache} (key : UInt64) (h : Good s) :
    Good (s.remove key).1 ∧ (s.remove key).1.totalCapacity = s.totalCapacity := by
  obtain ⟨total, sketch, entries⟩ := remove_fields s key
  refine ⟨⟨remove_inv key h.inv, by rw [sketch]; exact h.sketch,
    by rw [total]; exact h.positive, ?_⟩, total⟩
  have within := h.within
  rcases entries with same | erased
  · rw [same, total]
    exact within
  · rw [erased, total, AList.keys_erase]
    exact Nat.le_trans (List.erase_sublist.length_le) within

theorem callStep_good {s s' : Cache} {call : Call} (h : Good s)
    (done : callStep (some s) call = some s') :
    Good s' ∧ s'.totalCapacity = s.totalCapacity := by
  cases call with
  | put key src mallocs =>
    obtain ⟨⟨next, ok⟩, put, same⟩ := Option.map_eq_some_iff.mp done
    cases same
    exact put_good h put
  | get key dst =>
    cases done
    exact get_good key dst h
  | remove key =>
    cases done
    exact remove_good key h
  | clear =>
    cases done
    exact ⟨⟨clear_inv s, h.sketch, h.positive, Nat.zero_le _⟩, rfl⟩

theorem newCache_good {capacity : UInt32} (windowRatio protectedRatio : UInt32)
    (positive : 1 ≤ capacity) : Good (newCache capacity windowRatio protectedRatio) :=
  ⟨fresh_inv capacity windowRatio protectedRatio, newTinyLFU_bounded capacity,
    UInt32.le_iff_toNat_le.mp positive, Nat.zero_le _⟩

/-- What a state promises: at most Capacity() entries, and no entry lost but the one that Put
    of a new key evicts from a full cache. -/
structure KeepsEntries (s : Cache) : Prop where
  within : s.count ≤ s.capacity
  put_present : ∀ key src mallocs s' ok, (contents s.entries key).isSome →
    s.put key src mallocs = some (s', ok) →
      (contents s'.entries key).isSome ∧ ∀ x, x ≠ key → contents s'.entries x = contents s.entries x
  get_any : ∀ key dst x, contents (s.get key dst).cache.entries x = contents s.entries x
  put_new : ∀ key src mallocs, contents s.entries key = none →
    ∃ s', s.put key src mallocs = some (s', true) ∧ (contents s'.entries key).isSome ∧
      (s.count < s.capacity →
        ∀ x, x ≠ key → contents s'.entries x = contents s.entries x) ∧
      (s.count = s.capacity →
        ∃ v, v ≠ key ∧ (contents s.entries v).isSome ∧ contents s'.entries v = none ∧
          ∀ x, x ≠ key → x ≠ v → contents s'.entries x = contents s.entries x)

theorem count_toNat {s : Cache} (h : Good s) : s.count.toNat = s.entries.keys.length := by
  have limit := s.totalCapacity.toNat_lt
  have within := h.within
  rw [Cache.count, UInt32.toNat_ofNat']
  exact Nat.mod_eq_of_lt (by omega)

theorem good_keepsEntries {s : Cache} (h : Good s) : KeepsEntries s := by
  have count := count_toNat h
  constructor
  · rw [UInt32.le_iff_toNat_le, count]
    exact h.within
  · intro key src mallocs s' ok present done
    rw [contents_isSome] at present
    obtain ⟨e, stored⟩ := Option.isSome_iff_exists.mp present
    exact put_present_contents stored done
  · exact get_contents s
  · intro key src mallocs missing
    have absent : s.entries.lookup key = none := Option.map_eq_none_iff.mp missing
    obtain ⟨s', done⟩ : ∃ s', s.put key src mallocs = some (s', true) := by
      simp only [Cache.put, absent]
      exact ⟨_, rfl⟩
    obtain ⟨_, _, kept, entries, cases⟩ := put_new h absent done
    refine ⟨s', done, by rw [entries, contents_insert, if_pos rfl]; rfl, ?_, ?_⟩
    · intro room x other
      rw [UInt32.lt_iff_toNat_lt, count] at room
      rcases cases with ⟨_, same⟩ | ⟨full, _⟩
      · rw [entries, contents_insert, if_neg other, same]
      · exact absurd full (Nat.ne_of_lt room)
    · intro full
      have equal : s.entries.keys.length = s.totalCapacity.toNat := by
        rw [← count, full]
        rfl
      rcases cases with ⟨room, _⟩ | ⟨_, v, gone, found, erased⟩
      · omega
      · have apart : v ≠ key := by
          rintro rfl
          rw [absent] at found
          cases found
        refine ⟨v, apart, by rw [contents_isSome, found]; rfl, ?_, ?_⟩
        · rw [entries, contents_insert, if_neg apart, erased, contents_erase, if_pos rfl]
        · intro x other another
          rw [entries, contents_insert, if_neg other, erased, contents_erase, if_neg another]

/-- In every state that calls reach from a fresh cache of capacity at least one. -/
theorem capacity_and_entries_kept (capacity windowRatio protectedRatio : UInt32)
    (positive : 1 ≤ capacity) (calls : List Call) :
    Always callStep (fun o => ∀ s, o = some s → KeepsEntries s ∧ s.capacity = capacity)
      (some (newCache capacity windowRatio protectedRatio)) calls := by
  have start : ∀ s, some (newCache capacity windowRatio protectedRatio) = some s →
      Good s ∧ s.totalCapacity = capacity := by
    intro s same
    cases same
    exact ⟨newCache_good windowRatio protectedRatio positive, rfl⟩
  have next : ∀ s call s', Good s ∧ s.totalCapacity = capacity → callStep (some s) call = some s' →
      Good s' ∧ s'.totalCapacity = capacity := by
    intro s call s' h done
    obtain ⟨good, total⟩ := callStep_good h.1 done
    exact ⟨good, total.trans h.2⟩
  rw [always_iff_prefixes]
  intro k s reached
  obtain ⟨good, total⟩ :=
    invariant_run (calls.take k) start (keep_while_defined (fun _ => rfl) next) s reached
  exact ⟨good_keepsEntries good, total⟩

theorem one_entry_kept :
    (1 : UInt32) ≤ 1 ∧
      Always callStep (fun o => ∀ s, o = some s → KeepsEntries s ∧ s.capacity = 1)
        (some (newCache 1 1 80))
        [.put 7 ⟨some [1], 1, by simp⟩ true, .put 8 ⟨none, 0, by simp⟩ true,
          .get 8 ⟨none, 0, by simp⟩] :=
  ⟨by decide, capacity_and_entries_kept 1 1 80 (by decide) _⟩

end CapacityBounds
