import HyperDisk.Foundations.TaggedQueues
import HyperDisk.SmartCache.WTinyLfu

/- The representation invariant of the cache: entries, tags and queues agree, and
   total_size_ is the sum of the entry sizes modulo 2^64. -/
namespace QueueInvariant
open LittleEndian TaggedQueues WeightedMaps WTinyLfu

def layout (window probation protect : List UInt64) : QueueType → List UInt64
  | .window => window
  | .probation => probation
  | .protect => protect

def queues (s : Cache) : QueueType → List UInt64 :=
  layout s.windowQueue s.probationQueue s.protectedQueue

def tag (s : Cache) (key : UInt64) : Option QueueType := (s.entries.lookup key).map Entry.queue

def weight (e : Entry) : Nat := e.size.toNat

/-- Each key of entries_ stands once in the queue its tag names and in no other, no queue
    holds another key, and total_size_ is the sum of the sizes. -/
structure Inv (s : Cache) : Prop where
  placed : Placed (queues s) (tag s)
  sum : s.totalSize.toNat = total weight s.entries % 2 ^ 64

theorem inv_congr {s s' : Cache} (h : Inv s) (entries : s'.entries = s.entries)
    (same : queues s' = queues s) (size : s'.totalSize = s.totalSize) : Inv s' := by
  constructor
  · have tags : tag s' = tag s := by
      funext key
      rw [tag, tag, entries]
    rw [same, tags]
    exact h.placed
  · rw [size, entries]
    exact h.sum

theorem fresh_inv (capacity windowRatio protectedRatio : UInt32) :
    Inv (newCache capacity windowRatio protectedRatio) := by
  constructor
  · intro q k
    cases q <;> simp [queues, layout, tag, newCache]
  · simp [newCache]

theorem clear_inv (s : Cache) : Inv s.clear := by
  constructor
  · intro q k
    cases q <;> simp [queues, layout, tag, Cache.clear]
  · simp [Cache.clear]

theorem lookup_of_tag {s : Cache} {key : UInt64} {q : QueueType} (tagged : tag s key = some q) :
    ∃ e, s.entries.lookup key = some e ∧ e.queue = q :=
  Option.map_eq_some_iff.mp tagged

theorem sum_sub {s : Cache} {key : UInt64} {e : Entry} (h : Inv s)
    (stored : s.entries.lookup key = some e) :
    (s.totalSize - e.size.toUInt64).toNat = total weight (s.entries.erase key) % 2 ^ 64 := by
  have sum := h.sum
  rw [total_erase stored, weight] at sum
  have small := e.size.toNat_lt
  rw [UInt64.toNat_sub, UInt32.toNat_toUInt64]
  omega

theorem removed_inv {s s' : Cache} {key : UInt64} {e : Entry} (h : Inv s)
    (stored : s.entries.lookup key = some e) (entries : s'.entries = s.entries.erase key)
    (leaves : ∀ x, (queues s' e.queue).count x + (if x = key then 1 else 0) =
      (queues s e.queue).count x)
    (others : ∀ q, q ≠ e.queue → queues s' q = queues s q)
    (size : s'.totalSize = s.totalSize - e.size.toUInt64) : Inv s' := by
  constructor
  · refine placed_remove h.placed (by rw [tag, stored, Option.map_some]) leaves others fun x => ?_
    rw [tag, entries, lookup_erase_eq]
    split <;> rfl
  · rw [size, entries]
    exact sum_sub h stored

theorem pickVictim_found {estimate : UInt64 → UInt32} {key : UInt64} {i : Nat}
    (all ks : List UInt64) (j : Nat) (minFreq : UInt32) (best : Option (UInt64 × Nat))
    (rest : ∀ n, ks[n]? = all[j + n]?) (before : ∀ k n, best = some (k, n) → all[n]? = some k)
    (picked : pickVictim estimate j minFreq best ks = some (key, i)) : all[i]? = some key := by
  induction ks generalizing j minFreq best with
  | nil => exact before key i picked
  | cons k ks ih =>
    have here : all[j]? = some k := (rest 0).symm
    have later : ∀ n, ks[n]? = all[j + 1 + n]? := by
      intro n
      have := rest (n + 1)
      rwa [List.getElem?_cons_succ, show j + (n + 1) = j + 1 + n by omega] at this
    have now : ∀ k' n, some (k, j) = some (k', n) → all[n]? = some k' := by
      intro k' n same
      cases same
      exact here
    rw [pickVictim] at picked
    split at picked
    · split at picked
      · exact now key i picked
      · exact ih (j + 1) _ _ later now picked
    · exact ih (j + 1) _ _ later before picked

theorem pickVictim_index {estimate : UInt64 → UInt32} {ks : List UInt64} {key : UInt64} {i : Nat}
    {minFreq : UInt32} (picked : pickVictim estimate 0 minFreq none (ks.take 16) = some (key, i)) :
    ks[i]? = some key := by
  have inside := pickVictim_found _ (ks.take 16) 0 minFreq none (fun n => by rw [Nat.zero_add])
    (by simp) picked
  rw [List.getElem?_take] at inside
  split at inside
  · exact inside
  · cases inside

theorem victim_cases {s s' : Cache} {key : UInt64} (chosen : s.victim = some (key, s')) :
    (s'.entries = s.entries ∧ s'.totalSize = s.totalSize ∧
      s'.totalCapacity = s.totalCapacity ∧ s'.windowCapacity = s.windowCapacity ∧
      s'.tinylfu = s.tinylfu) ∧
      ∃ q i, (queues s q)[i]? = some key ∧ queues s' q = (queues s q).eraseIdx i ∧
        ∀ other, other ≠ q → queues s' other = queues s other := by
  unfold Cache.victim at chosen
  split at chosen
  · rename_i window
    cases chosen
    refine ⟨⟨rfl, rfl, rfl, rfl, rfl⟩, .window, 0, by simp [queues, layout, window],
      by simp [queues, layout, window], fun other ne => ?_⟩
    cases other <;> first | exact absurd rfl ne | rfl
  · split at chosen
    · rename_i probation
      obtain ⟨⟨k, i⟩, picked, same⟩ := Option.map_eq_some_iff.mp chosen
      cases same
      refine ⟨⟨rfl, rfl, rfl, rfl, rfl⟩, .probation, i, ?_, by simp [queues, layout, probation],
        fun other ne => ?_⟩
      · simp only [queues, layout, probation]
        exact pickVictim_index picked
      · cases other <;> first | exact absurd rfl ne | rfl
    · split at chosen
      · rename_i protect
        cases chosen
        refine ⟨⟨rfl, rfl, rfl, rfl, rfl⟩, .protect, 0, by simp [queues, layout, protect],
          by simp [queues, layout, protect], fun other ne => ?_⟩
        cases other <;> first | exact absurd rfl ne | rfl
      · cases chosen

theorem evictOne_inv {s : Cache} (h : Inv s) : Inv s.evictOne.1 := by
  unfold Cache.evictOne
  split
  · exact h
  · rename_i key s' chosen
    obtain ⟨⟨entries, size, _⟩, q, i, position, shorter, others⟩ := victim_cases chosen
    obtain ⟨e, stored, rfl⟩ :=
      lookup_of_tag ((placed_mem h.placed).mp (List.mem_of_getElem? position))
    rw [entries, stored]
    refine removed_inv h stored rfl (fun x => ?_) others (by rw [← size])
    have split := count_eraseIdx_split position x
    rwa [← shorter] at split

theorem queued_eq (s : Cache) : s.queued =
    (queues s .window).length + (queues s .probation).length + (queues s .protect).length := rfl

theorem victim_queued {s s' : Cache} {key : UInt64} (chosen : s.victim = some (key, s')) :
    s'.queued + 1 = s.queued := by
  obtain ⟨_, q, i, position, shorter, others⟩ := victim_cases chosen
  have inside : i < (queues s q).length := (List.getElem?_eq_some_iff.mp position).1
  have length : (queues s' q).length + 1 = (queues s q).length := by
    rw [shorter, List.length_eraseIdx, if_pos inside]
    omega
  rw [queued_eq, queued_eq]
  cases q with
  | window =>
    rw [others .probation (by decide), others .protect (by decide)]
    omega
  | probation =>
    rw [others .window (by decide), others .protect (by decide)]
    omega
  | protect =>
    rw [others .window (by decide), others .probation (by decide)]
    omega

theorem evictOne_queued {s : Cache} (evicted : s.evictOne.2 = true) :
    s.evictOne.1.queued + 1 = s.queued := by
  unfold Cache.evictOne at evicted ⊢
  split
  · rename_i none
    simp [none] at evicted
  · rename_i key s' found
    have shorter := victim_queued found
    split
    · exact shorter
    · exact shorter

theorem evictOne_stuck {s : Cache} (none : s.evictOne.2 = false) : s.evictOne.1 = s := by
  unfold Cache.evictOne at none ⊢
  split
  · rfl
  · rename_i key s' found
    simp only [found] at none
    split at none <;> cases none

theorem makeRoom_ends (fuel : Nat) (s : Cache) (enough : s.queued < fuel) :
    (makeRoom fuel s).entries.keys.length < (makeRoom fuel s).totalCapacity.toNat ∨
      (makeRoom fuel s).evictOne.2 = false := by
  induction fuel generalizing s with
  | zero => omega
  | succ fuel ih =>
    unfold makeRoom
    split
    · dsimp only
      split
      · rename_i evicted
        have shorter := evictOne_queued evicted
        exact ih _ (by omega)
      · rename_i stuck
        have none := Bool.eq_false_of_not_eq_true stuck
        rw [evictOne_stuck none]
        exact Or.inr none
    · rename_i room
      exact Or.inl (by omega)

theorem makeRoom_inv {s : Cache} (fuel : Nat) (h : Inv s) : Inv (makeRoom fuel s) := by
  induction fuel generalizing s with
  | zero => exact h
  | succ fuel ih =>
    have next := evictOne_inv h
    unfold makeRoom
    split
    · dsimp only
      split
      · exact ih next
      · exact next
    · exact h

theorem remove_inv {s : Cache} (key : UInt64) (h : Inv s) : Inv (s.remove key).1 := by
  unfold Cache.remove
  split
  · exact h
  · rename_i e stored
    have member : key ∈ queues s e.queue := (placed_mem h.placed).mpr (by rw [tag, stored]; rfl)
    dsimp only
    cases place : e.queue <;> rw [place] at member
    all_goals
      refine removed_inv h stored rfl ?_ ?_ rfl
      · rw [place]
        exact count_erase_split member
      · rw [place]
        intro q ne
        cases q <;> simp_all [queues, layout, Cache.unqueue]

theorem replaced_inv {s s' : Cache} {key : UInt64} {e e' : Entry} (h : Inv s)
    (stored : s.entries.lookup key = some e) (entries : s'.entries = s.entries.insert key e')
    (place : e'.queue = e.queue) (size : e'.size = e.size) (same : queues s' = queues s)
    (sum : s'.totalSize = s.totalSize) : Inv s' := by
  constructor
  · have tags : tag s' = tag s := by
      funext x
      rw [tag, tag, entries, lookup_insert_eq]
      split
      · rename_i here
        rw [here, stored, Option.map_some, Option.map_some, place]
      · rfl
    rw [same, tags]
    exact h.placed
  · rw [sum, entries, total_replace stored (by rw [weight, weight, size])]
    exact h.sum

theorem overwrite_same {e e' : Entry} {src : Source} (copied : e.overwrite src = some e') :
    e'.queue = e.queue ∧ e'.size = e.size := by
  unfold Entry.overwrite at copied
  split at copied
  · cases copied
    exact ⟨rfl, rfl⟩
  · split at copied
    · split at copied
      · cases copied
      · cases copied
        exact ⟨rfl, rfl⟩
    · cases copied
      exact ⟨rfl, rfl⟩

theorem overwrite_isSome (e : Entry) {src : Source} (given : src.data.isSome ∨ src.size = 0) :
    (e.overwrite src).isSome := by
  unfold Entry.overwrite
  split
  · rfl
  · split
    · rename_i positive
      split
      · rename_i null
        rcases given with given | zero
        · simp [null] at given
        · simp [zero] at positive
      · rfl
    · rfl

theorem evictOne_lookup {s : Cache} {key : UInt64} {e : Entry}
    (still : s.evictOne.1.entries.lookup key = some e) : s.entries.lookup key = some e := by
  unfold Cache.evictOne at still
  split at still
  · exact still
  · rename_i victim s' chosen
    rw [← (victim_cases chosen).1.1]
    split at still
    · exact still
    · dsimp only at still
      rw [lookup_erase_eq] at still
      split at still
      · cases still
      · exact still

theorem makeRoom_lookup {s : Cache} {key : UInt64} {e : Entry} (fuel : Nat)
    (still : (makeRoom fuel s).entries.lookup key = some e) : s.entries.lookup key = some e := by
  induction fuel generalizing s with
  | zero => exact still
  | succ fuel ih =>
    unfold makeRoom at still
    split at still
    · dsimp only at still
      split at still
      · exact evictOne_lookup (ih still)
      · exact evictOne_lookup still
    · exact still

theorem makeRoom_absent {s : Cache} {key : UInt64} (fuel : Nat)
    (absent : s.entries.lookup key = none) : (makeRoom fuel s).entries.lookup key = none := by
  cases found : (makeRoom fuel s).entries.lookup key with
  | none => rfl
  | some e =>
    rw [makeRoom_lookup fuel found] at absent
    cases absent

theorem inserted_inv {s s' : Cache} {key : UInt64} {e : Entry} (h : Inv s)
    (absent : s.entries.lookup key = none) (entries : s'.entries = s.entries.insert key e)
    (place : e.queue = .window) (window : s'.windowQueue = s.windowQueue ++ [key])
    (probation : s'.probationQueue = s.probationQueue)
    (protect : s'.protectedQueue = s.protectedQueue)
    (size : s'.totalSize = s.totalSize + e.size.toUInt64) : Inv s' := by
  constructor
  · refine placed_insert (k := key) (q := .window) h.placed (by rw [tag, absent]; rfl) ?_ ?_ ?_
    · intro x
      rw [queues, window]
      exact count_append_split s.windowQueue key x
    · intro q ne
      cases q with
      | window => exact absurd rfl ne
      | probation => exact probation
      | protect => exact protect
    · intro x
      rw [tag, entries, lookup_insert_eq]
      split
      · rw [Option.map_some, place]
      · rfl
  · have sum := h.sum
    rw [size, entries, total_fresh absent, weight, UInt64.toNat_add, UInt32.toNat_toUInt64]
    omega

theorem put_inv {s s' : Cache} {key : UInt64} {src : Source} {mallocs ok : Bool} (h : Inv s)
    (done : s.put key src mallocs = some (s', ok)) : Inv s' := by
  cases stored : s.entries.lookup key with
  | some e =>
    obtain ⟨e', copied, rfl⟩ := put_stored stored done
    obtain ⟨place, size⟩ := overwrite_same copied
    exact replaced_inv h stored rfl place size rfl rfl
  | none =>
    simp only [Cache.put, stored] at done
    have room := makeRoom_inv (s.queued + 1) h
    have still := makeRoom_absent (s.queued + 1) stored
    cases done
    exact inserted_inv room still rfl rfl rfl rfl rfl rfl

theorem put_isSome (s : Cache) (key : UInt64) {src : Source} (mallocs : Bool)
    (given : src.data.isSome ∨ src.size = 0) : (s.put key src mallocs).isSome := by
  unfold Cache.put
  split
  · rename_i e _
    rw [Option.isSome_map]
    exact overwrite_isSome e given
  · rfl

/-- Tags while `key` is between two queues. -/
def tagWithout (key : UInt64) (entries : Map UInt64 Entry) (x : UInt64) : Option QueueType :=
  if x = key then none else (entries.lookup x).map Entry.queue

theorem demote_step {key front : UInt64} {entries : Map UInt64 Entry} {e : Entry}
    {window probation rest : List UInt64}
    (h : Placed (layout window probation (front :: rest)) (tagWithout key entries))
    (tagged : tagWithout key entries front = some .protect) :
    Placed (layout window (probation ++ [front]) rest)
      (tagWithout key (entries.insert front { e with queue := .probation })) := by
  have removed : Placed (layout window probation rest)
      (fun x => if x = front then none else tagWithout key entries x) := by
    refine placed_remove h tagged (fun x => count_cons_split rest front x) ?_ fun _ => rfl
    intro q ne
    cases q with
    | window => rfl
    | probation => rfl
    | protect => exact absurd rfl ne
  refine placed_insert (k := front) (q := .probation) removed (by simp)
    (fun x => count_append_split probation front x) ?_ ?_
  · intro q ne
    cases q with
    | window => rfl
    | probation => exact absurd rfl ne
    | protect => rfl
  · intro x
    have apart : front ≠ key := by
      rintro rfl
      simp [tagWithout] at tagged
    unfold tagWithout
    rw [lookup_insert_eq]
    by_cases same : x = front
    · simp [same, apart]
    · simp [same]

theorem demote_spec {key : UInt64} {window : List UInt64} (capacity : Nat)
    (entries : Map UInt64 Entry) (probation protect : List UInt64)
    (h : Placed (layout window probation protect) (tagWithout key entries)) :
    let moved := demote capacity entries probation protect
    Placed (layout window moved.2.1 moved.2.2) (tagWithout key moved.1) ∧
      moved.1.lookup key = entries.lookup key ∧ total weight moved.1 = total weight entries := by
  induction protect generalizing entries probation with
  | nil => exact ⟨h, rfl, rfl⟩
  | cons front rest ih =>
    have tagged : tagWithout key entries front = some .protect :=
      (placed_mem h).mp (by simp [layout])
    have apart : front ≠ key := by
      rintro rfl
      simp [tagWithout] at tagged
    unfold demote
    split
    · split
      · rename_i e stored
        obtain ⟨placed, kept, sum⟩ := ih _ _ (demote_step h tagged)
        refine ⟨placed, kept.trans ?_, sum.trans (total_replace stored rfl)⟩
        rw [lookup_insert_eq, if_neg apart.symm]
      · rename_i absent
        simp [tagWithout, apart, absent] at tagged
    · exact ⟨h, rfl, rfl⟩

theorem promote_inv {s : Cache} {key : UInt64} {e : Entry} (h : Inv s)
    (stored : s.entries.lookup key = some e) (place : e.queue = .probation) :
    Inv (s.promote key e) := by
  have tagged : tag s key = some .probation := by rw [tag, stored, Option.map_some, place]
  have member : key ∈ s.probationQueue := (placed_mem h.placed).mpr tagged
  have away : Placed (layout s.windowQueue (s.probationQueue.erase key) s.protectedQueue)
      (tagWithout key (s.entries.insert key { e with queue := .protect })) := by
    refine placed_remove h.placed tagged (fun x => count_erase_split member x) ?_ ?_
    · intro q ne
      cases q with
      | window => rfl
      | probation => exact absurd rfl ne
      | protect => rfl
    · intro x
      unfold tagWithout tag
      rw [lookup_insert_eq]
      split <;> rfl
  obtain ⟨placed, kept, sum⟩ := demote_spec s.protectedCapacity.toNat _ _ _ away
  constructor
  · refine placed_insert (k := key) (q := .protect) placed (by simp [tagWithout])
      (fun x => count_append_split _ key x) ?_ ?_
    · intro q ne
      cases q with
      | window => rfl
      | probation => rfl
      | protect => exact absurd rfl ne
    · intro x
      unfold tagWithout
      by_cases same : x = key
      · subst same
        rw [if_pos rfl, tag, Cache.promote, kept, lookup_insert_eq, if_pos rfl]
        rfl
      · rw [if_neg same, if_neg same]
        rfl
  · have unchanged : (s.promote key e).totalSize = s.totalSize := rfl
    rw [unchanged, h.sum]
    exact congrArg (· % 2 ^ 64) (sum.trans (total_replace stored rfl)).symm

theorem get_inv {s : Cache} (key : UInt64) (dst : Destination) (h : Inv s) :
    Inv (s.get key dst).cache := by
  unfold Cache.get
  split
  · exact inv_congr h rfl rfl rfl
  · rename_i e stored
    dsimp only
    split
    · rename_i place
      exact promote_inv (inv_congr h rfl rfl rfl) stored place
    · exact inv_congr h rfl rfl rfl

/-- The representation invariant: a fresh cache has it, and every operation keeps it on
    every argument. Put returns unless it has to copy from a null pointer. -/
theorem representation_invariant :
    (∀ capacity windowRatio protectedRatio, Inv (newCache capacity windowRatio protectedRatio)) ∧
      ∀ s, Inv s →
        (∀ key src mallocs,
          (∀ s' ok, s.put key src mallocs = some (s', ok) → Inv s') ∧
          (src.data.isSome ∨ src.size = 0 → (s.put key src mallocs).isSome)) ∧
        (∀ key dst, Inv (s.get key dst).cache) ∧ (∀ key, Inv (s.remove key).1) ∧
        Inv s.clear ∧ Inv s.evictOne.1 :=
  ⟨fresh_inv, fun s h =>
    ⟨fun key _ mallocs => ⟨fun _ _ => put_inv h, put_isSome s key mallocs⟩,
      fun key dst => get_inv key dst h, fun key => remove_inv key h, clear_inv s, evictOne_inv h⟩⟩

def cell (q : QueueType) : Entry := ⟨some [0], 1, q, by simp⟩

def mixedCache : Cache :=
  { newCache 4 1 80 with
    entries := ((AList.insert 1 (cell .window) ∅).insert 2 (cell .probation)).insert 3
      (cell .protect)
    windowQueue := [1]
    probationQueue := [2]
    protectedQueue := [3]
    totalSize := 3 }

theorem mixedCache_inv : Inv mixedCache := by
  constructor
  · intro q k
    rw [tag, mixedCache, lookup_insert_eq, lookup_insert_eq, lookup_insert_eq]
    by_cases three : k = 3
    · subst three
      cases q <;> decide
    · by_cases two : k = 2
      · subst two
        cases q <;> decide
      · by_cases one : k = 1
        · subst one
          cases q <;> decide
        · cases q <;>
            simp [queues, layout, one, two, three, Ne.symm one, Ne.symm two, Ne.symm three]
  · decide

theorem representation_invariant_mixed :
    Inv mixedCache ∧ Inv (mixedCache.get 2 ⟨none, 0, by simp⟩).cache ∧
      Inv (mixedCache.remove 3).1 ∧ Inv mixedCache.clear ∧ Inv mixedCache.evictOne.1 := by
  obtain ⟨_, keeps⟩ := representation_invariant
  obtain ⟨_, get, remove, clear, evict⟩ := keeps mixedCache mixedCache_inv
  exact ⟨mixedCache_inv, get 2 _, remove 3, clear, evict⟩

end QueueInvariant
