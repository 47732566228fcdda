import HyperDisk.CacheEngine.CacheInvariant

/- The order of lru_list_ against the history of accesses: the list is sorted by the index of the
   call that last touched each key, and an Insert that evicts keeps the most recent keys that
   fit the threshold together. -/
namespace RecencyOrder
open LittleEndian StepRuns WeightedLists L3SsdCache CacheInvariant

/-- The key a call touches: the one a Lookup hits, or an Insert finds absent. -/
def touches (s : L3Cache) : Call → Option UInt64
  | .lookup k _ => if (s.entries.lookup k).isSome then some k else none
  | .insert k _ _ => if (s.entries.lookup k).isSome then none else some k
  | .invalidate _ => none

structure Traced where
  cache : L3Cache
  lastTouch : UInt64 → Nat
  index : Nat

def stamp (lastTouch : UInt64 → Nat) (key : Option UInt64) (index : Nat) (k : UInt64) : Nat :=
  if key = some k then index else lastTouch k

def traceStep (o : Option Traced) (call : Call) : Option Traced := do
  let t ← o
  let cache ← t.cache.perform call
  some ⟨cache, stamp t.lastTouch (touches t.cache call) t.index, t.index + 1⟩

def freshTrace (capacity threshold : UInt64) : Traced :=
  ⟨newCache capacity threshold, fun _ => 0, 0⟩

structure Aged (lastTouch : UInt64 → Nat) (index : Nat) (keys : List UInt64) : Prop where
  sorted : keys.Pairwise fun a b => lastTouch b < lastTouch a
  past : ∀ k ∈ keys, lastTouch k < index

variable {lastTouch : UInt64 → Nat} {index : Nat} {l l' : List UInt64} {k : UInt64}

theorem aged_sublist (h : Aged lastTouch index l) (part : l'.Sublist l) : Aged lastTouch index l' :=
  ⟨h.sorted.sublist part, fun k member => h.past k (part.subset member)⟩

theorem aged_later (h : Aged lastTouch index l) :
    Aged (stamp lastTouch none index) (index + 1) l := by
  have same : stamp lastTouch none index = lastTouch := by
    funext k
    simp [stamp]
  rw [same]
  exact ⟨h.sorted, fun k member => Nat.lt_succ_of_lt (h.past k member)⟩

theorem aged_front (h : Aged lastTouch index l) (absent : k ∉ l) :
    Aged (stamp lastTouch (some k) index) (index + 1) (k :: l) := by
  have others : ∀ x ∈ l, stamp lastTouch (some k) index x = lastTouch x := by
    intro x member
    have other : k ≠ x := fun same => absent (same ▸ member)
    simp [stamp, other]
  have first : stamp lastTouch (some k) index k = index := if_pos rfl
  constructor
  · refine List.pairwise_cons.mpr ⟨fun x member => ?_, h.sorted.imp_of_mem fun ha hb lt => ?_⟩
    · rw [others x member, first]
      exact h.past x member
    · rwa [others _ ha, others _ hb]
  · intro x member
    rcases List.mem_cons.mp member with rfl | later
    · rw [first]
      exact Nat.lt_succ_self _
    · rw [others x later]
      exact Nat.lt_succ_of_lt (h.past x later)

theorem performed_aged {s s' : L3Cache} {call : Call} (represented : Represented s)
    (h : Aged lastTouch index (keys s)) (done : Performed s call s') :
    Aged (stamp lastTouch (touches s call) index) (index + 1) (keys s') := by
  have unlisted : ∀ {k}, s.entries.lookup k = none → k ∉ keys s := by
    intro k missing member
    rw [represented.listed, missing] at member
    cases member
  cases done with
  | hit stored touched =>
    rw [touches, stored, if_pos Option.isSome_some, touched.keys_eq]
    have distinct : (keys s).Nodup := represented.wired.keys
    exact aged_front (aged_sublist h List.erase_sublist) distinct.not_mem_erase
  | missed missing =>
    rw [touches, missing, if_neg (by simp)]
    exact aged_later h
  | present stored =>
    rw [touches, stored, if_pos Option.isSome_some]
    exact aged_later h
  | refused missing =>
    rw [touches, missing, if_neg (by simp)]
    exact aged_sublist (aged_front h (unlisted missing)) (List.sublist_cons_self _ _)
  | inserted missing added evicted =>
    rw [touches, missing, if_neg (by simp), evicted.keys_eq, added.keys_eq]
    exact aged_sublist (aged_front h (unlisted missing)) (keepWithin_sublist _ _ _)
  | invalidated stored removed =>
    rw [removed.keys_eq]
    exact aged_later (aged_sublist h List.erase_sublist)
  | absent missing => exact aged_later h

structure Ordered (threshold : UInt64) (t : Traced) : Prop where
  kept : Kept threshold t.cache
  aged : Aged t.lastTouch t.index (keys t.cache)

theorem trace_ordered {threshold : UInt64} (t : Traced) (call : Call) (h : Ordered threshold t) :
    ∃ u, traceStep (some t) call = some u ∧ Ordered threshold u := by
  obtain ⟨s, done, performed⟩ := performs h.kept.represented call
  refine ⟨⟨s, stamp t.lastTouch (touches t.cache call) t.index, t.index + 1⟩, ?_,
    performed_kept h.kept performed, performed_aged h.kept.represented h.aged performed⟩
  simp only [traceStep, Option.bind_eq_bind, Option.bind_some, done]

theorem trace_run (capacity threshold : UInt64) (calls : List Call) :
    ∃ t, run traceStep (some (freshTrace capacity threshold)) calls = some t ∧
      Ordered threshold t := by
  refine defined_run calls ⟨⟨new_represented capacity threshold, rfl, UInt64.zero_le⟩, ?_⟩
    trace_ordered
  exact ⟨List.Pairwise.nil, fun k member => absurd member List.not_mem_nil⟩

theorem trace_cache (o : Option Traced) (calls : List Call) :
    (run traceStep o calls).map Traced.cache = run step (o.map Traced.cache) calls := by
  apply run_map
  intro o call
  cases o with
  | none => rfl
  | some t =>
    simp only [traceStep, step, Option.bind_eq_bind, Option.bind_some, Option.map_some]
    cases t.cache.perform call <;> rfl

/-- lru_list_ is sorted by recency after any calls, and a further Insert of an absent block
    leaves the longest front part of the list with that block that fits the threshold. -/
theorem l3_exact_lru (capacity threshold : UInt64) (calls : List Call) :
    ∃ t, run traceStep (some (freshTrace capacity threshold)) calls = some t ∧
      run step (some (newCache capacity threshold)) calls = some t.cache ∧
      (keys t.cache).Pairwise (fun a b => t.lastTouch b < t.lastTouch a) ∧
      ∀ k data now, t.cache.entries.lookup k = none →
        t.cache.cachedBytes + data.length < UInt64.size →
        ∃ n, keys (t.cache.insert k data now) = (k :: keys t.cache).take n ∧
          n ≤ (k :: keys t.cache).length ∧
          weigh (blockSize (t.cache.addBlock k data now)) ((k :: keys t.cache).take n) ≤
            threshold.toNat ∧
          (∀ m, n < m → m ≤ (k :: keys t.cache).length → threshold.toNat <
            weigh (blockSize (t.cache.addBlock k data now)) ((k :: keys t.cache).take m)) ∧
          ∀ x, ((t.cache.insert k data now).entries.lookup x).isSome ↔
            x ∈ (k :: keys t.cache).take n := by
  obtain ⟨t, ran, kept, aged⟩ := trace_run capacity threshold calls
  have plain := trace_cache (some (freshTrace capacity threshold)) calls
  rw [ran] at plain
  refine ⟨t, ran, plain.symm, aged.sorted, ?_⟩
  intro k data now missing fits
  obtain ⟨added, evicted⟩ := insert_adds now kept.represented missing fits
  obtain ⟨n, bound, front, light, longest⟩ :=
    keepWithin_longest (blockSize (t.cache.addBlock k data now)) threshold.toNat (k :: keys t.cache)
  have order : keys (t.cache.insert k data now) = (k :: keys t.cache).take n := by
    rw [evicted.keys_eq, added.threshold_eq, kept.threshold_eq, added.keys_eq, front]
  refine ⟨n, order, bound, light, longest, fun x => ?_⟩
  rw [← evicted.represented.listed, order]

end RecencyOrder
