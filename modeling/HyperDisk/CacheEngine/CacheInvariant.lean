import HyperDisk.Foundations.WeightedLists
import HyperDisk.CacheEngine.L3SsdCache

/- What each operation of the cache does to the recency list and to the cached blocks, and the
   invariant that its three containers and its byte counter keep. -/
namespace CacheInvariant
open LittleEndian StepRuns WeightedMaps WeightedLists NodeLists L3SsdCache

def keys (s : L3Cache) : List UInt64 := s.lruList.map Node.key

def contents (s : L3Cache) (k : UInt64) : Option Bytes := (s.entries.lookup k).map CacheEntry.data

def blockSize (s : L3Cache) (k : UInt64) : Nat := ((contents s k).map List.length).getD 0

structure Represented (s : L3Cache) : Prop where
  wired : Wired s.lruList s.lruMap s.nextNode
  listed : ∀ k, k ∈ keys s ↔ (s.entries.lookup k).isSome
  accounted : s.usedBytes.toNat = s.cachedBytes

variable {s t : L3Cache} {k : UInt64} {e : CacheEntry}

theorem new_represented (capacity threshold : UInt64) : Represented (newCache capacity threshold) :=
  ⟨wired_nil, fun k => by simp [keys, newCache], rfl⟩

theorem used_eq_weigh (h : Represented s) : s.usedBytes.toNat = weigh (blockSize s) (keys s) := by
  have same : (fun k => ((s.entries.lookup k).map fun e => e.data.length).getD 0) =
      blockSize s := by
    funext k
    cases stored : s.entries.lookup k <;> simp [blockSize, contents, stored]
  rw [h.accounted, L3Cache.cachedBytes, total_eq_weigh h.wired.keys h.listed, same]
  rfl

theorem listed_iff (h : Represented s) (k : UInt64) : k ∈ keys s ↔ (contents s k).isSome := by
  rw [h.listed, contents, Option.isSome_map]

theorem size_le_used (h : Represented s) (stored : s.entries.lookup k = some e) :
    e.data.length ≤ s.usedBytes.toNat := by
  rw [h.accounted, L3Cache.cachedBytes, total_erase stored]
  exact Nat.le_add_right _ _

theorem used_sub (h : Represented s) (stored : s.entries.lookup k = some e) :
    (s.usedBytes - UInt64.ofNat e.data.length).toNat =
      total (fun e => e.data.length) (s.entries.erase k) := by
  have covered := size_le_used h stored
  have below := s.usedBytes.toNat_lt
  have size : (UInt64.ofNat e.data.length).toNat = e.data.length :=
    UInt64.toNat_ofNat_of_lt' (Nat.lt_of_le_of_lt covered below)
  have whole : s.cachedBytes = e.data.length + total (fun e => e.data.length) (s.entries.erase k) :=
    total_erase stored
  rw [UInt64.toNat_sub_of_le _ _ (UInt64.le_iff_toNat_le.mpr (by rw [size]; exact covered)), size,
    h.accounted, whole, Nat.add_sub_cancel_left]

structure Removed (s : L3Cache) (k : UInt64) (t : L3Cache) : Prop where
  represented : Represented t
  keys_eq : keys t = (keys s).erase k
  contents_eq : ∀ x, contents t x = if x = k then none else contents s x
  threshold_eq : t.threshold = s.threshold
  used_le : t.usedBytes ≤ s.usedBytes

theorem removed_of {n : Node UInt64} (h : Represented s) (member : n ∈ s.lruList)
    (stored : s.entries.lookup n.key = some e) {rest : List (Node UInt64)}
    (order : rest.Perm (s.lruList.erase n)) (same : rest.map Node.key = (keys s).erase n.key) :
    Removed s n.key { s with
      usedBytes := s.usedBytes - UInt64.ofNat e.data.length
      entries := s.entries.erase n.key
      lruList := rest
      lruMap := s.lruMap.erase n.key } where
  represented := {
    wired := wired_perm (wired_erase h.wired member) order.symm
    listed := by
      intro x
      show x ∈ rest.map Node.key ↔ ((s.entries.erase n.key).lookup x).isSome
      have distinct : (keys s).Nodup := h.wired.keys
      rw [same, distinct.mem_erase_iff, h.listed, lookup_erase_eq]
      by_cases here : x = n.key <;> simp [here]
    accounted := used_sub h stored }
  keys_eq := same
  contents_eq x := by
    show ((s.entries.erase n.key).lookup x).map CacheEntry.data = _
    rw [lookup_erase_eq]
    split <;> rfl
  threshold_eq := rfl
  used_le := by
    rw [UInt64.le_iff_toNat_le, used_sub h stored, h.accounted, L3Cache.cachedBytes,
      total_erase stored]
    exact Nat.le_add_left _ _

theorem stored_node (h : Represented s) (stored : s.entries.lookup k = some e) :
    ∃ i, s.lruMap.lookup k = some i ∧ ⟨i, k⟩ ∈ s.lruList ∧
      unlink s.lruList i = some (⟨i, k⟩, s.lruList.erase ⟨i, k⟩) := by
  have member : k ∈ s.lruList.map Node.key := (h.listed k).mpr (by rw [stored]; rfl)
  obtain ⟨i, indexed, node⟩ := h.wired.iterator member
  exact ⟨i, indexed, node, unlink_eq h.wired node⟩

theorem invalidate_present (h : Represented s) (stored : s.entries.lookup k = some e) :
    ∃ t, s.invalidate k = some t ∧ Removed s k t := by
  obtain ⟨i, indexed, member, unlinked⟩ := stored_node h stored
  refine ⟨_, ?_, removed_of h member stored (List.Perm.refl _) (keys_erase h.wired member)⟩
  simp only [L3Cache.invalidate, stored, indexed, unlinked, Option.bind_eq_bind, Option.bind_some]

theorem invalidate_absent (missing : s.entries.lookup k = none) : s.invalidate k = some s := by
  simp only [L3Cache.invalidate, missing]

structure Touched (s : L3Cache) (k : UInt64) (t : L3Cache) : Prop where
  represented : Represented t
  keys_eq : keys t = k :: (keys s).erase k
  contents_eq : ∀ x, contents t x = contents s x
  threshold_eq : t.threshold = s.threshold
  used_eq : t.usedBytes = s.usedBytes

theorem lookup_present (h : Represented s) (stored : s.entries.lookup k = some e) (now : UInt64) :
    ∃ t, s.lookup k now = some (t, some e.data) ∧ Touched s k t := by
  obtain ⟨i, indexed, member, unlinked⟩ := stored_node h stored
  have order : ((⟨i, k⟩ : Node UInt64) :: s.lruList.erase ⟨i, k⟩).map Node.key =
      k :: (keys s).erase k := by
    rw [List.map_cons, keys_erase h.wired member]
    rfl
  have present : ∀ x, ((s.entries.insert k { e with
      accessCount := e.accessCount + 1, lastAccessNs := now }).lookup x).map CacheEntry.data =
        contents s x := by
    intro x
    rw [lookup_insert_eq, contents]
    split
    · rename_i here
      rw [here, stored]
      rfl
    · rfl
  have hit : s.lookup k now = some ({ s with
      hitCount := s.hitCount + 1
      entries := s.entries.insert k { e with accessCount := e.accessCount + 1, lastAccessNs := now }
      lruList := ⟨i, k⟩ :: s.lruList.erase ⟨i, k⟩ }, some e.data) := by
    simp only [L3Cache.lookup, stored, indexed, unlinked, Option.bind_eq_bind, Option.bind_some]
  refine ⟨_, hit, ⟨⟨wired_front h.wired member, ?_, ?_⟩, order, present, rfl, rfl⟩⟩
  · intro x
    have kept := listed_iff h x
    rw [← present x, Option.isSome_map] at kept
    show x ∈ ((⟨i, k⟩ : Node UInt64) :: s.lruList.erase ⟨i, k⟩).map Node.key ↔ _
    rw [order, ← kept]
    have front : (keys s).Perm (k :: (keys s).erase k) :=
      List.perm_cons_erase ((h.listed k).mpr (by rw [stored]; rfl))
    exact front.mem_iff.symm
  · show s.usedBytes.toNat = total (fun e => e.data.length) (s.entries.insert k _)
    rw [h.accounted]
    exact (total_replace stored rfl).symm

theorem lookup_absent (missing : s.entries.lookup k = none) (now : UInt64) :
    s.lookup k now = some ({ s with missCount := s.missCount + 1 }, none) := by
  simp only [L3Cache.lookup, missing]

theorem missed_represented (h : Represented s) :
    Represented { s with missCount := s.missCount + 1 } := ⟨h.wired, h.listed, h.accounted⟩

structure Added (s : L3Cache) (k : UInt64) (data : Bytes) (t : L3Cache) : Prop where
  represented : Represented t
  keys_eq : keys t = k :: keys s
  contents_eq : ∀ x, contents t x = if x = k then some data else contents s x
  threshold_eq : t.threshold = s.threshold

theorem addBlock_spec {data : Bytes} (h : Represented s) (missing : s.entries.lookup k = none)
    (fits : s.cachedBytes + data.length < UInt64.size) (now : UInt64) :
    Added s k data (s.addBlock k data now) where
  represented := {
    wired := by
      apply wired_push h.wired
      intro member
      have present := (h.listed k).mp member
      rw [missing] at present
      cases present
    listed := by
      intro x
      show x ∈ k :: keys s ↔ ((s.entries.insert k _).lookup x).isSome
      rw [lookup_insert_eq, List.mem_cons, h.listed]
      by_cases here : x = k <;> simp [here]
    accounted := by
      show (s.usedBytes + UInt64.ofNat data.length).toNat =
        total (fun e => e.data.length) (s.entries.insert k ⟨k, data, 1, now⟩)
      have whole : total (fun e => e.data.length) (s.entries.insert k ⟨k, data, 1, now⟩) =
        data.length + s.cachedBytes := total_fresh missing _
      have size : (UInt64.ofNat data.length).toNat = data.length :=
        UInt64.toNat_ofNat_of_lt' (by omega)
      rw [whole, UInt64.toNat_add, size, h.accounted]
      exact (Nat.mod_eq_of_lt fits).trans (Nat.add_comm _ _) }
  keys_eq := rfl
  contents_eq x := by
    show ((s.entries.insert k _).lookup x).map CacheEntry.data = _
    rw [lookup_insert_eq]
    split <;> rfl
  threshold_eq := rfl

theorem evictOne_over (h : Represented s) (full : s.threshold < s.usedBytes) :
    ∃ front k t, keys s = front ++ [k] ∧ k ∉ front ∧ s.evictOne = some t ∧ Removed s k t ∧
      keys t = front := by
  have filled : s.lruList ≠ [] := by
    intro none
    have used := used_eq_weigh h
    rw [keys, none] at used
    rw [UInt64.lt_iff_toNat_lt, used] at full
    exact absurd full (Nat.not_lt_zero _)
  obtain ⟨front, victim, order⟩ : ∃ front victim, s.lruList = front ++ [victim] :=
    ⟨_, _, (List.dropLast_append_getLast filled).symm⟩
  have listed : keys s = front.map Node.key ++ [victim.key] := by
    rw [keys, order, List.map_append, List.map_singleton]
  have member : victim ∈ s.lruList := by simp [order]
  obtain ⟨e, stored⟩ := Option.isSome_iff_exists.mp
    ((h.listed victim.key).mp (by simp [listed]))
  have distinct : (front.map Node.key ++ [victim.key]).Nodup := listed ▸ h.wired.keys
  have alone : victim.key ∉ front.map Node.key := fun inside =>
    (List.nodup_append.mp distinct).2.2 _ inside _ (List.mem_singleton_self _) rfl
  have rest : (keys s).erase victim.key = front.map Node.key := by
    rw [listed, List.erase_append_right _ alone, List.erase_cons_head, List.append_nil]
  have moved : front.Perm (s.lruList.erase victim) := by
    have split : s.lruList.Perm (victim :: front) := order ▸ List.perm_append_comm
    have erased := split.erase victim
    rw [List.erase_cons_head] at erased
    exact erased.symm
  have gone := removed_of h member stored moved rest.symm
  refine ⟨front.map Node.key, victim.key, _, listed, alone, ?_, gone, rfl⟩
  simp [L3Cache.evictOne, full, order, stored]

theorem evictOne_within (room : s.usedBytes ≤ s.threshold) : s.evictOne = none := by
  rw [L3Cache.evictOne, if_neg (UInt64.not_lt.mpr room)]

/-- What EvictIfNeeded does: the least recent keys go until the rest fits the threshold. -/
structure Evicted (s t : L3Cache) : Prop where
  represented : Represented t
  keys_eq : keys t = keepWithin (blockSize s) s.threshold.toNat (keys s)
  contents_eq : ∀ x, contents t x = if x ∈ keys t then contents s x else none
  threshold_eq : t.threshold = s.threshold
  within : t.usedBytes ≤ t.threshold

theorem evicted_self (h : Represented s) (room : s.usedBytes ≤ s.threshold) : Evicted s s where
  represented := h
  keys_eq := by
    have fits := UInt64.le_iff_toNat_le.mp room
    rw [used_eq_weigh h] at fits
    exact (keepWithin_of_le fits).symm
  contents_eq x := by
    split
    · rfl
    · rename_i unlisted
      rw [listed_iff h, Option.not_isSome_iff_eq_none] at unlisted
      exact unlisted
  threshold_eq := rfl
  within := room

theorem evicted_after {front : List UInt64} {u : L3Cache} (h : Represented s)
    (full : s.threshold < s.usedBytes) (order : keys s = front ++ [k]) (alone : k ∉ front)
    (removed : Removed s k t) (rest : keys t = front) (evicted : Evicted t u) : Evicted s u where
  represented := evicted.represented
  keys_eq := by
    have heavy := UInt64.lt_iff_toNat_lt.mp full
    rw [used_eq_weigh h, order] at heavy
    rw [evicted.keys_eq, rest, removed.threshold_eq, order, keepWithin_drop heavy]
    apply keepWithin_congr
    intro x member
    have other : x ≠ k := fun same => alone (same ▸ member)
    rw [blockSize, blockSize, removed.contents_eq, if_neg other]
  contents_eq x := by
    rw [evicted.contents_eq]
    split
    · rename_i kept
      rw [evicted.keys_eq, rest] at kept
      have other : x ≠ k := fun same => alone (same ▸ (keepWithin_sublist _ _ _).subset kept)
      rw [removed.contents_eq, if_neg other]
    · rfl
  threshold_eq := evicted.threshold_eq.trans removed.threshold_eq
  within := evicted.within

theorem evictLoop_evicts {turns : Nat} (h : Represented s) (enough : (keys s).length ≤ turns) :
    Evicted s (s.evictLoop turns) := by
  induction turns generalizing s with
  | zero =>
    have none : keys s = [] := List.length_eq_zero_iff.mp (Nat.le_zero.mp enough)
    have used := used_eq_weigh h
    rw [none, weigh] at used
    exact evicted_self h (UInt64.le_iff_toNat_le.mpr (by omega))
  | succ turns ih =>
    by_cases room : s.usedBytes ≤ s.threshold
    · rw [L3Cache.evictLoop, evictOne_within room]
      exact evicted_self h room
    · have full := UInt64.not_le.mp room
      obtain ⟨front, k, t, order, alone, evicts, removed, rest⟩ := evictOne_over h full
      have fewer : (keys t).length ≤ turns := by
        rw [order, List.length_append, List.length_singleton] at enough
        rw [rest]
        omega
      rw [L3Cache.evictLoop, evicts]
      exact evicted_after h full order alone removed rest (ih removed.represented fewer)

theorem evictLoop_represented (h : Represented s) (turns : Nat) :
    Represented (s.evictLoop turns) := by
  induction turns generalizing s with
  | zero => exact h
  | succ turns ih =>
    by_cases room : s.usedBytes ≤ s.threshold
    · rw [L3Cache.evictLoop, evictOne_within room]
      exact h
    · obtain ⟨front, k, t, _, _, evicts, removed, _⟩ := evictOne_over h (UInt64.not_le.mp room)
      rw [L3Cache.evictLoop, evicts]
      exact ih removed.represented

theorem insert_present {data : Bytes} {now : UInt64} (stored : s.entries.lookup k = some e) :
    s.insert k data now = s := by
  rw [L3Cache.insert, stored, if_pos Option.isSome_some]

inductive Performed (s : L3Cache) : Call → L3Cache → Prop where
  | hit {k now : UInt64} {e : CacheEntry} {t : L3Cache} (stored : s.entries.lookup k = some e)
      (touched : Touched s k t) : Performed s (.lookup k now) t
  | missed {k now : UInt64} (missing : s.entries.lookup k = none) :
      Performed s (.lookup k now) { s with missCount := s.missCount + 1 }
  | present {k now : UInt64} {data : Bytes} {e : CacheEntry}
      (stored : s.entries.lookup k = some e) : Performed s (.insert k data now) s
  | refused {k now : UInt64} {data : Bytes} (missing : s.entries.lookup k = none) :
      Performed s (.insert k data now) s
  | inserted {k now : UInt64} {data : Bytes} {u t : L3Cache}
      (missing : s.entries.lookup k = none) (added : Added s k data u)
      (evicted : Evicted u t) : Performed s (.insert k data now) t
  | invalidated {k : UInt64} {e : CacheEntry} {t : L3Cache}
      (stored : s.entries.lookup k = some e) (removed : Removed s k t) :
      Performed s (.invalidate k) t
  | absent {k : UInt64} (missing : s.entries.lookup k = none) : Performed s (.invalidate k) s

theorem insert_adds {data : Bytes} (now : UInt64) (h : Represented s)
    (missing : s.entries.lookup k = none) (fits : s.cachedBytes + data.length < UInt64.size) :
    Added s k data (s.addBlock k data now) ∧
      Evicted (s.addBlock k data now) (s.insert k data now) := by
  have added := addBlock_spec h missing fits now
  refine ⟨added, ?_⟩
  rw [L3Cache.insert, if_neg (by simp [missing]), if_neg (Nat.not_le.mpr fits)]
  exact evictLoop_evicts added.represented (Nat.le_of_eq (List.length_map _))

theorem performs (h : Represented s) (call : Call) :
    ∃ t, s.perform call = some t ∧ Performed s call t := by
  cases call with
  | lookup k now =>
    cases stored : s.entries.lookup k with
    | none =>
      exact ⟨_, by rw [L3Cache.perform, lookup_absent stored now]; rfl, .missed stored⟩
    | some e =>
      obtain ⟨t, hit, touched⟩ := lookup_present h stored now
      exact ⟨t, by rw [L3Cache.perform, hit]; rfl, .hit stored touched⟩
  | insert k data now =>
    refine ⟨_, rfl, ?_⟩
    cases stored : s.entries.lookup k with
    | some e =>
      rw [insert_present stored]
      exact .present stored
    | none =>
      by_cases fits : s.cachedBytes + data.length < UInt64.size
      · obtain ⟨added, evicted⟩ := insert_adds now h stored fits
        exact .inserted stored added evicted
      · rw [L3Cache.insert, if_neg (by simp [stored]), if_pos (Nat.not_lt.mp fits)]
        exact .refused stored
  | invalidate k =>
    cases stored : s.entries.lookup k with
    | none => exact ⟨s, invalidate_absent stored, .absent stored⟩
    | some e =>
      obtain ⟨t, gone, removed⟩ := invalidate_present h stored
      exact ⟨t, gone, .invalidated stored removed⟩

/-- The states a cache with this threshold is in between its operations. -/
structure Kept (threshold : UInt64) (s : L3Cache) : Prop where
  represented : Represented s
  threshold_eq : s.threshold = threshold
  within : s.usedBytes ≤ threshold

theorem performed_kept {threshold : UInt64} {call : Call} (h : Kept threshold s)
    (done : Performed s call t) : Kept threshold t := by
  cases done with
  | hit _ touched =>
    exact ⟨touched.represented, touched.threshold_eq.trans h.threshold_eq,
      touched.used_eq ▸ h.within⟩
  | missed _ => exact ⟨missed_represented h.represented, h.threshold_eq, h.within⟩
  | present _ => exact h
  | refused _ => exact h
  | inserted _ added evicted =>
    have same := (evicted.threshold_eq.trans added.threshold_eq).trans h.threshold_eq
    exact ⟨evicted.represented, same, same ▸ evicted.within⟩
  | invalidated _ removed =>
    exact ⟨removed.represented, removed.threshold_eq.trans h.threshold_eq,
      UInt64.le_trans removed.used_le h.within⟩
  | absent _ => exact h

theorem perform_kept {threshold : UInt64} (s : L3Cache) (call : Call) (h : Kept threshold s) :
    ∃ t, step (some s) call = some t ∧ Kept threshold t := by
  obtain ⟨t, done, performed⟩ := performs h.represented call
  exact ⟨t, done, performed_kept h performed⟩

theorem kept_run (capacity threshold : UInt64) (calls : List Call) :
    ∃ s, run step (some (newCache capacity threshold)) calls = some s ∧ Kept threshold s :=
  defined_run calls ⟨new_represented capacity threshold, rfl, UInt64.zero_le⟩ perform_kept

def NoUnderflow (s : L3Cache) : Prop :=
  ∀ k e, s.entries.lookup k = some e → e.data.length ≤ s.usedBytes.toNat

/-- After any calls the containers agree, the counter is the sum of the sizes and at most the
    threshold. The loop of a further Insert keeps the first two through every turn and ends with
    its condition false and the bound restored. -/
theorem l3_representation (capacity threshold : UInt64) (calls : List Call) :
    ∃ s, run step (some (newCache capacity threshold)) calls = some s ∧
      Represented s ∧ NoUnderflow s ∧ s.usedBytes ≤ threshold ∧
      ∀ k data now, s.entries.lookup k = none → s.cachedBytes + data.length < UInt64.size →
        (∀ turns, Represented ((s.addBlock k data now).evictLoop turns) ∧
          NoUnderflow ((s.addBlock k data now).evictLoop turns)) ∧
        (s.insert k data now).evictOne = none ∧ (s.insert k data now).usedBytes ≤ threshold := by
  obtain ⟨s, ran, kept⟩ := kept_run capacity threshold calls
  have covered : ∀ {u : L3Cache}, Represented u → NoUnderflow u := fun h _ _ stored =>
    size_le_used h stored
  refine ⟨s, ran, kept.represented, covered kept.represented, kept.within, ?_⟩
  intro k data now missing fits
  obtain ⟨added, evicted⟩ := insert_adds now kept.represented missing fits
  have done : Performed s (.insert k data now) (s.insert k data now) :=
    .inserted missing added evicted
  have next := performed_kept kept done
  refine ⟨fun turns => ?_, evictOne_within evicted.within, next.within⟩
  have turned := evictLoop_represented added.represented turns
  exact ⟨turned, covered turned⟩

example :
    (run step (some (newCache 10 9)) [.insert 1 [1, 2] 0, .insert 2 (List.replicate 10 0) 1]).map
      (fun s => (keys s, s.usedBytes)) = some ([], 0) := by
  decide +kernel

end CacheInvariant
