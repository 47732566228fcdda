import HyperDisk.SmartCache.CapacityBounds

/- What Get delivers against what was last put. Put on a key that is there copies into the
   old block and keeps its size, so the two agree exactly when sizes never change. -/
namespace CurrentData
open LittleEndian WeightedMaps WTinyLfu QueueInvariant StepRuns

structure Content extends Source where
  present : size ≠ 0 → data.isSome

def Content.bytes (c : Content) : Bytes := (c.data.getD []).take c.size.toNat

inductive CacheCall where
  | put (key : UInt64) (c : Content)
  | get (key : UInt64) (dst : Destination)
  | contains (key : UInt64)
  | remove (key : UInt64)
  | clear

structure Observed where
  cache : Cache
  latest : UInt64 → Option Bytes

def cacheStep (s : Option Observed) (call : CacheCall) : Option Observed := do
  let t ← s
  match call with
  | .put key c =>
    let (cache, _) ← t.cache.put key c.toSource true
    some ⟨cache, fun k => if k = key then some c.bytes else t.latest k⟩
  | .get key dst => some ⟨(t.cache.get key dst).cache, t.latest⟩
  | .contains _ => some t
  | .remove key => some ⟨(t.cache.remove key).1, t.latest⟩
  | .clear => some ⟨t.cache.clear, t.latest⟩

def freshCache (capacity windowRatio protectedRatio : UInt32) : Option Observed :=
  some ⟨newCache capacity windowRatio protectedRatio, fun _ => none⟩

/-- Any Get that hits with a large enough buffer returns the size and the bytes of the
    most recent Put of its key. -/
def Current (s : Option Observed) : Prop :=
  ∃ t, s = some t ∧ ∀ (key : UInt64) (dst : Destination), dst.buffer.isSome →
    (t.cache.get key dst).found = true → (t.cache.get key dst).outSize ≤ dst.size →
      ∃ bytes filled, t.latest key = some bytes ∧
        (t.cache.get key dst).outSize.toNat = bytes.length ∧
        (t.cache.get key dst).buffer = some filled ∧ filled.take bytes.length = bytes

def SameSize (s : Option Observed) : CacheCall → Prop
  | .put key c => ∀ t e, s = some t → t.cache.entries.lookup key = some e → e.size = c.size
  | _ => True

theorem content_length (c : Content) : c.bytes.length = c.size.toNat := by
  by_cases zero : c.size = 0
  · simp [Content.bytes, zero]
  · obtain ⟨bytes, given⟩ := Option.isSome_iff_exists.mp (c.present zero)
    have enough := c.readable bytes given
    simp only [Content.bytes, given, Option.getD_some, List.length_take]
    omega

def Holds (e : Entry) (bytes : Bytes) : Prop :=
  e.data.getD [] = bytes ∧ (e.data = none → e.size = 0)

theorem holds_length {e : Entry} {bytes : Bytes} (h : Holds e bytes) :
    bytes.length = e.size.toNat := by
  obtain ⟨data, empty⟩ := h
  cases stored : e.data with
  | none =>
    rw [stored, Option.getD_none] at data
    rw [← data, empty stored]
    rfl
  | some block =>
    rw [stored, Option.getD_some] at data
    rw [← data]
    exact (e.block block stored).1

def Matches (t : Observed) : Prop :=
  ∀ key e, t.cache.entries.lookup key = some e → ∃ bytes, t.latest key = some bytes ∧ Holds e bytes

theorem holds_newEntry (c : Content) : Holds (newEntry c.toSource true) c.bytes := by
  by_cases zero : c.size = 0
  · simp [Holds, newEntry, Content.bytes, zero]
  · obtain ⟨bytes, given⟩ := Option.isSome_iff_exists.mp (c.present zero)
    have positive : 0 < c.size := by
      rw [UInt32.lt_iff_toNat_lt]
      exact Nat.pos_of_ne_zero fun none => zero (UInt32.toNat_inj.mp none)
    simp [Holds, newEntry, Content.bytes, positive, given]

theorem holds_overwrite {e e' : Entry} {bytes : Bytes} {c : Content} (h : Holds e bytes)
    (size : e.size = c.size) (copied : e.overwrite c.toSource = some e') : Holds e' c.bytes := by
  unfold Entry.overwrite at copied
  split at copied
  · rename_i none
    cases copied
    have zero := h.2 none
    refine ⟨?_, h.2⟩
    rw [none, Content.bytes, ← size, zero]
    rfl
  · rename_i block stored
    obtain ⟨exact, positive⟩ := e.block block stored
    split at copied
    · split at copied
      · cases copied
      · rename_i given held
        cases copied
        refine ⟨?_, fun none => by cases none⟩
        have whole : block.drop c.size.toNat = [] := by
          apply List.drop_of_length_le
          rw [exact, size]
        simp [Content.bytes, held, size, whole]
    · rename_i zero
      rw [size] at positive
      exact absurd ((UInt32.lt_iff_toNat_lt (a := 0)).mpr positive) zero

theorem get_lookup {s : Cache} {key x : UInt64} {dst : Destination} {e' : Entry}
    (found : (s.get key dst).cache.entries.lookup x = some e') :
    ∃ e, s.entries.lookup x = some e ∧ e.data = e'.data ∧ e.size = e'.size := by
  have same := CapacityBounds.get_contents s key dst x
  rw [CapacityBounds.contents, found, Option.map_some] at same
  obtain ⟨e, stored, pair⟩ := Option.map_eq_some_iff.mp same.symm
  exact ⟨e, stored, Prod.mk.inj pair⟩

theorem remove_lookup {s : Cache} {key x : UInt64} {e : Entry}
    (found : (s.remove key).1.entries.lookup x = some e) : s.entries.lookup x = some e := by
  unfold Cache.remove at found
  split at found
  · exact found
  · rename_i old stored
    have erased : (s.entries.erase key).lookup x = some e := by
      cases place : old.queue <;> simpa [place, Cache.unqueue] using found
    rw [lookup_erase_eq] at erased
    split at erased
    · cases erased
    · exact erased

theorem content_given (c : Content) : c.data.isSome ∨ c.size = 0 := by
  by_cases zero : c.size = 0
  · exact Or.inr zero
  · exact Or.inl (c.present zero)

theorem matches_insert {t : Observed} {cache : Cache} {key : UInt64} {e : Entry} {bytes : Bytes}
    {rest : Map UInt64 Entry} (h : Matches t) (holds : Holds e bytes)
    (entries : cache.entries = rest.insert key e)
    (older : ∀ x e, rest.lookup x = some e → t.cache.entries.lookup x = some e) :
    Matches ⟨cache, fun k => if k = key then some bytes else t.latest k⟩ := by
  intro x e' found
  dsimp only at found ⊢
  rw [entries, lookup_insert_eq] at found
  split at found
  · rename_i here
    cases found
    exact ⟨bytes, by rw [if_pos here], holds⟩
  · rename_i other
    rw [if_neg other]
    exact h x e' (older x e' found)

theorem matches_put {t : Observed} {key : UInt64} {c : Content} (h : Matches t)
    (size : ∀ e, t.cache.entries.lookup key = some e → e.size = c.size) :
    ∃ t', cacheStep (some t) (.put key c) = some t' ∧ Matches t' := by
  cases stored : t.cache.entries.lookup key with
  | some e =>
    obtain ⟨bytes, _, holds⟩ := h key e stored
    obtain ⟨e', copied⟩ := Option.isSome_iff_exists.mp (overwrite_isSome e (content_given c))
    have step := holds_overwrite holds (size e stored) copied
    refine ⟨_, by simp [cacheStep, Cache.put, stored, copied]; rfl, ?_⟩
    exact matches_insert h step rfl fun _ _ old => old
  | none =>
    refine ⟨_, by simp [cacheStep, Cache.put, stored]; rfl, ?_⟩
    exact matches_insert h (holds_newEntry c) rfl fun _ _ kept => makeRoom_lookup _ kept

theorem matches_step (s : Option Observed) (call : CacheCall)
    (h : ∃ t, s = some t ∧ Matches t) (same : SameSize s call) :
    ∃ t, cacheStep s call = some t ∧ Matches t := by
  obtain ⟨t, rfl, matches'⟩ := h
  cases call with
  | put key c => exact matches_put matches' fun e stored => same t e rfl stored
  | get key dst =>
    refine ⟨_, rfl, fun x e' found => ?_⟩
    obtain ⟨e, stored, data, size⟩ := get_lookup found
    obtain ⟨bytes, latest, held, empty⟩ := matches' x e stored
    exact ⟨bytes, latest, data ▸ held, by rw [← data, ← size]; exact empty⟩
  | contains key => exact ⟨t, rfl, matches'⟩
  | remove key => exact ⟨_, rfl, fun x e found => matches' x e (remove_lookup found)⟩
  | clear =>
    refine ⟨_, rfl, fun x e found => ?_⟩
    cases found

theorem deliver_holds {e : Entry} {bytes : Bytes} {dst : Destination} (h : Holds e bytes)
    (buffer : dst.buffer.isSome) (fits : e.size ≤ dst.size) :
    ∃ filled, e.deliver dst = some filled ∧ filled.take bytes.length = bytes := by
  obtain ⟨out, given⟩ := Option.isSome_iff_exists.mp buffer
  have length := holds_length h
  obtain ⟨data, empty⟩ := h
  cases stored : e.data with
  | none =>
    rw [stored, Option.getD_none] at data
    subst data
    exact ⟨out, by simp [Entry.deliver, given, stored], rfl⟩
  | some block =>
    rw [stored, Option.getD_some] at data
    subst data
    refine ⟨block ++ out.drop e.size.toNat, by simp [Entry.deliver, given, stored, fits], ?_⟩
    exact List.take_left

theorem get_hit {s : Cache} {key : UInt64} {dst : Destination}
    (hit : (s.get key dst).found = true) :
    ∃ e, s.entries.lookup key = some e ∧ (s.get key dst).outSize = e.size ∧
      (s.get key dst).buffer = e.deliver dst := by
  unfold Cache.get at hit ⊢
  split
  · rename_i absent
    simp [absent] at hit
  · rename_i e stored
    exact ⟨e, stored, rfl, rfl⟩

theorem current_of_matches (s : Option Observed) (h : ∃ t, s = some t ∧ Matches t) : Current s := by
  obtain ⟨t, rfl, matches'⟩ := h
  refine ⟨t, rfl, fun key dst buffer hit fits => ?_⟩
  obtain ⟨e, stored, size, delivered⟩ := get_hit hit
  obtain ⟨bytes, latest, holds⟩ := matches' key e stored
  rw [size] at fits
  obtain ⟨filled, copied, same⟩ := deliver_holds holds buffer fits
  exact ⟨bytes, filled, latest, by rw [size, holds_length holds], by rw [delivered, copied], same⟩

/-- After a Put of another size, a Get of the key would still return the old one. -/
theorem sameSize_of_current (s : Option Observed) (call : CacheCall)
    (after : Current (cacheStep s call)) : SameSize s call := by
  cases call with
  | put key c =>
    rintro t e rfl stored
    obtain ⟨e', copied⟩ := Option.isSome_iff_exists.mp (overwrite_isSome e (content_given c))
    have kept := (overwrite_same copied).2
    obtain ⟨t', step, returns⟩ := after
    simp only [cacheStep, Cache.put, stored, copied, Option.map_some, Option.bind_eq_bind,
      Option.bind_some, Option.some.injEq] at step
    subst step
    -- A buffer of exactly the entry's size is large enough for this Get.
    have hit := returns key ⟨some (List.replicate e.size.toNat 0), e.size, by simp⟩ rfl
    simp only [Cache.get, lookup_insert_eq, if_true, kept, UInt32.le_refl, forall_const] at hit
    obtain ⟨bytes, _, latest, size, _⟩ := hit
    cases latest
    rw [content_length] at size
    exact UInt32.toNat_inj.mp size
  | get key dst => trivial
  | contains key => trivial
  | remove key => trivial
  | clear => trivial

/-- Get returns current data throughout a run exactly when every Put of a key that is
    there passes the size it has. -/
theorem current_data_iff_same_size (capacity windowRatio protectedRatio : UInt32)
    (calls : List CacheCall) :
    Always cacheStep Current (freshCache capacity windowRatio protectedRatio) calls ↔
      Meets cacheStep SameSize (freshCache capacity windowRatio protectedRatio) calls := by
  constructor
  · intro always
    generalize freshCache capacity windowRatio protectedRatio = s at always
    induction calls generalizing s with
    | nil => trivial
    | cons call calls ih =>
      exact ⟨sameSize_of_current s call (always_head always.2), ih _ always.2⟩
  · intro meets
    have start : ∃ t, freshCache capacity windowRatio protectedRatio = some t ∧ Matches t :=
      ⟨_, rfl, fun key e found => by cases found⟩
    exact always_mono current_of_matches (invariant_always start matches_step meets)

def shrinkingPuts : List CacheCall :=
  [.put 1 ⟨⟨some [97, 98], 2, by simp⟩, by simp⟩, .put 1 ⟨⟨some [99], 1, by simp⟩, by simp⟩]

def putAndGet (s : Option Observed) : Option (Option Bytes × Bool × UInt32 × Option Bytes) :=
  s.map fun t =>
    let r := t.cache.get 1 ⟨some [0, 0], 2, by simp⟩
    (t.latest 1, r.found, r.outSize, r.buffer)

theorem stale_size_returned :
    putAndGet (run cacheStep (freshCache 10 1 80) shrinkingPuts) =
        some (some [99], true, 2, some [99, 98]) ∧
      ¬ Always cacheStep Current (freshCache 10 1 80) shrinkingPuts := by
  have returned : putAndGet (run cacheStep (freshCache 10 1 80) shrinkingPuts) =
      some (some [99], true, 2, some [99, 98]) := by decide +kernel
  refine ⟨returned, fun always => ?_⟩
  obtain ⟨t, reached, current⟩ := always_run always
  simp only [putAndGet, reached, Option.map_some, Option.some.injEq, Prod.mk.injEq] at returned
  obtain ⟨latest, found, size, _⟩ := returned
  obtain ⟨bytes, _, last, length, _⟩ := current 1 ⟨some [0, 0], 2, by simp⟩ rfl found
    (by rw [size]; exact UInt32.le_refl _)
  rw [latest] at last
  cases last
  rw [size] at length
  exact absurd length (by decide)

end CurrentData
