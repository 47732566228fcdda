import HyperDisk.SmartCache.CapacityBounds

/- The segment capacities against the queues. Put enters every key into the window and no
   operation hands one on, so the window grows to the whole capacity while the other two
   queues stay empty. -/
namespace SegmentBounds
open WeightedMaps TaggedQueues StepRuns WTinyLfu QueueInvariant CapacityBounds

def InSegments (s : Cache) : Prop :=
  s.windowQueue.length ≤ s.windowCapacity.toNat ∧
    s.probationQueue.length ≤ s.probationCapacity.toNat ∧
    s.protectedQueue.length ≤ s.protectedCapacity.toNat

def RoomInWindow (o : Option Cache) : Call → Prop
  | .put key _ _ => ∀ s, o = some s → s.entries.lookup key = none →
    s.entries.keys.length < s.windowCapacity.toNat ∨ s.totalCapacity ≤ s.windowCapacity
  | _ => True

/-- All keys are in the window; the capacities are the constructor's. -/
structure WindowOnly (capacity window : UInt32) (s : Cache) : Prop where
  inv : Inv s
  probation : s.probationQueue = []
  protect : s.protectedQueue = []
  total : s.totalCapacity = capacity
  window : s.windowCapacity = window

variable {capacity window : UInt32} {s : Cache}

theorem entry_in_window {key : UInt64} {e : Entry} (h : WindowOnly capacity window s)
    (stored : s.entries.lookup key = some e) : e.queue = .window := by
  have place : key ∈ queues s e.queue :=
    (placed_mem h.inv.placed).mpr (by rw [tag, stored]; rfl)
  cases queue : e.queue with
  | window => rfl
  | probation => simp [queue, queues, layout, h.probation] at place
  | protect => simp [queue, queues, layout, h.protect] at place

theorem window_length (h : WindowOnly capacity window s) :
    s.windowQueue.length = s.entries.keys.length := by
  have placed := h.inv.placed
  have nodup : s.windowQueue.Nodup := by
    rw [List.nodup_iff_count_le_one]
    intro key
    have count := placed .window key
    simp only [queues, layout] at count
    rw [count]
    split <;> omega
  have members : ∀ key, key ∈ s.windowQueue ↔ key ∈ s.entries.keys := by
    intro key
    have window : key ∈ s.windowQueue ↔ tag s key = some .window := placed_mem placed (q := .window)
    rw [window, ← AList.mem_keys, ← AList.lookup_isSome, tag]
    cases stored : s.entries.lookup key with
    | none => simp
    | some e => simp [entry_in_window h stored]
  exact ((List.perm_ext_iff_of_nodup nodup s.entries.keys_nodup).mpr members).length_eq

theorem inSegments_iff (h : WindowOnly capacity window s) :
    InSegments s ↔ s.entries.keys.length ≤ window.toNat := by
  rw [InSegments, window_length h, h.probation, h.protect, h.window]
  simp

theorem queued_length (h : WindowOnly capacity window s) : s.queued = s.entries.keys.length := by
  rw [Cache.queued, window_length h, h.probation, h.protect]
  rfl

theorem evictOne_window (h : WindowOnly capacity window s) :
    (s.entries.keys.length = 0 ∧ s.evictOne = (s, false)) ∨
      (s.evictOne.2 = true ∧ s.evictOne.1.entries.keys.length + 1 = s.entries.keys.length ∧
        WindowOnly capacity window s.evictOne.1) := by
  have inv := evictOne_inv h.inv
  have length := window_length h
  cases queue : s.windowQueue with
  | nil =>
    left
    rw [queue] at length
    exact ⟨length.symm, by simp [Cache.evictOne, Cache.victim, queue, h.probation, h.protect]⟩
  | cons key rest =>
    right
    have tagged : tag s key = some .window :=
      (placed_mem h.inv.placed).mp (by simp [queues, layout, queue])
    obtain ⟨e, stored, _⟩ := lookup_of_tag tagged
    simp only [Cache.evictOne, Cache.victim, queue, stored] at inv ⊢
    exact ⟨trivial, keys_length_erase stored, inv, h.probation, h.protect, h.total, h.window⟩

theorem makeRoom_window (fuel : Nat) (h : WindowOnly capacity window s)
    (enough : s.entries.keys.length < fuel) :
    (makeRoom fuel s).entries.keys.length = min s.entries.keys.length (capacity.toNat - 1) ∧
      WindowOnly capacity window (makeRoom fuel s) := by
  induction fuel generalizing s with
  | zero => omega
  | succ fuel ih =>
    have total := h.total
    unfold makeRoom
    split
    · rename_i full
      rw [total] at full
      dsimp only
      rcases evictOne_window h with ⟨empty, stuck⟩ | ⟨evicted, fewer, next⟩
      · rw [stuck, if_neg (by simp)]
        dsimp only
        exact ⟨by omega, h⟩
      · rw [if_pos evicted]
        obtain ⟨length, only⟩ := ih next (by omega)
        exact ⟨by omega, only⟩
    · rename_i room
      rw [total] at room
      exact ⟨by omega, h⟩

theorem put_window {s' : Cache} {key : UInt64} {src : Source} {mallocs ok : Bool}
    (h : WindowOnly capacity window s) (done : s.put key src mallocs = some (s', ok)) :
    WindowOnly capacity window s' ∧ s'.entries.keys.length =
      if (s.entries.lookup key).isSome then s.entries.keys.length
      else min s.entries.keys.length (capacity.toNat - 1) + 1 := by
  have inv := put_inv h.inv done
  cases stored : s.entries.lookup key with
  | some e =>
    obtain ⟨e', _, rfl⟩ := put_stored stored done
    refine ⟨⟨inv, h.probation, h.protect, h.total, h.window⟩, ?_⟩
    rw [if_pos (Option.isSome_some)]
    exact keys_length_replace stored e'
  | none =>
    simp only [Cache.put, stored] at done
    obtain ⟨length, only⟩ := makeRoom_window (s.queued + 1) h (by rw [queued_length h]; omega)
    have absent := makeRoom_absent (s.queued + 1) stored
    cases done
    refine ⟨⟨inv, only.probation, only.protect, only.total, only.window⟩, ?_⟩
    rw [if_neg (by simp), ← length]
    exact keys_length_insert absent _

theorem get_window (key : UInt64) (dst : Destination) (h : WindowOnly capacity window s) :
    WindowOnly capacity window (s.get key dst).cache := by
  have inv := get_inv key dst h.inv
  cases stored : s.entries.lookup key with
  | none =>
    simp only [Cache.get, stored] at inv ⊢
    exact ⟨inv, h.probation, h.protect, h.total, h.window⟩
  | some e =>
    have place : ¬ e.queue = .probation := by
      rw [entry_in_window h stored]
      decide
    simp only [Cache.get, stored, if_neg place] at inv ⊢
    exact ⟨inv, h.probation, h.protect, h.total, h.window⟩

theorem remove_window (key : UInt64) (h : WindowOnly capacity window s) :
    WindowOnly capacity window (s.remove key).1 := by
  have inv := remove_inv key h.inv
  cases stored : s.entries.lookup key with
  | none =>
    simp only [Cache.remove, stored] at inv ⊢
    exact h
  | some e =>
    simp only [Cache.remove, stored, entry_in_window h stored, Cache.unqueue] at inv ⊢
    exact ⟨inv, h.probation, h.protect, h.total, h.window⟩

theorem callStep_window {s' : Cache} {call : Call} (h : WindowOnly capacity window s)
    (done : callStep (some s) call = some s') : WindowOnly capacity window s' := by
  cases call with
  | put key src mallocs =>
    obtain ⟨⟨next, ok⟩, put, same⟩ := Option.map_eq_some_iff.mp done
    cases same
    exact (put_window h put).1
  | get key dst =>
    cases done
    exact get_window key dst h
  | remove key =>
    cases done
    exact remove_window key h
  | clear =>
    cases done
    exact ⟨clear_inv s, rfl, rfl, h.total, h.window⟩

theorem call_inSegments_iff {s' : Cache} {call : Call} (h : WindowOnly capacity window s)
    (positive : 1 ≤ window.toNat) (bounded : InSegments s)
    (done : callStep (some s) call = some s') : InSegments s' ↔ RoomInWindow (some s) call := by
  have next := callStep_window h done
  rw [inSegments_iff h] at bounded
  rw [inSegments_iff next]
  cases call with
  | put key src mallocs =>
    obtain ⟨⟨after, ok⟩, put, same⟩ := Option.map_eq_some_iff.mp done
    cases same
    rw [(put_window h put).2]
    cases stored : s.entries.lookup key with
    | some e =>
      rw [if_pos (Option.isSome_some)]
      refine ⟨fun _ t same absent => ?_, fun _ => bounded⟩
      cases same
      rw [stored] at absent
      cases absent
    | none =>
      rw [if_neg (by simp)]
      have condition : RoomInWindow (some s) (.put key src mallocs) ↔
          s.entries.keys.length < window.toNat ∨ capacity.toNat ≤ window.toNat := by
        rw [← h.window, ← h.total, ← UInt32.le_iff_toNat_le]
        constructor
        · intro room
          exact room s rfl stored
        · intro room t same _
          cases same
          exact room
      rw [condition]
      omega
  | get key dst =>
    cases done
    rw [keys_length_of_contents (get_contents s key dst)]
    exact ⟨fun _ => trivial, fun _ => bounded⟩
  | remove key =>
    cases done
    refine ⟨fun _ => trivial, fun _ => ?_⟩
    rcases (remove_fields s key).2.2 with same | erased
    · rw [same]
      exact bounded
    · rw [erased, AList.keys_erase]
      exact Nat.le_trans (List.erase_sublist.length_le) bounded
  | clear =>
    cases done
    exact ⟨fun _ => trivial, fun _ => Nat.zero_le _⟩

def freshPuts (k : Nat) : List Call :=
  (List.range k).map fun i => .put (UInt64.ofNat i) ⟨none, 0, by simp⟩ true

theorem freshPuts_count (k : Nat) (fresh : WindowOnly capacity window s)
    (empty : s.entries = ∅) (few : k ≤ capacity.toNat) :
    ∃ t, run callStep (some s) (freshPuts k) = some t ∧ WindowOnly capacity window t ∧
      t.entries.keys.length = k ∧ ∀ x e, t.entries.lookup x = some e → x.toNat < k := by
  have limit := capacity.toNat_lt
  induction k with
  | zero => exact ⟨s, rfl, fresh, by rw [empty]; rfl,
      fun x e found => by rw [empty] at found; cases found⟩
  | succ k ih =>
    obtain ⟨t, reached, only, length, below⟩ := ih (by omega)
    have number : (UInt64.ofNat k).toNat = k := by
      rw [UInt64.toNat_ofNat']
      exact Nat.mod_eq_of_lt (by omega)
    have absent : t.entries.lookup (UInt64.ofNat k) = none := by
      cases found : t.entries.lookup (UInt64.ofNat k) with
      | none => rfl
      | some e =>
        have := below _ e found
        omega
    obtain ⟨t', put⟩ : ∃ t', t.put (UInt64.ofNat k) ⟨none, 0, by simp⟩ true = some (t', true) := by
      simp only [Cache.put, absent]
      exact ⟨_, rfl⟩
    obtain ⟨only', length'⟩ := put_window only put
    refine ⟨t', ?_, only', ?_, ?_⟩
    · rw [freshPuts, List.range_succ, List.map_append, run_append]
      show run callStep (run callStep (some s) (freshPuts k)) _ = _
      rw [reached]
      show (t.put _ _ _).map Prod.fst = _
      rw [put]
      rfl
    · rw [length', absent, if_neg (by simp)]
      omega
    · intro x e found
      simp only [Cache.put, absent, Option.some.injEq, Prod.mk.injEq, and_true] at put
      rw [← put] at found
      dsimp only at found
      rw [lookup_insert_eq] at found
      split at found
      · rename_i here
        rw [here, number]
        omega
      · have := below x e (makeRoom_lookup _ found)
        omega

theorem newCache_window (capacity windowRatio protectedRatio : UInt32) :
    WindowOnly capacity (orOne ((capacity * windowRatio) / 100))
      (newCache capacity windowRatio protectedRatio) :=
  ⟨fresh_inv capacity windowRatio protectedRatio, rfl, rfl, rfl, rfl⟩

theorem orOne_toNat (n : UInt32) : (orOne n).toNat = max 1 n.toNat := by
  unfold orOne
  split
  · rename_i zero
    rw [zero]
    rfl
  · rename_i nonzero
    have positive : n.toNat ≠ 0 := fun none => nonzero (UInt32.toNat_inj.mp none)
    omega

theorem windowCapacity_eq {windowRatio : UInt32} (ratio : windowRatio.toNat ≤ 100)
    (small : capacity.toNat * 100 < 2 ^ 32) :
    (orOne ((capacity * windowRatio) / 100)).toNat =
      max 1 (capacity.toNat * windowRatio.toNat / 100) := by
  have product : capacity.toNat * windowRatio.toNat ≤ capacity.toNat * 100 :=
    Nat.mul_le_mul_left _ ratio
  rw [orOne_toNat, UInt32.toNat_div, UInt32.toNat_mul, Nat.mod_eq_of_lt (by omega)]
  rfl

theorem capacity_le_window_iff {windowRatio : UInt32} (ratio : windowRatio.toNat ≤ 100)
    (small : capacity.toNat * 100 < 2 ^ 32) :
    capacity.toNat ≤ (orOne ((capacity * windowRatio) / 100)).toNat ↔
      capacity.toNat ≤ 1 ∨ windowRatio.toNat = 100 := by
  rw [windowCapacity_eq ratio small]
  constructor
  · intro whole
    by_contra neither
    have product : capacity.toNat * windowRatio.toNat ≤ capacity.toNat * 99 :=
      Nat.mul_le_mul_left _ (by omega)
    omega
  · rintro (tiny | all)
    · omega
    · rw [all]
      omega

def Segmented (o : Option Cache) : Prop := ∀ s, o = some s → InSegments s

theorem step_segmented_iff (o : Option Cache) (call : Call) (positive : 1 ≤ window.toNat)
    (h : ∀ s, o = some s → WindowOnly capacity window s) (bounded : Segmented o) :
    Segmented (callStep o call) ↔ RoomInWindow o call := by
  cases o with
  | none =>
    refine ⟨fun _ => ?_, fun _ s none => by cases none⟩
    cases call with
    | put key src mallocs =>
      intro s none
      cases none
    | get key dst => trivial
    | remove key => trivial
    | clear => trivial
  | some s =>
    cases done : callStep (some s) call with
    | some s' =>
      rw [← call_inSegments_iff (h s rfl) positive (bounded s rfl) done]
      constructor
      · intro segmented
        exact segmented s' rfl
      · intro inside t same
        cases same
        exact inside
    | none =>
      refine ⟨fun _ => ?_, fun _ s none => by cases none⟩
      -- Only a Put of a key that is there can be undefined.
      cases call with
      | put key src mallocs =>
        intro t same absent
        cases same
        simp [callStep, Cache.put, absent] at done
      | get key dst => trivial
      | remove key => trivial
      | clear => trivial

/-- The queues keep to their segment capacities throughout a run exactly when every Put of a
    new key finds room in the window; and they do so in all runs exactly when the window may
    take the whole cache. -/
theorem segment_bounds_iff (capacity windowRatio protectedRatio : UInt32)
    (ratios : windowRatio.toNat + protectedRatio.toNat ≤ 100)
    (small : capacity.toNat * 100 < 2 ^ 32) :
    (∀ calls,
      Always callStep Segmented (some (newCache capacity windowRatio protectedRatio)) calls ↔
        Meets callStep RoomInWindow (some (newCache capacity windowRatio protectedRatio)) calls) ∧
    ((∀ calls,
      Always callStep Segmented (some (newCache capacity windowRatio protectedRatio)) calls) ↔
        capacity.toNat ≤ 1 ∨ windowRatio.toNat = 100) := by
  have fresh := newCache_window capacity windowRatio protectedRatio
  have ratio : windowRatio.toNat ≤ 100 := by omega
  have positive : 1 ≤ (orOne ((capacity * windowRatio) / 100)).toNat := by
    rw [orOne_toNat]
    omega
  have start : ∀ s, some (newCache capacity windowRatio protectedRatio) = some s →
      WindowOnly capacity (orOne ((capacity * windowRatio) / 100)) s := by
    intro s same
    cases same
    exact fresh
  have keep : ∀ o call,
      (∀ s, o = some s → WindowOnly capacity (orOne ((capacity * windowRatio) / 100)) s) →
        ∀ s, callStep o call = some s →
          WindowOnly capacity (orOne ((capacity * windowRatio) / 100)) s :=
    keep_while_defined (fun _ => rfl) fun _ _ _ => callStep_window
  have exactly : ∀ calls,
      Always callStep Segmented (some (newCache capacity windowRatio protectedRatio)) calls ↔
        Meets callStep RoomInWindow (some (newCache capacity windowRatio protectedRatio))
          calls := by
    intro calls
    refine always_iff_meets start ?_ keep fun o call h => step_segmented_iff o call positive h
    intro s same
    cases same
    exact (inSegments_iff fresh).mpr (Nat.zero_le _)
  refine ⟨exactly, ?_⟩
  rw [← capacity_le_window_iff ratio small]
  constructor
  · intro every
    by_contra narrow
    obtain ⟨t, reached, only, length, _⟩ := freshPuts_count
      ((orOne ((capacity * windowRatio) / 100)).toNat + 1) fresh rfl (by omega)
    have bounded := always_run (every (freshPuts _)) t reached
    rw [inSegments_iff only, length] at bounded
    omega
  · intro whole calls
    rw [exactly]
    -- The second alternative of the condition holds in every state.
    refine meets_of_invariant calls start keep fun o call only => ?_
    cases call with
    | put key src mallocs =>
      intro s same _
      right
      rw [(only s same).total, (only s same).window, UInt32.le_iff_toNat_le]
      exact whole
    | get key dst => trivial
    | remove key => trivial
    | clear => trivial

theorem small_windows_bounded :
    ((1 + 80 ≤ 100 ∧ 100 * 100 < 2 ^ 32) ∧
      Always callStep Segmented (some (newCache 100 1 80)) [.put 5 ⟨none, 0, by simp⟩ true]) ∧
    ∀ calls, Always callStep Segmented (some (newCache 7 100 0)) calls := by
  refine ⟨⟨by decide, ((segment_bounds_iff 100 1 80 (by decide) (by decide)).1 _).mpr ?_⟩,
    (segment_bounds_iff 7 100 0 (by decide) (by decide)).2.mpr (Or.inr rfl)⟩
  refine ⟨fun s same _ => ?_, trivial⟩
  cases same
  exact Or.inl (by decide)

theorem window_overfull :
    ((run callStep (some (newCache 100 1 80)) (freshPuts 2)).map fun s =>
        (s.windowQueue, s.windowCapacity)) = some ([0, 1], 1) ∧
      ¬ Always callStep Segmented (some (newCache 100 1 80)) (freshPuts 2) := by
  have reached : ((run callStep (some (newCache 100 1 80)) (freshPuts 2)).map fun s =>
      (s.windowQueue, s.windowCapacity)) = some ([0, 1], 1) := by decide +kernel
  refine ⟨reached, fun always => ?_⟩
  obtain ⟨s, same, pair⟩ := Option.map_eq_some_iff.mp reached
  have bounded := (always_run always s same).1
  rw [(Prod.mk.inj pair).1, (Prod.mk.inj pair).2] at bounded
  exact absurd bounded (by decide)

end SegmentBounds
