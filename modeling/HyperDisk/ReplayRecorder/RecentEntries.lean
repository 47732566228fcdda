import HyperDisk.Foundations.RecentSlots
import HyperDisk.ReplayRecorder.RingBuffer

/- What GetAllEntries returns after any number of writes. The writer uses the slots 0, 33, 66
   and so on that fit the buffer; the reader wraps at the byte capacity, so the two agree
   after an overwrite only if the capacity is a multiple of 33. -/
namespace RecentEntries
open LittleEndian PackedFields StepRuns RecentSlots RingBuffer

def slotCount (capacity : UInt32) : Nat := capacity.toNat / 33

def slot (buffer : Bytes) (j : Nat) : Option ReplayEntry :=
  (slice buffer (33 * j) 33).map entryLayout.decode

structure Layout (capacity : UInt32) (start : Nat) (history : List ReplayEntry)
    (s : ReplayRingBuffer) : Prop where
  stored : ∃ buffer, s.buffer = some buffer ∧ buffer.length = capacity.toNat ∧
    Recent (slotCount capacity) (slot buffer) history
  sized : s.capacity = capacity
  active : s.active = true
  started : s.recordStart = start
  count : s.writeCount.toNat = history.length % 2 ^ 64
  overwritten : 0 < s.overwriteCount ↔ slotCount capacity < history.length
  head : s.head.toNat = if history.length = 0 then 0
    else 33 * ((history.length - 1) % slotCount capacity + 1) % capacity.toNat

theorem slotCount_bounds (capacity : UInt32) :
    33 * slotCount capacity ≤ capacity.toNat ∧ capacity.toNat < 33 * slotCount capacity + 33 := by
  unfold slotCount
  omega

theorem maxEntries_eq {capacity : UInt32} {s : ReplayRingBuffer} (same : s.capacity = capacity) :
    (maxEntries s).toNat = slotCount capacity := by
  rw [maxEntries, same, UInt32.toNat_toUInt64, UInt32.toNat_div]
  rfl

theorem pred_mod_succ {n m : Nat} (some : n ≠ 0) (positive : 0 < m) :
    ((n - 1) % m + 1 = m ∧ n % m = 0) ∨ ((n - 1) % m + 1 < m ∧ n % m = (n - 1) % m + 1) := by
  have below := Nat.mod_lt (n - 1) positive
  have parts := Nat.div_add_mod (n - 1) m
  have whole : n = m * ((n - 1) / m) + ((n - 1) % m + 1) := by omega
  by_cases last : (n - 1) % m + 1 = m
  · left
    refine ⟨last, ?_⟩
    rw [whole, last, Nat.mul_add_mod, Nat.mod_self]
  · right
    refine ⟨by omega, ?_⟩
    conv => lhs; rw [whole, Nat.mul_add_mod]
    exact Nat.mod_eq_of_lt (by omega)

theorem fresh_layout (capacity : UInt32) (start : Nat) :
    Layout capacity start []
      (startRecording (initializeRing (newRingBuffer capacity) true).1 start) := by
  constructor
  · exact ⟨_, rfl, List.length_replicate, recent_nil⟩
  · rfl
  · rfl
  · rfl
  · rfl
  · simp [startRecording, initializeRing, newRingBuffer]
  · rfl

theorem writePos_eq {capacity : UInt32} {start : Nat} {history : List ReplayEntry}
    {s : ReplayRingBuffer} (h : Layout capacity start history s) (large : 33 ≤ capacity.toNat)
    (safe : history.length < slotCount capacity ∨ capacity.toNat ≤ 2 ^ 32 - 4) :
    (writePos s).toNat = 33 * (history.length % slotCount capacity) := by
  obtain ⟨most, least⟩ := slotCount_bounds capacity
  have small := capacity.toNat_lt
  have head := h.head
  have test : s.capacity < s.head + replayEntrySize ↔
      capacity.toNat < (s.head.toNat + 33) % 2 ^ 32 := by
    rw [UInt32.lt_iff_toNat_lt, UInt32.toNat_add, h.sized]
    rfl
  unfold writePos
  by_cases empty : history.length = 0
  · rw [if_pos empty] at head
    rw [if_neg (by rw [test]; omega), head, empty, Nat.zero_mod]
  · rw [if_neg empty] at head
    have positive : 0 < slotCount capacity := by omega
    rcases pred_mod_succ empty positive with ⟨last, next⟩ | ⟨inner, next⟩
    · rw [last] at head
      rw [next]
      by_cases exact : capacity.toNat = 33 * slotCount capacity
      · rw [exact, Nat.mod_self] at head
        rw [if_neg (by rw [test]; omega), head]
      · rw [Nat.mod_eq_of_lt (by omega)] at head
        rcases safe with few | safe
        · rw [Nat.mod_eq_of_lt (by omega)] at next
          omega
        · rw [if_pos (by rw [test]; omega)]
          rfl
    · rw [Nat.mod_eq_of_lt (by omega)] at head
      rw [if_neg (by rw [test]; omega), head, next]

theorem entry_length (e : ReplayEntry) : (entryLayout.encode e).length = 33 :=
  entryLayout.encode_length e

theorem slot_overwritten {buffer buffer' : Bytes} {k : Nat} {e : ReplayEntry}
    (done : overwrite buffer (33 * k) (entryLayout.encode e) = some buffer') :
    slot buffer' k = some e ∧ ∀ j, j ≠ k → slot buffer' j = slot buffer j := by
  have size := entry_length e
  constructor
  · have here := slice_overwrite_here done
    rw [size] at here
    rw [slot, here, Option.map_some, entryLayout.decode_encode]
  · intro j apart
    rw [slot, slot, slice_overwrite_apart done (by omega)]

theorem writeCount_next {capacity : UInt32} {start : Nat} {history : List ReplayEntry}
    {s : ReplayRingBuffer} (h : Layout capacity start history s) :
    (s.writeCount + 1).toNat = (history.length + 1) % 2 ^ 64 := by
  rw [UInt64.toNat_add, h.count]
  exact Nat.mod_add_mod _ _ _

-- The write counter may wrap to a small value, but then entries were overwritten long ago.
theorem overwriteCount_next {capacity : UInt32} {start : Nat} {history : List ReplayEntry}
    {s : ReplayRingBuffer} (h : Layout capacity start history s) :
    (0 < if maxEntries s < s.writeCount + 1 then s.writeCount + 1 - maxEntries s
      else s.overwriteCount) ↔ slotCount capacity < history.length + 1 := by
  have total := maxEntries_eq h.sized
  have next := writeCount_next h
  split
  · rename_i above
    have passed := UInt64.lt_iff_toNat_lt.mp above
    rw [total, next] at passed
    have positive : 0 < s.writeCount + 1 - maxEntries s := by
      rw [UInt64.lt_iff_toNat_lt, UInt64.toNat_sub_of_le _ _ (UInt64.le_of_lt above), total, next,
        UInt64.toNat_zero]
      omega
    exact ⟨fun _ => by omega, fun _ => positive⟩
  · rename_i below
    have few := capacity.toNat_lt
    have bounds := slotCount_bounds capacity
    rw [UInt64.lt_iff_toNat_lt, total, next] at below
    rw [h.overwritten]
    omega

theorem write_layout {capacity : UInt32} {start : Nat} {history : List ReplayEntry}
    {s : ReplayRingBuffer} (w : WriteCall) (h : Layout capacity start history s)
    (large : 33 ≤ capacity.toNat)
    (safe : history.length < slotCount capacity ∨ capacity.toNat ≤ 2 ^ 32 - 4) :
    ∃ s', write s w = some s' ∧ Layout capacity start (history ++ [entryOf start w]) s' := by
  obtain ⟨most, least⟩ := slotCount_bounds capacity
  have small := capacity.toNat_lt
  have turn := Nat.mod_lt history.length (show 0 < slotCount capacity by omega)
  have pos := writePos_eq h large safe
  obtain ⟨buffer, held, length, recent⟩ := h.stored
  obtain ⟨buffer', done⟩ : ∃ buffer', overwrite buffer (33 * (history.length % slotCount capacity))
      (entryLayout.encode (entryOf start w)) = some buffer' :=
    ⟨_, overwrite_eq_some (by rw [entry_length]; omega)⟩
  obtain ⟨here, others⟩ := slot_overwritten done
  refine ⟨_, by simp only [write, h.active, held, h.started, pos, done, not_true_eq_false, if_false,
    Option.bind_eq_bind, Option.bind_some]; rfl, ?_⟩
  constructor
  · exact ⟨buffer', rfl, by rw [(overwrite_length done).1, length],
      recent_push recent here fun j _ apart => others j apart⟩
  · exact h.sized
  · rfl
  · rfl
  · rw [List.length_append, List.length_singleton]
    exact writeCount_next h
  · rw [List.length_append, List.length_singleton]
    exact overwriteCount_next h
  · rw [List.length_append, List.length_singleton, if_neg (Nat.succ_ne_zero _)]
    have sum : (writePos s + replayEntrySize).toNat =
        33 * (history.length % slotCount capacity + 1) := by
      rw [UInt32.toNat_add, pos]
      show (_ + 33) % 2 ^ 32 = _
      omega
    dsimp only
    rw [UInt32.toNat_mod, sum, h.sized]
    rfl

theorem recorded_layout {capacity : UInt32} {start : Nat} (large : 33 ≤ capacity.toNat)
    (calls : List WriteCall) (history : List ReplayEntry) (s : ReplayRingBuffer)
    (h : Layout capacity start history s)
    (safe : history.length + calls.length ≤ slotCount capacity ∨ capacity.toNat ≤ 2 ^ 32 - 4) :
    ∃ s', run writeStep (some s) calls = some s' ∧
      Layout capacity start (history ++ calls.map (entryOf start)) s' := by
  induction calls generalizing history s with
  | nil => exact ⟨s, rfl, by simpa using h⟩
  | cons w calls ih =>
    rw [List.length_cons] at safe
    obtain ⟨s₁, wrote, h₁⟩ := write_layout w h large (by omega)
    obtain ⟨s₂, rest, h₂⟩ := ih _ s₁ h₁ (by rw [List.length_append, List.length_singleton]; omega)
    refine ⟨s₂, ?_, by simpa using h₂⟩
    rw [run, show writeStep (some s) w = write s w from rfl, wrote, rest]

theorem readPos_eq (capacity readStart : UInt32) (i : Nat) :
    ((readStart + UInt32.ofNat i * replayEntrySize) % capacity).toNat =
      (readStart.toNat + 33 * i) % 2 ^ 32 % capacity.toNat := by
  rw [UInt32.toNat_mod, UInt32.toNat_add, UInt32.toNat_mul, UInt32.toNat_ofNat']
  show (_ + _ * 33 % 2 ^ 32) % 2 ^ 32 % _ = _
  congr 1
  omega

theorem readLoop_iff {buffer : Bytes} {capacity readStart : UInt32} {i count : Nat}
    {es : List ReplayEntry} :
    readLoop buffer capacity readStart i count = some es ↔
      es.length = count ∧ ∀ k, k < count → ∃ bytes,
        slice buffer ((readStart + UInt32.ofNat (i + k) * replayEntrySize) % capacity).toNat 33 =
          some bytes ∧ es[k]? = some (entryLayout.decode bytes) := by
  induction count generalizing i es with
  | zero =>
    rw [readLoop, Option.some_inj]
    constructor
    · rintro rfl
      exact ⟨rfl, fun k none => by omega⟩
    · rintro ⟨empty, _⟩
      exact (List.length_eq_zero_iff.mp empty).symm
  | succ count ih =>
    simp only [readLoop, Option.bind_eq_bind, Option.bind_eq_some_iff]
    constructor
    · rintro ⟨bytes, first, rest, others, same⟩
      cases same
      obtain ⟨length, reads⟩ := ih.mp others
      refine ⟨by rw [List.length_cons, length], fun k small => ?_⟩
      cases k with
      | zero => exact ⟨bytes, first, rfl⟩
      | succ k =>
        obtain ⟨bytes', read, entry⟩ := reads k (by omega)
        rw [show i + (k + 1) = i + 1 + k by omega]
        exact ⟨bytes', read, entry⟩
    · rintro ⟨length, reads⟩
      obtain ⟨e, rest, rfl⟩ := List.exists_cons_of_length_eq_add_one length
      obtain ⟨bytes, first, entry⟩ := reads 0 (by omega)
      refine ⟨bytes, first, rest, ih.mpr ⟨by simpa using length, fun k small => ?_⟩, ?_⟩
      · obtain ⟨bytes', read, entry'⟩ := reads (k + 1) (by omega)
        rw [show i + (k + 1) = i + 1 + k by omega] at read
        exact ⟨bytes', read, entry'⟩
      · rw [List.getElem?_cons_zero, Option.some_inj] at entry
        rw [entry]

theorem min_toNat (a b : UInt64) : (min a b).toNat = min a.toNat b.toNat := by
  change (if a ≤ b then a else b).toNat = _
  split
  · rename_i le
    rw [Nat.min_eq_left (UInt64.le_iff_toNat_le.mp le)]
  · rename_i gt
    rw [UInt64.le_iff_toNat_le] at gt
    rw [Nat.min_eq_right (by omega)]

theorem getAllEntries_eq {capacity : UInt32} {start : Nat} {history : List ReplayEntry}
    {s : ReplayRingBuffer} {buffer : Bytes} (h : Layout capacity start history s)
    (held : s.buffer = some buffer) :
    getAllEntries s = readLoop buffer capacity
      (if slotCount capacity < history.length then s.head else 0) 0
      (min (history.length % 2 ^ 64) (slotCount capacity)) := by
  have bounds := slotCount_bounds capacity
  have small := capacity.toNat_lt
  have count : (min s.writeCount (maxEntries s)).toUInt32.toNat =
      min (history.length % 2 ^ 64) (slotCount capacity) := by
    rw [UInt64.toNat_toUInt32, min_toNat, h.count, maxEntries_eq h.sized]
    exact Nat.mod_eq_of_lt (by omega)
  simp only [getAllEntries, held, count, h.overwritten, h.sized]

theorem slot_read {buffer : Bytes} {j : Nat} {e : ReplayEntry} (found : slot buffer j = some e) :
    ∃ bytes, slice buffer (33 * j) 33 = some bytes ∧ e = entryLayout.decode bytes := by
  obtain ⟨bytes, read, same⟩ := Option.map_eq_some_iff.mp found
  exact ⟨bytes, read, same.symm⟩

theorem read_before_overwrite {capacity : UInt32} {start : Nat} {history : List ReplayEntry}
    {s : ReplayRingBuffer} (h : Layout capacity start history s)
    (few : history.length ≤ slotCount capacity) : getAllEntries s = some history := by
  obtain ⟨most, least⟩ := slotCount_bounds capacity
  have small := capacity.toNat_lt
  obtain ⟨buffer, held, length, recent⟩ := h.stored
  rw [getAllEntries_eq h held, if_neg (by omega), readLoop_iff]
  refine ⟨by omega, fun k below => ?_⟩
  have inside : k < history.length := by omega
  have found := recent_in_order recent few inside
  rw [List.getElem?_eq_getElem inside] at found
  obtain ⟨bytes, read, same⟩ := slot_read found
  have pos : (0 + 33 * (0 + k)) % 2 ^ 32 % capacity.toNat = 33 * k := by
    rw [Nat.mod_eq_of_lt (show 0 + 33 * (0 + k) < 2 ^ 32 by omega), Nat.mod_eq_of_lt (by omega)]
    omega
  refine ⟨bytes, ?_, by rw [List.getElem?_eq_getElem inside, same]⟩
  rw [readPos_eq, show (0 : UInt32).toNat = 0 from rfl, pos, read]

theorem read_start {capacity : UInt32} {start : Nat} {history : List ReplayEntry}
    {s : ReplayRingBuffer} (h : Layout capacity start history s)
    (whole : capacity.toNat = 33 * slotCount capacity) (large : 33 ≤ capacity.toNat)
    (many : slotCount capacity < history.length) :
    s.head.toNat = 33 * (history.length % slotCount capacity) := by
  have positive : 0 < slotCount capacity := by omega
  rw [h.head, if_neg (by omega), whole, Nat.mul_mod_mul_left]
  congr 1
  rcases pred_mod_succ (show history.length ≠ 0 by omega) positive with ⟨last, next⟩ | ⟨inner, next⟩
  · rw [last, next, Nat.mod_self]
  · rw [next, Nat.mod_eq_of_lt inner]

theorem read_after_overwrite {capacity : UInt32} {start : Nat} {history : List ReplayEntry}
    {s : ReplayRingBuffer} (h : Layout capacity start history s)
    (many : slotCount capacity < history.length) (whole : capacity.toNat = 33 * slotCount capacity)
    (counted : slotCount capacity ≤ history.length % 2 ^ 64) (large : 33 ≤ capacity.toNat)
    (low : 33 * (history.length % slotCount capacity) + 33 * (slotCount capacity - 1) < 2 ^ 32) :
    getAllEntries s = some (history.drop (history.length - slotCount capacity)) := by
  have small := capacity.toNat_lt
  obtain ⟨buffer, held, length, recent⟩ := h.stored
  have head := read_start h whole large many
  rw [getAllEntries_eq h held, if_pos many, Nat.min_eq_right counted, readLoop_iff]
  refine ⟨by rw [List.length_drop]; omega, fun k below => ?_⟩
  have found := recent_wrapped recent (by omega) below
  have inside : history.length - slotCount capacity + k < history.length := by omega
  rw [List.getElem?_eq_getElem inside] at found
  obtain ⟨bytes, read, same⟩ := slot_read found
  have pos : (33 * (history.length % slotCount capacity) + 33 * (0 + k)) % 2 ^ 32 % capacity.toNat =
      33 * ((history.length + k) % slotCount capacity) := by
    rw [Nat.mod_eq_of_lt (show _ < 2 ^ 32 by omega), whole, Nat.zero_add, ← Nat.mul_add,
      Nat.mul_mod_mul_left, Nat.mod_add_mod]
  refine ⟨bytes, ?_, ?_⟩
  · rw [readPos_eq, head, pos, read]
  · rw [List.getElem?_drop, List.getElem?_eq_getElem inside, same]

theorem run_none (calls : List WriteCall) : run writeStep none calls = none := by
  induction calls with
  | nil => rfl
  | cons w calls ih => exact ih

theorem recorded_wraps {capacity : UInt32} (start : Nat) {calls : List WriteCall}
    (top : 2 ^ 32 - 4 < capacity.toNat) (many : slotCount capacity < calls.length) :
    recorded capacity start calls = none := by
  obtain ⟨most, least⟩ := slotCount_bounds capacity
  have small := capacity.toNat_lt
  have first : (calls.take (slotCount capacity)).length = slotCount capacity :=
    List.length_take_of_le (by omega)
  obtain ⟨s, reached, h⟩ := recorded_layout (by omega) (calls.take (slotCount capacity)) [] _
    (fresh_layout capacity start) (Or.inl (by rw [List.length_nil]; omega))
  rw [List.nil_append] at h
  obtain ⟨buffer, held, length, _⟩ := h.stored
  have head := h.head
  rw [List.length_map, first, if_neg (by omega),
    show (slotCount capacity - 1) % slotCount capacity + 1 = slotCount capacity by
      rw [Nat.mod_eq_of_lt (by omega)]; omega,
    Nat.mod_eq_of_lt (by omega)] at head
  have pos : (writePos s).toNat = 33 * slotCount capacity := by
    have test : ¬ s.capacity < s.head + replayEntrySize := by
      rw [UInt32.lt_iff_toNat_lt, UInt32.toNat_add, h.sized, head]
      show ¬ _ < (_ + 33) % 2 ^ 32
      omega
    rw [writePos, if_neg test, head]
  obtain ⟨w, rest, tail⟩ : ∃ w rest, calls.drop (slotCount capacity) = w :: rest :=
    ⟨_, _, List.drop_eq_getElem_cons many⟩
  have outside : overwrite buffer (33 * slotCount capacity)
      (entryLayout.encode (entryOf s.recordStart w)) = none := by
    rw [overwrite, if_neg (by rw [entry_length]; omega)]
  have fails : write s w = none := by
    simp only [write, h.active, held, pos, outside, not_true_eq_false, if_false,
      Option.bind_eq_bind, Option.bind_some, Option.bind_none]
  rw [recorded, ← List.take_append_drop (slotCount capacity) calls, run_append, reached, tail, run,
    show writeStep (some s) w = write s w from rfl, fails, run_none]

theorem ragged_read_short {capacity : UInt32} {start : Nat} {history es : List ReplayEntry}
    {s : ReplayRingBuffer} (h : Layout capacity start history s) (large : 33 ≤ capacity.toNat)
    (many : slotCount capacity < history.length) (ragged : capacity.toNat ≠ 33 * slotCount capacity)
    (read : getAllEntries s = some es) : es.length < slotCount capacity := by
  obtain ⟨most, least⟩ := slotCount_bounds capacity
  have small := capacity.toNat_lt
  have turn := Nat.mod_lt (history.length - 1) (show 0 < slotCount capacity by omega)
  obtain ⟨buffer, held, length, _⟩ := h.stored
  have head := h.head
  rw [if_neg (by omega), Nat.mod_eq_of_lt (by omega)] at head
  rw [getAllEntries_eq h held, if_pos many, readLoop_iff] at read
  obtain ⟨count, reads⟩ := read
  by_contra all
  obtain ⟨bytes, inside, _⟩ :=
    reads (slotCount capacity - ((history.length - 1) % slotCount capacity + 1)) (by omega)
  have pos : (33 * ((history.length - 1) % slotCount capacity + 1) +
      33 * (0 + (slotCount capacity - ((history.length - 1) % slotCount capacity + 1)))) % 2 ^ 32 %
      capacity.toNat = 33 * slotCount capacity := by
    rw [Nat.mod_eq_of_lt (show _ < 2 ^ 32 by omega), Nat.mod_eq_of_lt (by omega)]
    omega
  rw [readPos_eq, head, pos, slice, if_neg (by omega)] at inside
  cases inside

def markedCall (start : Nat) : WriteCall := ⟨0, 0, 0, 0, 0, 1, start⟩

def marked : ReplayEntry := ⟨0, 0, 0, 0, 0, 0, 1⟩

theorem entryOf_marked (start : Nat) : entryOf start (markedCall start) = marked := by
  simp [entryOf, markedCall, marked]

theorem slice_byte {buffer bytes : Bytes} {off width i : Nat}
    (read : slice buffer off width = some bytes) (small : i < width) :
    bytes[i]? = buffer[off + i]? ∧ bytes.length = width ∧ off + width ≤ buffer.length := by
  unfold slice at read
  split at read
  · rename_i inside
    cases read
    rw [List.getElem?_take_of_lt small, List.getElem?_drop, List.length_take, List.length_drop]
    exact ⟨rfl, by omega, inside⟩
  · cases read

/-- Once a sum of the reader reaches 2^32 it is reduced by that, which is no multiple of 33:
    the read starts in the middle of a slot. -/
theorem wrapped_read_differs {capacity : UInt32} {start : Nat} {history : List ReplayEntry}
    {s : ReplayRingBuffer} (h : Layout capacity start history s) (large : 33 ≤ capacity.toNat)
    (many : slotCount capacity < history.length) (same : ∀ e ∈ history, e = marked)
    (whole : capacity.toNat = 33 * slotCount capacity)
    (counted : slotCount capacity ≤ history.length % 2 ^ 64)
    (high : 2 ^ 32 ≤ 33 * (history.length % slotCount capacity) + 33 * (slotCount capacity - 1)) :
    getAllEntries s ≠ some (List.replicate (slotCount capacity) marked) := by
  intro read
  have small := capacity.toNat_lt
  have turn := Nat.mod_lt history.length (show 0 < slotCount capacity by omega)
  obtain ⟨buffer, held, length, recent⟩ := h.stored
  have head := read_start h whole large many
  rw [getAllEntries_eq h held, if_pos many, Nat.min_eq_right counted, readLoop_iff] at read
  obtain ⟨bytes, inside, decoded⟩ := read.2 (slotCount capacity - 1) (by omega)
  rw [List.getElem?_replicate_of_lt (by omega), Option.some_inj] at decoded
  rw [readPos_eq, head] at inside
  generalize pos : (33 * (history.length % slotCount capacity) +
    33 * (0 + (slotCount capacity - 1))) % 2 ^ 32 % capacity.toNat = p at inside
  have off : p % 33 = 29 := by
    rw [Nat.zero_add, Nat.mod_eq_sub_mod high, Nat.mod_eq_of_lt (show _ - 2 ^ 32 < 2 ^ 32 by omega),
      Nat.mod_eq_of_lt (by omega)] at pos
    omega
  obtain ⟨byte, size, fits⟩ := slice_byte inside (show 32 < 33 by omega)
  have image : bytes = entryLayout.encode marked := by
    rw [decoded, entryLayout.encode_decode bytes size]
  obtain ⟨e, member, found⟩ := recent_every recent (Nat.le_of_lt many)
    (show (p + 32) / 33 < slotCount capacity by omega)
  rw [same e member] at found
  obtain ⟨bytes', inside', decoded'⟩ := slot_read found
  obtain ⟨byte', size', _⟩ := slice_byte inside' (show 28 < 33 by omega)
  have image' : bytes' = entryLayout.encode marked := by
    rw [decoded', entryLayout.encode_decode bytes' size']
  rw [show 33 * ((p + 32) / 33) + 28 = p + 32 by omega, ← byte, image, image'] at byte'
  exact absurd byte' (by decide)

/-- After any n writes GetAllEntries stays inside the buffer and returns the last entries, as
    many as there are slots. -/
def KeepsRecent (capacity : UInt32) (start n : Nat) : Prop :=
  ∀ calls : List WriteCall, calls.length = n → ∃ s, recorded capacity start calls = some s ∧
    getAllEntries s = some ((calls.map (entryOf start)).drop (n - min n (slotCount capacity)))

theorem reached_layout {capacity : UInt32} (start : Nat) (calls : List WriteCall)
    (large : 33 ≤ capacity.toNat)
    (safe : calls.length ≤ slotCount capacity ∨ capacity.toNat ≤ 2 ^ 32 - 4) :
    ∃ s, recorded capacity start calls = some s ∧
      Layout capacity start (calls.map (entryOf start)) s := by
  obtain ⟨s, reached, h⟩ := recorded_layout large calls [] _ (fresh_layout capacity start)
    (by rw [List.length_nil]; omega)
  exact ⟨s, reached, by simpa using h⟩

theorem read_of_keeps {capacity : UInt32} {start : Nat} {calls : List WriteCall}
    (large : 33 ≤ capacity.toNat) (many : slotCount capacity < calls.length)
    (keeps : KeepsRecent capacity start calls.length) :
    ∃ s, Layout capacity start (calls.map (entryOf start)) s ∧
      getAllEntries s =
        some ((calls.map (entryOf start)).drop (calls.length - slotCount capacity)) := by
  obtain ⟨s, reached, read⟩ := keeps calls rfl
  rw [Nat.min_eq_right (Nat.le_of_lt many)] at read
  by_cases top : capacity.toNat ≤ 2 ^ 32 - 4
  · obtain ⟨s', reached', h⟩ := reached_layout start calls large (Or.inr top)
    rw [reached] at reached'
    cases reached'
    exact ⟨s, h, read⟩
  · rw [recorded_wraps start (by omega) many] at reached
    cases reached

theorem ragged_not_kept {capacity : UInt32} {start n : Nat} (large : 33 ≤ capacity.toNat)
    (many : slotCount capacity < n) (ragged : capacity.toNat ≠ 33 * slotCount capacity) :
    ¬ KeepsRecent capacity start n := by
  intro keeps
  have length : (List.replicate n (markedCall start)).length = n := List.length_replicate
  rw [← length] at many keeps
  obtain ⟨s, h, read⟩ := read_of_keeps large many keeps
  have short := ragged_read_short h large (by rw [List.length_map]; exact many) ragged read
  rw [List.length_drop, List.length_map] at short
  omega

/-- The ring keeps the most recent entries exactly when nothing was overwritten yet, or its
    capacity is a multiple of 33, the 64-bit write count has not wrapped to a small number and
    the reader's last 32-bit sum does not wrap. -/
theorem ring_keeps_recent_iff (capacity : UInt32) (large : 33 ≤ capacity.toNat) (start n : Nat) :
    KeepsRecent capacity start n ↔
      n ≤ slotCount capacity ∨
        (33 ∣ capacity.toNat ∧ slotCount capacity ≤ n % 2 ^ 64 ∧
          33 * (n % slotCount capacity) + 33 * (slotCount capacity - 1) < 2 ^ 32) := by
  obtain ⟨most, least⟩ := slotCount_bounds capacity
  have small := capacity.toNat_lt
  constructor
  · intro keeps
    by_cases few : n ≤ slotCount capacity
    · exact Or.inl few
    · right
      have many : slotCount capacity < n := by omega
      have whole : capacity.toNat = 33 * slotCount capacity := by
        by_contra ragged
        exact ragged_not_kept large many ragged keeps
      have length : (List.replicate n (markedCall start)).length = n := List.length_replicate
      rw [← length] at many keeps
      obtain ⟨s, h, read⟩ := read_of_keeps large many keeps
      rw [length] at many read
      have history : (List.replicate n (markedCall start)).map (entryOf start) =
          List.replicate n marked := by rw [List.map_replicate, entryOf_marked]
      rw [history] at h read
      have total : (List.replicate n marked).length = n := List.length_replicate
      have counted : slotCount capacity ≤ n % 2 ^ 64 := by
        obtain ⟨buffer, held, _⟩ := h.stored
        rw [getAllEntries_eq h held, readLoop_iff, List.length_drop, total] at read
        omega
      refine ⟨⟨slotCount capacity, whole⟩, counted, ?_⟩
      by_contra high
      refine wrapped_read_differs h large (by rw [total]; exact many)
        (fun e member => List.eq_of_mem_replicate member) whole (by rw [total]; exact counted)
        (by rw [total]; omega) ?_
      rw [read, List.drop_replicate, show n - (n - slotCount capacity) =
        slotCount capacity by omega]
  · intro condition calls length
    subst length
    by_cases few : calls.length ≤ slotCount capacity
    · obtain ⟨s, reached, h⟩ := reached_layout start calls large (Or.inl few)
      refine ⟨s, reached, ?_⟩
      rw [read_before_overwrite h (by rw [List.length_map]; exact few), Nat.min_eq_left few,
        Nat.sub_self, List.drop_zero]
    · obtain ⟨divides, counted, low⟩ := condition.resolve_left few
      have whole : capacity.toNat = 33 * slotCount capacity := by
        unfold slotCount
        omega
      obtain ⟨s, reached, h⟩ := reached_layout start calls large (Or.inr (by omega))
      refine ⟨s, reached, ?_⟩
      have size : (calls.map (entryOf start)).length = calls.length := List.length_map _
      have read := read_after_overwrite h (by omega) whole (by rw [size]; exact counted) large
        (by rw [size]; exact low)
      rw [read, size, Nat.min_eq_right (by omega)]

theorem two_slots_keep_recent : 33 ≤ (66 : UInt32).toNat ∧ KeepsRecent 66 0 5 :=
  ⟨by decide, (ring_keeps_recent_iff 66 (by decide) 0 5).mpr (Or.inr (by decide))⟩

/-- One slot and a spare byte: after the second write the reader starts behind the slot. The
    default capacity is no multiple of 33 either. -/
theorem ragged_ring_reads_outside :
    ((recorded 34 0 [markedCall 0, markedCall 0]).isSome ∧
      (recorded 34 0 [markedCall 0, markedCall 0]).bind getAllEntries = none) ∧
    ¬ KeepsRecent 34 0 2 ∧ ¬ KeepsRecent replayDefaultCapacity 0 2033602 := by
  refine ⟨by decide +kernel, ragged_not_kept ?_ ?_ ?_, ragged_not_kept ?_ ?_ ?_⟩
  all_goals decide

end RecentEntries
