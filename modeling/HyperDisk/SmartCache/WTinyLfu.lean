import HyperDisk.Foundations.LittleEndian
import HyperDisk.Foundations.WeightedMaps
import HyperDisk.SmartCache.TinyLfu

/- The WTinyLFUCache class. Queues are lists with the oldest key first; the counters and
   total_size_ are 64-bit. The caller's pointers come with the bytes behind them. -/
namespace WTinyLfu
open LittleEndian WeightedMaps TinyLfu

inductive QueueType where
  | window
  | probation
  | protect
  deriving DecidableEq, Repr

structure Entry where
  data : Option Bytes
  size : UInt32
  queue : QueueType
  block : ∀ bytes ∈ data, bytes.length = size.toNat ∧ 0 < size.toNat

/-- Put's data and size: a null pointer, or one with at least size readable bytes. -/
structure Source where
  data : Option Bytes
  size : UInt32
  readable : ∀ bytes ∈ data, size.toNat ≤ bytes.length

structure Destination where
  buffer : Option Bytes
  size : UInt32
  writable : ∀ bytes ∈ buffer, size.toNat ≤ bytes.length

/-- The cache object. The constructor never leaves protected_capacity_ at zero, so Get's
    demotion loop never takes the front of an empty queue. -/
structure Cache where
  windowCapacity : UInt32
  protectedCapacity : UInt32
  probationCapacity : UInt32
  totalCapacity : UInt32
  entries : Map UInt64 Entry
  windowQueue : List UInt64
  probationQueue : List UInt64
  protectedQueue : List UInt64
  tinylfu : TinyLFU
  hitCount : UInt64
  missCount : UInt64
  evictionCount : UInt64
  insertCount : UInt64
  totalSize : UInt64
  promotable : protectedCapacity ≠ 0

def orOne (n : UInt32) : UInt32 := if n = 0 then 1 else n

theorem orOne_ne_zero (n : UInt32) : orOne n ≠ 0 := by
  unfold orOne
  split
  · decide
  · assumption

def newCache (capacity windowRatio protectedRatio : UInt32) : Cache where
  windowCapacity := orOne ((capacity * windowRatio) / 100)
  protectedCapacity := orOne ((capacity * protectedRatio) / 100)
  probationCapacity :=
    orOne (capacity - (capacity * windowRatio) / 100 - (capacity * protectedRatio) / 100)
  totalCapacity := capacity
  entries := ∅
  windowQueue := []
  probationQueue := []
  protectedQueue := []
  tinylfu := newTinyLFU capacity 256 4
  hitCount := 0
  missCount := 0
  evictionCount := 0
  insertCount := 0
  totalSize := 0
  promotable := orOne_ne_zero _

/-- EvictOne's scan of the probation queue: the first key with the least estimate below
    min_freq and its index; it stops at an estimate of zero. -/
def pickVictim (estimate : UInt64 → UInt32) : Nat → UInt32 → Option (UInt64 × Nat) →
    List UInt64 → Option (UInt64 × Nat)
  | _, _, best, [] => best
  | i, minFreq, best, k :: ks =>
    let f := estimate k
    if f < minFreq then
      if f = 0 then some (k, i) else pickVictim estimate (i + 1) f (some (k, i)) ks
    else pickVictim estimate (i + 1) minFreq best ks

def Cache.victim (s : Cache) : Option (UInt64 × Cache) :=
  match s.windowQueue with
  | key :: rest => some (key, { s with windowQueue := rest })
  | [] =>
    match s.probationQueue with
    | k :: ks =>
      (pickVictim s.tinylfu.estimate 0 0xFFFFFFFF none ((k :: ks).take 16)).map fun (key, i) =>
        (key, { s with probationQueue := (k :: ks).eraseIdx i })
    | [] =>
      match s.protectedQueue with
      | key :: rest => some (key, { s with protectedQueue := rest })
      | [] => none

def Cache.evictOne (s : Cache) : Cache × Bool :=
  match s.victim with
  | none => (s, false)
  | some (key, s) =>
    match s.entries.lookup key with
    | none => (s, true)
    | some e => ({ s with
        totalSize := s.totalSize - e.size.toUInt64
        entries := s.entries.erase key
        evictionCount := s.evictionCount + 1 }, true)

def makeRoom : Nat → Cache → Cache
  | 0, s => s
  | fuel + 1, s =>
    if s.totalCapacity.toNat ≤ s.entries.keys.length then
      let (s, evicted) := s.evictOne
      if evicted then makeRoom fuel s else s
    else s

def Cache.queued (s : Cache) : Nat :=
  s.windowQueue.length + s.probationQueue.length + s.protectedQueue.length

/-- Put on a key that is there: min(size, entry.size) bytes are copied over the old block,
    which keeps its size. `none` is a memcpy from a null pointer. -/
def Entry.overwrite (e : Entry) (src : Source) : Option Entry :=
  match stored : e.data with
  | none => some e
  | some block =>
    if 0 < src.size then
      match given : src.data with
      | none => none
      | some bytes =>
        let n := min src.size.toNat e.size.toNat
        some { e with
          data := some (bytes.take n ++ block.drop n)
          block := by
            have enough := src.readable bytes given
            obtain ⟨exact, positive⟩ := e.block block stored
            intro merged same
            cases same
            have least : n ≤ src.size.toNat ∧ n ≤ e.size.toNat :=
              ⟨Nat.min_le_left _ _, Nat.min_le_right _ _⟩
            simp only [List.length_append, List.length_take, List.length_drop]
            omega }
    else some e

def newEntry (src : Source) (mallocs : Bool) : Entry where
  data := if 0 < src.size ∧ mallocs then src.data.map (·.take src.size.toNat) else none
  size := src.size
  queue := .window
  block := by
    intro bytes member
    split at member
    · rename_i allocated
      obtain ⟨given, held, rfl⟩ := Option.map_eq_some_iff.mp member
      have enough := src.readable given held
      have positive := UInt32.lt_iff_toNat_lt.mp allocated.1
      refine ⟨?_, positive⟩
      rw [List.length_take]
      omega
    · cases member

def Cache.put (s : Cache) (key : UInt64) (src : Source) (mallocs : Bool) : Option (Cache × Bool) :=
  match s.entries.lookup key with
  | some e => (e.overwrite src).map fun e =>
    ({ s with tinylfu := s.tinylfu.access key, entries := s.entries.insert key e }, true)
  | none =>
    let s := makeRoom (s.queued + 1) s
    some ({ s with
      entries := s.entries.insert key (newEntry src mallocs)
      windowQueue := s.windowQueue ++ [key]
      insertCount := s.insertCount + 1
      totalSize := s.totalSize + src.size.toUInt64
      tinylfu := s.tinylfu.access key }, true)

theorem put_stored {s s' : Cache} {key : UInt64} {src : Source} {mallocs ok : Bool} {e : Entry}
    (stored : s.entries.lookup key = some e) (done : s.put key src mallocs = some (s', ok)) :
    ∃ e', e.overwrite src = some e' ∧
      s' = { s with tinylfu := s.tinylfu.access key, entries := s.entries.insert key e' } := by
  simp only [Cache.put, stored] at done
  obtain ⟨e', copied, same⟩ := Option.map_eq_some_iff.mp done
  cases same
  exact ⟨e', copied, rfl⟩

def demote (capacity : Nat) (entries : Map UInt64 Entry) (probation : List UInt64) :
    List UInt64 → Map UInt64 Entry × List UInt64 × List UInt64
  | [] => (entries, probation, [])
  | key :: rest =>
    if capacity ≤ (key :: rest).length then
      match entries.lookup key with
      | some e =>
        demote capacity (entries.insert key { e with queue := .probation }) (probation ++ [key])
          rest
      | none => demote capacity entries probation rest
    else (entries, probation, key :: rest)

def Cache.promote (s : Cache) (key : UInt64) (e : Entry) : Cache :=
  let moved := demote s.protectedCapacity.toNat (s.entries.insert key { e with queue := .protect })
    (s.probationQueue.erase key) s.protectedQueue
  { s with
    entries := moved.1
    probationQueue := moved.2.1
    protectedQueue := moved.2.2 ++ [key] }

structure GetResult where
  cache : Cache
  found : Bool
  outSize : UInt32
  buffer : Option Bytes

def Entry.deliver (e : Entry) (dst : Destination) : Option Bytes :=
  match dst.buffer, e.data with
  | some out, some block =>
    some (if e.size ≤ dst.size then block ++ out.drop e.size.toNat else out)
  | buffer, _ => buffer

def Cache.get (s : Cache) (key : UInt64) (dst : Destination) : GetResult :=
  match s.entries.lookup key with
  | none => ⟨{ s with missCount := s.missCount + 1 }, false, 0, dst.buffer⟩
  | some e =>
    let s := { s with tinylfu := s.tinylfu.access key, hitCount := s.hitCount + 1 }
    ⟨if e.queue = .probation then s.promote key e else s, true, e.size, e.deliver dst⟩

def Cache.contains (s : Cache) (key : UInt64) : Bool := (s.entries.lookup key).isSome

def Cache.unqueue (s : Cache) (key : UInt64) : QueueType → Cache
  | .window => { s with windowQueue := s.windowQueue.erase key }
  | .probation => { s with probationQueue := s.probationQueue.erase key }
  | .protect => { s with protectedQueue := s.protectedQueue.erase key }

def Cache.remove (s : Cache) (key : UInt64) : Cache × Bool :=
  match s.entries.lookup key with
  | none => (s, false)
  | some e =>
    let s := { s with totalSize := s.totalSize - e.size.toUInt64 }.unqueue key e.queue
    ({ s with entries := s.entries.erase key }, true)

/-- WTinyLFUCache::Clear. The sketch keeps its counts. -/
def Cache.clear (s : Cache) : Cache :=
  { s with
    entries := ∅
    windowQueue := []
    probationQueue := []
    protectedQueue := []
    totalSize := 0 }

def Cache.count (s : Cache) : UInt32 := UInt32.ofNat s.entries.keys.length

def Cache.capacity (s : Cache) : UInt32 := s.totalCapacity

end WTinyLfu
