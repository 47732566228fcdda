import HyperDisk.Foundations.LittleEndian
import HyperDisk.Foundations.NodeLists
import HyperDisk.Foundations.StepRuns

/- The shared cache of the cache engine. Its operations hold the mutex, so they run one after
   another. lru_map_ holds iterators into lru_list_; `none` is the use of an invalid one. Counters
   are uint64_t and wrap. The threshold is the value of
   `static_cast<uint64_t>(capacity_bytes_ * watermark_high_)`. -/
namespace L3SsdCache
open LittleEndian WeightedMaps NodeLists

structure CacheEntry where
  blockKey : UInt64
  data : Bytes
  accessCount : UInt32
  lastAccessNs : UInt64
  deriving DecidableEq, Repr

structure L3Cache where
  capacityBytes : UInt64
  threshold : UInt64
  usedBytes : UInt64
  hitCount : UInt64
  missCount : UInt64
  entries : Map UInt64 CacheEntry
  lruList : List (Node UInt64)
  lruMap : Map UInt64 Nat
  nextNode : Nat

def newCache (capacityBytes threshold : UInt64) : L3Cache :=
  ⟨capacityBytes, threshold, 0, 0, 0, ∅, [], ∅, 0⟩

/-- Lookup at a time of the steady clock; the bytes are out_data when it returns true. -/
def L3Cache.lookup (s : L3Cache) (blockKey now : UInt64) : Option (L3Cache × Option Bytes) :=
  match s.entries.lookup blockKey with
  | some e => do
    let iterator ← s.lruMap.lookup blockKey
    let (node, rest) ← unlink s.lruList iterator
    some ({ s with
      hitCount := s.hitCount + 1
      entries := s.entries.insert blockKey
        { e with accessCount := e.accessCount + 1, lastAccessNs := now }
      lruList := node :: rest }, some e.data)
  | none => some ({ s with missCount := s.missCount + 1 }, none)

def L3Cache.evictOne (s : L3Cache) : Option L3Cache :=
  if s.threshold < s.usedBytes then
    match s.lruList.getLast? with
    | none => none
    | some victim =>
      let s := { s with
        lruList := s.lruList.dropLast
        lruMap := s.lruMap.erase victim.key }
      match s.entries.lookup victim.key with
      | some e => some { s with
          usedBytes := s.usedBytes - UInt64.ofNat e.data.length
          entries := s.entries.erase victim.key }
      | none => some s
  else none

def L3Cache.evictLoop : Nat → L3Cache → L3Cache
  | 0, s => s
  | turns + 1, s =>
    match s.evictOne with
    | some s => evictLoop turns s
    | none => s

/-- Every turn removes a node of the list, so its length bounds the turns. -/
def L3Cache.evictIfNeeded (s : L3Cache) : L3Cache := s.evictLoop s.lruList.length

def L3Cache.cachedBytes (s : L3Cache) : Nat := total (fun e => e.data.length) s.entries

def L3Cache.addBlock (s : L3Cache) (blockKey : UInt64) (data : Bytes) (now : UInt64) : L3Cache :=
  { s with
    usedBytes := s.usedBytes + UInt64.ofNat data.length
    lruList := ⟨s.nextNode, blockKey⟩ :: s.lruList
    lruMap := s.lruMap.insert blockKey s.nextNode
    entries := s.entries.insert blockKey ⟨blockKey, data, 1, now⟩
    nextNode := s.nextNode + 1 }

def L3Cache.insert (s : L3Cache) (blockKey : UInt64) (data : Bytes) (now : UInt64) : L3Cache :=
  if (s.entries.lookup blockKey).isSome then s
  -- the entry's copy of the data comes first and throws std::bad_alloc if the cached bytes and
  -- the copy do not fit the address space together
  else if UInt64.size ≤ s.cachedBytes + data.length then s
  else (s.addBlock blockKey data now).evictIfNeeded

def L3Cache.invalidate (s : L3Cache) (blockKey : UInt64) : Option L3Cache :=
  match s.entries.lookup blockKey with
  | some e => do
    let s := { s with usedBytes := s.usedBytes - UInt64.ofNat e.data.length }
    match s.lruMap.lookup blockKey with
    | some iterator => do
      let (_, rest) ← unlink s.lruList iterator
      some { s with
        lruList := rest
        lruMap := s.lruMap.erase blockKey
        entries := s.entries.erase blockKey }
    | none => some { s with entries := s.entries.erase blockKey }
  | none => some s

inductive Call where
  | lookup (blockKey now : UInt64)
  | insert (blockKey : UInt64) (data : Bytes) (now : UInt64)
  | invalidate (blockKey : UInt64)
  deriving DecidableEq, Repr

def L3Cache.perform (s : L3Cache) : Call → Option L3Cache
  | .lookup blockKey now => (s.lookup blockKey now).map Prod.fst
  | .insert blockKey data now => some (s.insert blockKey data now)
  | .invalidate blockKey => s.invalidate blockKey

def step (s : Option L3Cache) (call : Call) : Option L3Cache := s.bind fun s => s.perform call

end L3SsdCache
