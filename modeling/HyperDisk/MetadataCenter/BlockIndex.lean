import HyperDisk.Foundations.BigEndian
import HyperDisk.Foundations.WeightedMaps

/- The block index of the metadata center (store.rs) and the two RPCs that use it (main.rs).
   RocksDB is a map of byte strings per column family and its calls do not fail; the RPCs take
   the store's lock, so they run one after another. -/
namespace BlockIndex
open LittleEndian BigEndian WeightedMaps

inductive ColumnFamily where
  | blockIndex
  | layerManifest
  | dnaIndex
  | cacheMeta
  | terminalSession
  | nodeRegistry
  deriving DecidableEq, Repr

structure MetadataStore where
  cf : ColumnFamily → Map Bytes Bytes

def openEmpty : MetadataStore := ⟨fun _ => ∅⟩

def put (s : MetadataStore) (cf : ColumnFamily) (key value : Bytes) : MetadataStore :=
  ⟨fun other => if other = cf then (s.cf other).insert key value else s.cf other⟩

def get (s : MetadataStore) (cf : ColumnFamily) (key : Bytes) : Option Bytes := (s.cf cf).lookup key

/-- The key both calls build: the count is not part of it. -/
def blockKey (imageId blockOffset : UInt64) (layerId : UInt8) : Bytes :=
  storeBe 8 imageId.toNat ++ storeBe 8 blockOffset.toNat ++ storeBe 1 layerId.toNat

def lookupBlock (s : MetadataStore) (imageId blockOffset : UInt64) (_blockCount : UInt32)
    (layerId : UInt8) : Option Bytes :=
  get s .blockIndex (blockKey imageId blockOffset layerId)

def registerBlock (s : MetadataStore) (imageId blockOffset : UInt64) (_blockCount : UInt32)
    (layerId : UInt8) (nodeId : UInt32) : MetadataStore :=
  put s .blockIndex (blockKey imageId blockOffset layerId) (storeBe 4 nodeId.toNat)

structure LookupBlockRequest where
  imageId : UInt64
  blockOffset : UInt64
  blockCount : UInt32
  layerId : UInt32
  deriving DecidableEq, Repr

structure LookupBlockResponse where
  imageId : UInt64
  blockOffset : UInt64
  blockCount : UInt32
  nodeId : UInt32
  cacheHit : Bool
  deriving DecidableEq, Repr

structure RegisterBlockRequest where
  imageId : UInt64
  blockOffset : UInt64
  blockCount : UInt32
  layerId : UInt32
  nodeId : UInt32
  deriving DecidableEq, Repr

/-- `u32::from_be_bytes(data[..4])`; the slice panics on fewer than four bytes. -/
def nodeIdOf (data : Bytes) : Option UInt32 :=
  (slice data 0 4).map fun bytes => UInt32.ofNat (loadBe bytes)

/-- The lookup_block RPC; `none` is a panic. -/
def lookupBlockRpc (s : MetadataStore) (req : LookupBlockRequest) : Option LookupBlockResponse :=
  match lookupBlock s req.imageId req.blockOffset req.blockCount req.layerId.toUInt8 with
  | some data => do
    let nodeId ← nodeIdOf data
    some ⟨req.imageId, req.blockOffset, req.blockCount, nodeId, true⟩
  | none => some ⟨req.imageId, req.blockOffset, req.blockCount, 0, false⟩

def registerBlockRpc (s : MetadataStore) (req : RegisterBlockRequest) : MetadataStore :=
  registerBlock s req.imageId req.blockOffset req.blockCount req.layerId.toUInt8 req.nodeId

inductive Request where
  | lookup (req : LookupBlockRequest)
  | register (req : RegisterBlockRequest)
  deriving DecidableEq, Repr

def serve (s : MetadataStore) : Request → MetadataStore
  | .lookup _ => s
  | .register req => registerBlockRpc s req

theorem blockKey_inj (i i' o o' : UInt64) (l l' : UInt8) :
    blockKey i o l = blockKey i' o' l' ↔ i = i' ∧ o = o' ∧ l = l' := by
  constructor
  · intro same
    unfold blockKey at same
    obtain ⟨front, layer⟩ := List.append_inj' same (by simp)
    obtain ⟨image, offset⟩ := List.append_inj' front (by simp)
    rw [storeBe_inj i.toNat_lt i'.toNat_lt] at image
    rw [storeBe_inj o.toNat_lt o'.toNat_lt] at offset
    rw [storeBe_inj l.toNat_lt l'.toNat_lt] at layer
    exact ⟨UInt64.toNat_inj.mp image, UInt64.toNat_inj.mp offset, UInt8.toNat_inj.mp layer⟩
  · rintro ⟨rfl, rfl, rfl⟩
    rfl

theorem lookup_register (s : MetadataStore) (i i' o o' : UInt64) (c c' : UInt32) (l l' : UInt8)
    (n : UInt32) :
    lookupBlock (registerBlock s i' o' c' l' n) i o c l =
      if i' = i ∧ o' = o ∧ l' = l then some (storeBe 4 n.toNat) else lookupBlock s i o c l := by
  have stored : lookupBlock (registerBlock s i' o' c' l' n) i o c l =
      ((s.cf .blockIndex).insert (blockKey i' o' l') (storeBe 4 n.toNat)).lookup (blockKey i o l) :=
    rfl
  rw [stored, lookup_insert_eq]
  by_cases same : i' = i ∧ o' = o ∧ l' = l
  · rw [if_pos same, if_pos ((blockKey_inj i' i o' o l' l).mpr same).symm]
  · rw [if_neg same, if_neg fun key => same ((blockKey_inj i' i o' o l' l).mp key.symm)]
    rfl

theorem nodeIdOf_stored (n : UInt32) : nodeIdOf (storeBe 4 n.toNat) = some n := by
  have whole : slice (storeBe 4 n.toNat) 0 4 = some (storeBe 4 n.toNat) := by
    rw [slice_eq_some (by simp), List.drop_zero, List.take_of_length_le (by simp)]
  rw [nodeIdOf, whole, Option.map_some, loadBe_storeBe n.toNat_lt, UInt32.ofNat_toNat]

end BlockIndex
