import Mathlib.Data.List.Induction
import HyperDisk.Foundations.StepRuns
import HyperDisk.Foundations.LatestEntries
import HyperDisk.MetadataCenter.BlockIndex

/- What a lookup answers after any history of registrations. The index holds one entry per
   image, start block and low byte of the layer: it cannot tell layers apart that agree modulo
   256, and it does not know how long a registered range is. -/
namespace RegisteredBlocks
open LittleEndian BigEndian StepRuns LatestEntries BlockIndex

structure RegisterCall where
  imageId : UInt64
  blockOffset : UInt64
  blockCount : UInt32
  layerId : UInt8
  nodeId : UInt32
  deriving DecidableEq, Repr

def register (s : MetadataStore) (c : RegisterCall) : MetadataStore :=
  registerBlock s c.imageId c.blockOffset c.blockCount c.layerId c.nodeId

def startsAt (imageId blockOffset : UInt64) (layerId : UInt8) (c : RegisterCall) : Bool :=
  c.imageId = imageId ∧ c.blockOffset = blockOffset ∧ c.layerId = layerId

theorem lookup_after {A : Type} (call : A → RegisterCall) (log : List A) (i o : UInt64) (c : UInt32)
    (l : UInt8) :
    lookupBlock (run (fun s a => register s (call a)) openEmpty log) i o c l =
      (latest (fun a => startsAt i o l (call a)) log).map fun a =>
        storeBe 4 (call a).nodeId.toNat := by
  induction log using List.reverseRecOn with
  | nil => rfl
  | append_singleton log a ih =>
    rw [run_append, latest_snoc]
    show lookupBlock (register (run _ openEmpty log) (call a)) i o c l = _
    rw [register, lookup_register, ih]
    by_cases here : (call a).imageId = i ∧ (call a).blockOffset = o ∧ (call a).layerId = l
    · simp [here, startsAt]
    · simp [here, startsAt]

theorem reported_after {A : Type} (call : A → RegisterCall) (log : List A) (i o : UInt64)
    (c : UInt32) (l : UInt8) :
    (lookupBlock (run (fun s a => register s (call a)) openEmpty log) i o c l).map nodeIdOf =
      (latest (fun a => startsAt i o l (call a)) log).map fun a => some (call a).nodeId := by
  rw [lookup_after, Option.map_map]
  congr 1
  funext a
  exact nodeIdOf_stored _

/-- What the register_block RPC passes on: the layer is cut to its low byte. -/
def passedOn (req : RegisterBlockRequest) : RegisterCall :=
  ⟨req.imageId, req.blockOffset, req.blockCount, req.layerId.toUInt8, req.nodeId⟩

def registrations : List Request → List RegisterBlockRequest
  | [] => []
  | .lookup _ :: rest => registrations rest
  | .register req :: rest => req :: registrations rest

theorem run_serve (s : MetadataStore) (history : List Request) :
    run serve s history = run (fun s req =>
      register s (passedOn req)) s (registrations history) := by
  induction history generalizing s with
  | nil => rfl
  | cons request rest ih =>
    cases request with
    | lookup req => exact ih s
    | register req => exact ih (registerBlockRpc s req)

def sameTriple (req : LookupBlockRequest) (r : RegisterBlockRequest) : Bool :=
  r.imageId = req.imageId ∧ r.blockOffset = req.blockOffset ∧ r.layerId = req.layerId

/-- The registrations the index cannot tell from the ones a request is about. -/
def sameKey (req : LookupBlockRequest) (r : RegisterBlockRequest) : Bool :=
  startsAt req.imageId req.blockOffset req.layerId.toUInt8 (passedOn r)

theorem sameKey_of_sameTriple {req : LookupBlockRequest} {r : RegisterBlockRequest}
    (same : sameTriple req r = true) : sameKey req r = true := by
  simp only [sameTriple, decide_eq_true_eq] at same
  simp [sameKey, startsAt, passedOn, same]

theorem sameTriple_of_sameKey {req : LookupBlockRequest} {r : RegisterBlockRequest}
    (same : sameKey req r = true) : sameTriple req r = true ↔ r.layerId = req.layerId := by
  have parts : r.imageId = req.imageId ∧ r.blockOffset = req.blockOffset ∧
      r.layerId.toUInt8 = req.layerId.toUInt8 := of_decide_eq_true same
  simp [sameTriple, parts]

def answer (req : LookupBlockRequest) (node : Option UInt32) : LookupBlockResponse :=
  ⟨req.imageId, req.blockOffset, req.blockCount, node.getD 0, node.isSome⟩

theorem answer_inj {req : LookupBlockRequest} {m n : Option UInt32} :
    answer req m = answer req n ↔ m = n := by
  cases m <;> cases n <;> simp [answer]

theorem lookupBlockRpc_after (history : List Request) (req : LookupBlockRequest) :
    lookupBlockRpc (run serve openEmpty history) req =
      some (answer req ((latest (sameKey req) (registrations history)).map (·.nodeId))) := by
  have found := lookup_after passedOn (registrations history) req.imageId req.blockOffset
    req.blockCount req.layerId.toUInt8
  rw [← run_serve] at found
  change _ = (latest (sameKey req) _).map _ at found
  rw [lookupBlockRpc, found]
  cases latest (sameKey req) (registrations history) with
  | none => rfl
  | some r =>
    simp only [Option.map_some, nodeIdOf_stored]
    rfl

/-- A lookup is answered with the latest registration of its own triple exactly when the latest
    registration under its key is one of that triple or names the same node. -/
theorem lookup_answer_iff (history : List Request) (req : LookupBlockRequest) :
    lookupBlockRpc (run serve openEmpty history) req =
        some (answer req ((latest (sameTriple req) (registrations history)).map (·.nodeId))) ↔
      ∀ r, latest (sameKey req) (registrations history) = some r →
        r.layerId = req.layerId ∨
          (latest (sameTriple req) (registrations history)).map (·.nodeId) = some r.nodeId := by
  rw [lookupBlockRpc_after, Option.some_inj, answer_inj, eq_comm,
    latest_agree_iff fun _ _ same => sameKey_of_sameTriple same]
  refine forall_congr' fun r => imp_congr_right fun found => ?_
  rw [sameTriple_of_sameKey (List.find?_some found)]

theorem layers_collide :
    lookupBlockRpc (run serve openEmpty [.register ⟨1, 0, 1, 0, 7⟩]) ⟨1, 0, 1, 256⟩ =
        some ⟨1, 0, 1, 7, true⟩ ∧
      latest (sameTriple ⟨1, 0, 1, 256⟩) (registrations [.register ⟨1, 0, 1, 0, 7⟩]) = none := by
  decide +kernel

def covers (imageId block : UInt64) (layerId : UInt8) (c : RegisterCall) : Bool :=
  c.imageId = imageId ∧ c.layerId = layerId ∧ c.blockOffset.toNat ≤ block.toNat ∧
    block.toNat < c.blockOffset.toNat + c.blockCount.toNat

theorem covers_of_startsAt {imageId block : UInt64} {layerId : UInt8} {c : RegisterCall}
    (positive : 1 ≤ c.blockCount.toNat) (start : startsAt imageId block layerId c = true) :
    covers imageId block layerId c = true := by
  simp only [startsAt, decide_eq_true_eq] at start
  simp only [covers, decide_eq_true_eq, start, true_and]
  omega

theorem startsAt_of_covers {imageId block : UInt64} {layerId : UInt8} {c : RegisterCall}
    (within : covers imageId block layerId c = true) :
    startsAt imageId block layerId c = true ↔ c.blockOffset = block := by
  simp only [covers, decide_eq_true_eq] at within
  simp [startsAt, within]

/-- A block is reported from the latest range that covers it exactly when that range starts at
    the block, or the latest range that does start there is on the same node. -/
theorem range_lookup_iff (calls : List RegisterCall) (imageId block : UInt64) (layerId : UInt8)
    (valid : ∀ c ∈ calls, 1 ≤ c.blockCount.toNat ∧
      c.blockOffset.toNat + c.blockCount.toNat < 2 ^ 64) :
    (lookupBlock (run register openEmpty calls) imageId block 1 layerId).map nodeIdOf =
        (latest (covers imageId block layerId) calls).map (fun c => some c.nodeId) ↔
      ∀ c, latest (covers imageId block layerId) calls = some c →
        c.blockOffset = block ∨
          (latest (startsAt imageId block layerId) calls).map (·.nodeId) = some c.nodeId := by
  have narrower : ∀ c ∈ calls, startsAt imageId block layerId c = true →
      covers imageId block layerId c = true := fun c member =>
    covers_of_startsAt (valid c member).1
  rw [reported_after (fun c => c) calls, latest_agree_iff narrower]
  refine forall_congr' fun c => imp_congr_right fun found => ?_
  rw [startsAt_of_covers (List.find?_some found)]
  cases latest (startsAt imageId block layerId) calls <;> simp

def overlapping : List RegisterCall := [⟨1, 3, 4, 0, 9⟩, ⟨1, 5, 3, 0, 7⟩, ⟨1, 4, 6, 0, 7⟩]

theorem overlapping_ranges_lookup :
    (lookupBlock (run register openEmpty overlapping) 1 5 1 0).map nodeIdOf = some (some 7) :=
  (range_lookup_iff overlapping 1 5 0 (by decide)).mpr (by decide)

theorem second_block_missed :
    lookupBlock (run register openEmpty [⟨1, 0, 2, 0, 7⟩]) 1 1 1 0 = none ∧
      latest (covers 1 1 0) [⟨1, 0, 2, 0, 7⟩] = some ⟨1, 0, 2, 0, 7⟩ := by
  decide +kernel

end RegisteredBlocks
