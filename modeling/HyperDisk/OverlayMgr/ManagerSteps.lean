import HyperDisk.Foundations.WordCounters
import HyperDisk.OverlayMgr.CrashReplay
import HyperDisk.OverlayMgr.SegmentFrames

/- What one manager operation leaves in each field of the world. Proofs about runs use
   these and do not unfold the operations. -/
namespace ManagerSteps
open LittleEndian FileImages WalRecords WalSegments SegmentFrames WalManager CheckpointText

variable {init : TableStore} {w w' : World} {io : Io} {payload : Option Bytes} {payloadLen : UInt32}

theorem lt_add_one_of_le {a b : UInt64} (le : a ≤ b) (wraps : b + 1 ≠ 0) : a < b + 1 := by
  have room : b.toNat + 1 < 2 ^ 64 := by
    by_contra full
    have top : b.toNat + 1 = 2 ^ 64 := by have := b.toNat_lt; omega
    apply wraps
    apply UInt64.toNat_inj.mp
    rw [UInt64.toNat_add]
    simp [top]
  have value : (b + 1).toNat = b.toNat + 1 := WordCounters.succ64_of_room room
  rw [UInt64.le_iff_toNat_le] at le
  rw [UInt64.lt_iff_toNat_lt, value]
  omega

theorem newSegment_contents (disk : Disk) (path other : Path) (startSeqId : UInt64) (opens : Bool) :
    (newSegment disk path startSeqId false opens).1.contents other = disk.contents other := by
  unfold newSegment
  split
  · split
    · rfl
    · rename_i absent _
      by_cases same : other = path
      · rw [same, contents_put, Disk.contents, absent]
        rfl
      · exact contents_put_ne [] same
    · rfl
  · rfl

theorem writeEntry_closed (closed : w.mgr.isOpen = false ∨ w.mgr.activeSegment = none) :
    WalManager.writeEntry init w payload payloadLen io = some (w, 0) := by
  unfold WalManager.writeEntry
  split
  · rfl
  · rename_i seg active
    rcases closed with closed | none
    · rw [if_neg (by simp [closed])]
    · rw [none] at active
      cases active

theorem writeEntry_open {seg : Segment} (active : w.mgr.activeSegment = some seg)
    (opened : w.mgr.isOpen = true) :
    WalSegments.writeEntry init w.disk seg w.mgr.nextSeqId payload payloadLen io.outcome = none ∧
        WalManager.writeEntry init w payload payloadLen io = none ∨
      ∃ (disk : Disk) (seg' : Segment) (ok : Bool) (same : seg'.path = seg.path),
        WalSegments.writeEntry init w.disk seg w.mgr.nextSeqId payload payloadLen io.outcome =
          some (disk, seg', ok) ∧
        WalManager.writeEntry init w payload payloadLen io =
          some (if ok then (rollOverIfNeeded (written w disk seg' active same) io, w.mgr.nextSeqId)
            else (written w disk seg' active same, 0)) := by
  unfold WalManager.writeEntry
  split
  · rename_i none
    rw [none] at active
    cases active
  · rename_i found active'
    have same : found = seg := Option.some.inj (active'.symm.trans active)
    subst same
    rw [if_pos opened]
    dsimp only
    split
    · rename_i fault
      exact Or.inl ⟨fault, rfl⟩
    · rename_i disk seg' ok wrote
      refine Or.inr ⟨disk, seg', ok, writeEntry_path wrote, wrote, ?_⟩
      cases ok <;> rfl

/-- What every completed WriteEntry does to the fence and to the id it returns. -/
theorem writeEntry_fence {seqId : UInt64}
    (returned : WalManager.writeEntry init w payload payloadLen io = some (w', seqId)) :
    w' = w ∧ seqId = 0 ∨
      w.mgr.isOpen = true ∧ w'.mgr.isOpen = true ∧ w'.mgr.dataDir = w.mgr.dataDir ∧
        w'.mgr.nextSeqId = w.mgr.nextSeqId + 1 ∧ (seqId = 0 ∨ seqId = w.mgr.nextSeqId) := by
  cases active : w.mgr.activeSegment with
  | none =>
    rw [writeEntry_closed (Or.inr active)] at returned
    cases returned
    exact Or.inl ⟨rfl, rfl⟩
  | some seg =>
    cases opened : w.mgr.isOpen with
    | false =>
      rw [writeEntry_closed (Or.inl opened)] at returned
      cases returned
      exact Or.inl ⟨rfl, rfl⟩
    | true =>
      refine Or.inr ⟨rfl, ?_⟩
      rcases writeEntry_open active opened with ⟨_, fault⟩ | ⟨disk, seg', ok, same, _, step⟩
      · rw [fault] at returned
        cases returned
      · rw [step] at returned
        cases ok with
        | false =>
          cases returned
          exact ⟨opened, rfl, rfl, Or.inl rfl⟩
        | true =>
          cases returned
          unfold rollOverIfNeeded written
          dsimp only
          split
          · exact ⟨opened, rfl, rfl, Or.inr rfl⟩
          · exact ⟨opened, rfl, rfl, Or.inr rfl⟩

theorem descriptors_left (active : w.mgr.activeSegment = none)
    (retired : w.mgr.sealedSegments = []) : w.mgr.descriptors < descriptorLimit := by
  simp [Manager.descriptors, active, retired, descriptorLimit]

theorem openWal_granted (free : w.mgr.descriptors < descriptorLimit) :
    (openWal w .clean).disk =
        (newSegment w.disk (segmentPath w.mgr.dataDir w.mgr.nextSegmentNumber)
          (flushed w + 1 - 1) false true).1 ∧
      (openWal w .clean).mgr.activeSegment =
        some (newSegment w.disk (segmentPath w.mgr.dataDir w.mgr.nextSegmentNumber)
          (flushed w + 1 - 1) false true).2 := by
  simp [openWal, free, flushed]

theorem rollover_granted (free : w.mgr.descriptors < descriptorLimit) :
    (triggerSegmentRollover w .clean).disk =
        (newSegment w.disk (segmentPath w.mgr.dataDir (w.mgr.nextSegmentNumber + 1))
          (w.mgr.nextSeqId - 1) false true).1 ∧
      (triggerSegmentRollover w .clean).mgr.activeSegment =
        some (newSegment w.disk (segmentPath w.mgr.dataDir (w.mgr.nextSegmentNumber + 1))
          (w.mgr.nextSeqId - 1) false true).2 := by
  simp [triggerSegmentRollover, free]

theorem rollover_denied (full : ¬ w.mgr.descriptors < descriptorLimit) :
    ∃ seg, (triggerSegmentRollover w .clean).mgr.activeSegment = some seg ∧ seg.fd = none := by
  simp [triggerSegmentRollover, full, newSegment]

end ManagerSteps
