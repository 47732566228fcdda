import HyperDisk.Blackbox.BlackBoxRecorder
import HyperDisk.BootAgent.BootMeta
import HyperDisk.Common.FrameCodec
import HyperDisk.OverlayMgr.WalRecords
import HyperDisk.ReplayRecorder.ReplayFiles

/- The six copies of CRC-32C against each other and against the reflected CRC. -/
namespace Checksums
open LittleEndian Crc32c

/-- bootdiag_compute_crc32c; its table is filled with if and else. -/
def bootdiagComputeCrc32c (data : Bytes) (len : UInt32) : UInt32 :=
  loop (tableByte (tableEntry shiftBranch)) (data.take len.toNat)

theorem shiftBranch_same : shiftBranch = shiftXor := funext shiftBranch_eq

theorem loop_branch_table (data : Bytes) :
    loop (tableByte (tableEntry shiftBranch)) data = crc32c data := by
  rw [shiftBranch_same, loop_table]

theorem replay_crc32c (data : Bytes) (len : UInt32) :
    ReplayFiles.computeCrc32C data len = crc32c (data.take len.toNat) :=
  loop_branch_table (data.take len.toNat)

theorem whole_taken {data : Bytes} (small : data.length < 2 ^ 32) :
    data.take (UInt32.ofNat data.length).toNat = data := by
  rw [UInt32.toNat_ofNat_of_lt' small, List.take_length]

/-- Five copies always compute the reflected CRC; the one of the WAL does exactly if its store
    into the const table takes effect. -/
theorem all_crc32c_agree (init : WalRecords.TableStore) (data : Bytes)
    (small : data.length < 2 ^ 32) :
    (FrameCodec.computeCrc32C data (UInt32.ofNat data.length) = crc32c data ∧
      ReplayFiles.computeCrc32C data (UInt32.ofNat data.length) = crc32c data ∧
      bootdiagComputeCrc32c data (UInt32.ofNat data.length) = crc32c data ∧
      BootMeta.crc32c data data.length = crc32c data ∧
      BlackBoxRecorder.computeCrc32C data (UInt32.ofNat data.length) = crc32c data) ∧
    (WalRecords.computeCrc32c init data = some (crc32c data) ↔ init = .takesEffect) := by
  have whole := whole_taken small
  refine ⟨⟨?_, ?_, ?_, ?_, ?_⟩, WalRecords.computeCrc32c_iff init data⟩
  · rw [FrameCodec.computeCrc32C, whole, loop_branch_table]
  · rw [replay_crc32c, whole]
  · rw [bootdiagComputeCrc32c, whole, loop_branch_table]
  · rw [BootMeta.crc32c, List.take_length, loop_shifts]
  · rw [BlackBoxRecorder.computeCrc32C, whole, loop_shifts]

def checkInput : Bytes := [0x31, 0x32, 0x33, 0x34, 0x35, 0x36, 0x37, 0x38, 0x39]

theorem check_crc32c : crc32c checkInput = 0xE3069283 := by decide +kernel

theorem check_value : FrameCodec.computeCrc32C checkInput 9 = 0xE3069283 ∧
    ReplayFiles.computeCrc32C checkInput 9 = 0xE3069283 ∧
    bootdiagComputeCrc32c checkInput 9 = 0xE3069283 ∧
    BootMeta.crc32c checkInput 9 = 0xE3069283 ∧
    BlackBoxRecorder.computeCrc32C checkInput 9 = 0xE3069283 ∧
    WalRecords.computeCrc32c .takesEffect checkInput = some 0xE3069283 := by
  obtain ⟨five, wal⟩ := all_crc32c_agree .takesEffect checkInput (by decide)
  rw [check_crc32c] at five wal
  exact ⟨five.1, five.2.1, five.2.2.1, five.2.2.2.1, five.2.2.2.2, wal.mpr rfl⟩

theorem faulting_check_value : WalRecords.computeCrc32c .faults checkInput = none ∧
    FrameCodec.computeCrc32C checkInput 9 = 0xE3069283 :=
  ⟨WalRecords.computeCrc32c_faults checkInput, by decide +kernel⟩

end Checksums
