import HyperDisk.OverlayMgr.RecordRoundTrip
import HyperDisk.OverlayMgr.WalSegments

/- Reading untrusted bytes. The validator's length test uses a 32-bit sum, so a stored
   length of 2^32 - 26 or more is compared by its wrapped value. Everything else is
   in bounds; the exact set of bad buffers is the negation of `LengthTrusted`. -/
namespace RecordBounds
open LittleEndian WalRecords RecordRoundTrip WalSegments Crc32c

def FooterCrcMatches (data : Bytes) (off : Nat) : Prop :=
  crc32c (data.take off) = word32 ((data.drop off).take 4)

instance (data : Bytes) (off : Nat) : Decidable (FooterCrcMatches data off) := by
  unfold FooterCrcMatches; infer_instance

theorem validateCrcs_inside {data : Bytes} (off : Nat) (small : off + 4 ≤ 2 ^ 64)
    (long : 26 ≤ data.length) (crc : HeaderCrcMatches data)
    (place : (entrySize (payloadLenOf data) + (2 ^ 64 - 4)) % 2 ^ 64 = off)
    (inside : off + 4 ≤ data.length) :
    validateCrcs .takesEffect data (seqIdOf data) (headerCrcOf data) (payloadLenOf data) =
      if ¬ FooterCrcMatches data off then
        some ⟨.tornWriteDetected, seqIdOf data, "Footer CRC mismatch (torn write)"⟩
      else some ⟨.ok, seqIdOf data, ""⟩ := by
  rw [validateCrcs_eq long, if_neg (by simpa using crc)]
  simp only [place, fetch_eq_some inside small,
    slice_eq_some (show 0 + off ≤ data.length by omega), Option.bind_some, List.drop_zero]
  rfl

end RecordBounds
