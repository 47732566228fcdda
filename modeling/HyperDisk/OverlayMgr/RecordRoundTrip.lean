import HyperDisk.Foundations.PackedFields
import HyperDisk.OverlayMgr.WalRecords

/- What Build lays out, and what Validate and Parse make of it. Records are compared
   with an independent description of the format: header, payload, footer, padding. -/
namespace RecordRoundTrip
open LittleEndian WalRecords Crc32c

/-- The payload arguments WriteEntry is meant for: a readable pointer, or null with
    length zero, and a record size that does not overflow 32 bits. -/
structure Payload where
  data : Option Bytes
  len : UInt32
  readable : ∀ src ∈ data, len.toNat ≤ src.length
  present : data = none → len = 0
  fits : 26 + len.toNat < 2 ^ 32

def Payload.bytes (p : Payload) : Bytes := (p.data.getD []).take p.len.toNat

def Payload.ofBytes (bytes : Bytes) (fits : 26 + bytes.length < 2 ^ 32) : Payload where
  data := some bytes
  len := UInt32.ofNat bytes.length
  readable := by
    intro src member
    cases Option.some.inj member
    rw [UInt32.toNat_ofNat_of_lt' (by simp [UInt32.size]; omega)]
  present := by simp
  fits := by
    rw [UInt32.toNat_ofNat_of_lt' (by simp [UInt32.size]; omega)]
    exact fits

theorem payload_length (p : Payload) : p.bytes.length = p.len.toNat := by
  cases source : p.data with
  | none => simp [Payload.bytes, source, p.present source]
  | some src =>
    have enough := p.readable src (by simp [source])
    simp [Payload.bytes, source, enough]

def header (seqId : UInt64) (len : UInt32) : Bytes :=
  prologue seqId ++ store 4 (crc32c (prologue seqId ++ store 4 len.toNat)).toNat ++
    store 4 len.toNat

def body (seqId : UInt64) (p : Payload) : Bytes := header seqId p.len ++ p.bytes

def record (seqId : UInt64) (p : Payload) : Bytes :=
  body seqId p ++ store 4 (crc32c (body seqId p)).toNat

def frameSize (p : Payload) : Nat := align8 (26 + p.len.toNat)

def frame (seqId : UInt64) (p : Payload) : Bytes :=
  record seqId p ++ List.replicate (frameSize p - (26 + p.len.toNat)) 0

def expectedEntry (seqId : UInt64) (p : Payload) : WalEntry where
  header := ⟨walMagic, walVersion⟩
  seqId := seqId
  headerCrc := crc32c (prologue seqId ++ store 4 p.len.toNat)
  payloadLen := p.len
  payload := p.bytes
  footerCrc := crc32c (body seqId p)

@[simp] theorem prologue_length (seqId : UInt64) : (prologue seqId).length = 14 := by
  simp [prologue]

@[simp] theorem header_length (seqId : UInt64) (len : UInt32) : (header seqId len).length = 22 := by
  simp [header]

@[simp] theorem body_length (seqId : UInt64) (p : Payload) :
    (body seqId p).length = 22 + p.len.toNat := by
  simp [body, payload_length]

@[simp] theorem record_length (seqId : UInt64) (p : Payload) :
    (record seqId p).length = 26 + p.len.toNat := by
  simp [record]
  omega

theorem frameSize_bounds (p : Payload) :
    26 + p.len.toNat ≤ frameSize p ∧ frameSize p < 34 + p.len.toNat := by
  have fits := p.fits
  have bounds := align8_bounds (show 26 + p.len.toNat + 7 < 2 ^ 64 by omega)
  unfold frameSize
  omega

@[simp] theorem frame_length (seqId : UInt64) (p : Payload) :
    (frame seqId p).length = frameSize p := by
  have bounds := frameSize_bounds p
  simp [frame]
  omega

theorem copyPayload_eq (p : Payload) (front : Bytes) (start : front.length = 22) (room : Nat)
    (space : p.len.toNat ≤ room) :
    copyPayload (front ++ List.replicate room 0) p.data p.len =
      some (front ++ p.bytes ++ List.replicate (room - p.len.toNat) 0, 22 + p.len.toNat) := by
  have length := payload_length p
  cases source : p.data with
  | none =>
    have zero := p.present source
    have empty : p.bytes = [] := by simpa [zero] using length
    simp [copyPayload, zero, empty]
  | some src =>
    by_cases positive : 0 < p.len
    · have enough := p.readable src (by simp [source])
      have chunk : slice src 0 p.len.toNat = some p.bytes := by
        rw [slice_eq_some (by omega)]
        simp [Payload.bytes, source]
      have written := overwrite_zeros front p.bytes room (by omega)
      rw [start] at written
      simp only [copyPayload, if_pos positive, chunk, Option.bind_eq_bind, Option.bind_some,
        written, length]
    · have zero : p.len = 0 := by
        apply UInt32.toNat_inj.mp
        have := UInt32.lt_iff_toNat_lt.not.mp positive
        simpa using this
      have empty : p.bytes = [] := by simpa [zero] using length
      simp [copyPayload, zero, empty]

theorem build_eq (seqId : UInt64) (p : Payload) :
    build .takesEffect seqId p.data p.len = some (frame seqId p) := by
  have bounds := frameSize_bounds p
  have aligned : align8 (entrySize p.len) = frameSize p := by
    rw [entrySize_of_fits p.fits, frameSize]
  have step1 := overwrite_zeros [] (prologue seqId) (frameSize p) (by simp; omega)
  have step2 := overwrite_zeros (prologue seqId)
    (store 4 (crc32c (prologue seqId ++ store 4 p.len.toNat)).toNat)
    (frameSize p - 14) (by simp; omega)
  have step3 := overwrite_zeros
    (prologue seqId ++ store 4 (crc32c (prologue seqId ++ store 4 p.len.toNat)).toNat)
    (store 4 p.len.toNat) (frameSize p - 14 - 4) (by simp; omega)
  have step4 := copyPayload_eq p (header seqId p.len) (by simp)
    (frameSize p - 14 - 4 - 4) (by omega)
  have step5 := overwrite_zeros (body seqId p) (store 4 (crc32c (body seqId p)).toNat)
    (frameSize p - 14 - 4 - 4 - p.len.toNat) (by simp; omega)
  simp only [List.nil_append, List.length_nil, prologue_length, store_length, List.length_append,
    Nat.reduceAdd, body_length] at step1 step2 step3 step5
  have front : (prologue seqId ++ List.replicate (frameSize p - 14) 0).take 14 = prologue seqId :=
    List.take_left' (by simp)
  have whole : (body seqId p ++ List.replicate (frameSize p - 14 - 4 - 4 - p.len.toNat) 0).take
      (22 + p.len.toNat) = body seqId p := List.take_left' (by simp)
  simp only [build, aligned, step1, Option.bind_eq_bind, Option.bind_some, front, computeCrc32c_eq,
    step2, step3]
  change (copyPayload (header seqId p.len ++ _) _ _).bind _ = _
  rw [step4]
  change overwrite (body seqId p ++ _) _
    (store 4 (crc32c (List.take _ (body seqId p ++ _))).toNat) = _
  have padding : frameSize p - 14 - 4 - 4 - p.len.toNat - 4 = frameSize p - (26 + p.len.toNat) := by
    omega
  rw [whole, step5, frame, record, padding]

theorem build_faults (seqId : UInt64) (payload : Option Bytes) (payloadLen : UInt32) :
    build .faults seqId payload payloadLen = none := by
  simp [build, computeCrc32c_faults]

def magicOf (data : Bytes) : UInt32 := word32 ((data.drop 0).take 4)
def seqIdOf (data : Bytes) : UInt64 := word64 ((data.drop 6).take 8)
def headerCrcOf (data : Bytes) : UInt32 := word32 ((data.drop 14).take 4)
def payloadLenOf (data : Bytes) : UInt32 := word32 ((data.drop 18).take 4)

def HeaderCrcMatches (data : Bytes) : Prop :=
  crc32c (data.take 14 ++ store 4 (payloadLenOf data).toNat) = headerCrcOf data

instance (data : Bytes) : Decidable (HeaderCrcMatches data) := by
  unfold HeaderCrcMatches; infer_instance

theorem validate_short {init : TableStore} {data : Bytes} (short : data.length < 26) :
    validate init data = some ⟨.tornWriteDetected, 0, "Entry too short"⟩ := if_pos short

theorem validate_long (init : TableStore) {data : Bytes} (long : 26 ≤ data.length) :
    validate init data =
      if magicOf data ≠ walMagic then some ⟨.tornWriteDetected, 0, "Magic mismatch"⟩
      else if data.length < entrySize (payloadLenOf data) then
        some ⟨.tornWriteDetected, seqIdOf data, "Payload truncated"⟩
      else validateCrcs init data (seqIdOf data) (headerCrcOf data) (payloadLenOf data) := by
  have enough : ¬ data.length < walHeaderSize.toNat + walSeqIdSize.toNat + walCrcSize.toNat +
      walPayloadLenSize.toNat + walCrcSize.toNat := by
    simp [walHeaderSize, walSeqIdSize, walCrcSize, walPayloadLenSize]
    omega
  unfold validate
  rw [if_neg enough]
  simp only [fetch_eq_some (show 0 + 4 ≤ data.length by omega) (by omega),
    fetch_eq_some (show 6 + 8 ≤ data.length by omega) (by omega),
    fetch_eq_some (show 14 + 4 ≤ data.length by omega) (by omega),
    fetch_eq_some (show 18 + 4 ≤ data.length by omega) (by omega),
    Option.bind_eq_bind, Option.bind_some]
  rfl

theorem validateCrcs_eq {data : Bytes} (long : 26 ≤ data.length) :
    validateCrcs .takesEffect data (seqIdOf data) (headerCrcOf data) (payloadLenOf data) =
      if ¬ HeaderCrcMatches data then
        some ⟨.tornWriteDetected, seqIdOf data, "Header CRC mismatch (torn write)"⟩
      else
        let footerOff := (entrySize (payloadLenOf data) + (2 ^ 64 - 4)) % 2 ^ 64
        (fetch data footerOff 4).bind fun stored => (slice data 0 footerOff).bind fun front =>
          if crc32c front ≠ word32 stored then
            some ⟨.tornWriteDetected, seqIdOf data, "Footer CRC mismatch (torn write)"⟩
          else some ⟨.ok, seqIdOf data, ""⟩ := by
  unfold validateCrcs
  simp only [fetch_eq_some (show 0 + 14 ≤ data.length by omega) (by omega), List.drop_zero,
    computeCrc32c_eq, Option.bind_eq_bind, Option.bind_some]
  rfl

theorem validateCrcs_faults (data : Bytes) (seqId : UInt64) (storedHeaderCrc payloadLen : UInt32) :
    validateCrcs .faults data seqId storedHeaderCrc payloadLen = none := by
  simp [validateCrcs, computeCrc32c_faults]

theorem validate_faults {data : Bytes} {r : WalEntryCheckResult}
    (result : validate .faults data = some r) : r.status ≠ .ok := by
  by_cases short : data.length < 26
  · rw [validate_short short, Option.some_inj] at result
    simp [← result]
  · rw [validate_long .faults (Nat.le_of_not_lt short), validateCrcs_faults] at result
    split at result
    · simp [← Option.some.inj result]
    · split at result
      · simp [← Option.some.inj result]
      · cases result

-- The fields of a record are laid out like those of a packed struct.
theorem word32_store (x : UInt32) : word32 (store 4 x.toNat) = x := PackedFields.u32.decode_encode x

theorem word64_store (x : UInt64) : word64 (store 8 x.toNat) = x := PackedFields.u64.decode_encode x

theorem word16_store (x : UInt16) : word16 (store 2 x.toNat) = x := PackedFields.u16.decode_encode x

theorem store_word32 {bytes : Bytes} (size : bytes.length = 4) :
    store 4 (word32 bytes).toNat = bytes :=
  PackedFields.u32.encode_decode bytes size

theorem store_word64 {bytes : Bytes} (size : bytes.length = 8) :
    store 8 (word64 bytes).toNat = bytes :=
  PackedFields.u64.encode_decode bytes size

theorem store_word16 {bytes : Bytes} (size : bytes.length = 2) :
    store 2 (word16 bytes).toNat = bytes :=
  PackedFields.u16.encode_decode bytes size

theorem header_fields (seqId : UInt64) (len : UInt32) (rest : Bytes) :
    magicOf (header seqId len ++ rest) = walMagic ∧
      word16 (((header seqId len ++ rest).drop 4).take 2) = walVersion ∧
      seqIdOf (header seqId len ++ rest) = seqId ∧
      headerCrcOf (header seqId len ++ rest) =
        crc32c (prologue seqId ++ store 4 len.toNat) ∧
      payloadLenOf (header seqId len ++ rest) = len := by
  simp only [header, prologue, List.append_assoc]
  refine ⟨?_, ?_, ?_, ?_, ?_⟩
  · rw [magicOf, List.drop_zero, List.take_left' (store_length 4 _), word32_store]
  · rw [field_of_append (store 4 _) (store 2 _) _ (by simp) (by simp), word16_store]
  · rw [seqIdOf, ← List.append_assoc, field_of_append _ (store 8 _) _ (by simp) (by simp),
      word64_store]
  · rw [headerCrcOf, ← List.append_assoc, ← List.append_assoc,
      field_of_append _ (store 4 _) _ (by simp) (by simp), word32_store]
  · rw [payloadLenOf, ← List.append_assoc, ← List.append_assoc, ← List.append_assoc,
      field_of_append _ (store 4 _) _ (by simp) (by simp), word32_store]

theorem header_crc_matches (seqId : UInt64) (len : UInt32) (rest : Bytes) :
    HeaderCrcMatches (header seqId len ++ rest) := by
  obtain ⟨_, _, _, crc, size⟩ := header_fields seqId len rest
  have front : (header seqId len ++ rest).take 14 = prologue seqId := by
    rw [header, List.append_assoc, List.append_assoc, List.take_left' (prologue_length seqId)]
  rw [HeaderCrcMatches, crc, size, front]

theorem record_append (seqId : UInt64) (p : Payload) (rest : Bytes) :
    record seqId p ++ rest =
      header seqId p.len ++ (p.bytes ++ (store 4 (crc32c (body seqId p)).toNat ++ rest)) := by
  simp [record, body]

theorem record_fields (seqId : UInt64) (p : Payload) (rest : Bytes) :
    magicOf (record seqId p ++ rest) = walMagic ∧
      word16 (((record seqId p ++ rest).drop 4).take 2) = walVersion ∧
      seqIdOf (record seqId p ++ rest) = seqId ∧
      headerCrcOf (record seqId p ++ rest) =
        crc32c (prologue seqId ++ store 4 p.len.toNat) ∧
      payloadLenOf (record seqId p ++ rest) = p.len := by
  rw [record_append]
  exact header_fields seqId p.len _

theorem record_payload (seqId : UInt64) (p : Payload) (rest : Bytes) :
    ((record seqId p ++ rest).drop 22).take p.len.toNat = p.bytes := by
  rw [record_append, field_of_append (header seqId p.len) p.bytes _ (by simp) (payload_length p)]

theorem record_footer (seqId : UInt64) (p : Payload) (rest : Bytes) :
    ((record seqId p ++ rest).drop (22 + p.len.toNat)).take 4 =
      store 4 (crc32c (body seqId p)).toNat := by
  rw [record, List.append_assoc, field_of_append (body seqId p) _ rest (by simp) (by simp)]

theorem validate_record (seqId : UInt64) (p : Payload) (rest : Bytes) :
    validate .takesEffect (record seqId p ++ rest) = some ⟨.ok, seqId, ""⟩ := by
  have fits := p.fits
  have long : 26 + p.len.toNat ≤ (record seqId p ++ rest).length := by simp
  obtain ⟨magic, _, seq, _, size⟩ := record_fields seqId p rest
  have crc : HeaderCrcMatches (record seqId p ++ rest) := by
    rw [record_append]
    exact header_crc_matches seqId p.len _
  have footerOff : (entrySize p.len + (2 ^ 64 - 4)) % 2 ^ 64 = 22 + p.len.toNat := by
    rw [entrySize_of_fits fits]
    omega
  have stored : fetch (record seqId p ++ rest) (22 + p.len.toNat) 4 =
      some (store 4 (crc32c (body seqId p)).toNat) := by
    rw [fetch_eq_some (by omega) (by omega), record_footer]
  have front : slice (record seqId p ++ rest) 0 (22 + p.len.toNat) = some (body seqId p) := by
    rw [slice_eq_some (by omega), List.drop_zero, record, List.append_assoc,
      List.take_left' (by simp)]
  rw [validate_long .takesEffect (by omega), if_neg (by simp [magic]), size,
    if_neg (by rw [entrySize_of_fits fits]; omega), ← size, validateCrcs_eq (by omega),
    if_neg (by simp [crc]), size, seq]
  simp only [footerOff, stored, front, Option.bind_some, word32_store]
  simp

theorem parse_eq {data : Bytes} (inside : 26 + (payloadLenOf data).toNat ≤ data.length) :
    parse data = some ⟨⟨magicOf data, word16 ((data.drop 4).take 2)⟩, seqIdOf data,
      headerCrcOf data,
      payloadLenOf data, (data.drop 22).take (payloadLenOf data).toNat,
      word32 ((data.drop (22 + (payloadLenOf data).toNat)).take 4)⟩ := by
  have bound := (payloadLenOf data).toNat_lt
  unfold payloadLenOf at inside bound
  unfold parse
  simp only [fetch_eq_some (show 0 + 4 ≤ data.length by omega) (by omega),
    fetch_eq_some (show 4 + 2 ≤ data.length by omega) (by omega),
    fetch_eq_some (show 6 + 8 ≤ data.length by omega) (by omega),
    fetch_eq_some (show 14 + 4 ≤ data.length by omega) (by omega),
    fetch_eq_some (show 18 + 4 ≤ data.length by omega) (by omega), Option.bind_eq_bind,
    Option.bind_some, slice_eq_some (show 22 + (word32 ((data.drop 18).take 4)).toNat ≤
      data.length by omega),
    fetch_eq_some (show 22 + (word32 ((data.drop 18).take 4)).toNat + 4 ≤ data.length by omega)
      (by omega)]
  rfl

theorem parse_record (seqId : UInt64) (p : Payload) (rest : Bytes) :
    parse (record seqId p ++ rest) = some (expectedEntry seqId p) := by
  obtain ⟨magic, version, seq, crc, size⟩ := record_fields seqId p rest
  have inside : 26 + (payloadLenOf (record seqId p ++ rest)).toNat ≤
      (record seqId p ++ rest).length := by
    rw [size]
    simp
  rw [parse_eq inside, magic, version, seq, crc, size, record_payload, record_footer, word32_store]
  rfl

theorem frame_append (seqId : UInt64) (p : Payload) (rest : Bytes) :
    frame seqId p ++ rest =
      record seqId p ++ (List.replicate (frameSize p - (26 + p.len.toNat)) 0 ++ rest) := by
  rw [frame, List.append_assoc]

/-- Validate and Parse give back what Build was given, whatever follows the record, and Build
    pads to the next multiple of eight. -/
def RoundTrips (init : TableStore) (seqId : UInt64) (p : Payload) (rest : Bytes) : Prop :=
  ∃ built, build init seqId p.data p.len = some built ∧
    validate init (built ++ rest) = some ⟨.ok, seqId, ""⟩ ∧
    (∃ e, parse (built ++ rest) = some e ∧ e.header.magic = walMagic ∧ e.header.version = 1 ∧
      e.seqId = seqId ∧ e.payloadLen = p.len ∧ e.payload = p.bytes) ∧
    built.length % 8 = 0 ∧ 26 + p.len.toNat ≤ built.length ∧
    ∀ m, m % 8 = 0 → 26 + p.len.toNat ≤ m → built.length ≤ m

theorem roundTrips_filled (seqId : UInt64) (p : Payload) (rest : Bytes) :
    RoundTrips .takesEffect seqId p rest := by
  have fits := p.fits
  obtain ⟨above, below, aligned⟩ := align8_bounds (show 26 + p.len.toNat + 7 < 2 ^ 64 by omega)
  refine ⟨frame seqId p, build_eq seqId p, ?_, ?_, ?_, ?_, ?_⟩
  · rw [frame_append]
    exact validate_record seqId p _
  · rw [frame_append]
    exact ⟨expectedEntry seqId p, parse_record seqId p _, rfl, rfl, rfl, rfl, rfl⟩
  · rw [frame_length]
    exact aligned
  · rw [frame_length]
    exact above
  · intro m multiple room
    rw [frame_length, frameSize]
    omega

theorem not_roundTrips_faults (seqId : UInt64) (p : Payload) (rest : Bytes) :
    ¬ RoundTrips .faults seqId p rest := by
  rintro ⟨built, made, _⟩
  rw [build_faults] at made
  cases made

/-- A record comes back exactly if the store into the const table takes effect. -/
theorem record_round_trip (init : TableStore) (seqId : UInt64) (p : Payload) (rest : Bytes) :
    RoundTrips init seqId p rest ↔ init = .takesEffect := by
  cases init with
  | takesEffect => exact iff_of_true (roundTrips_filled seqId p rest) rfl
  | faults => exact iff_of_false (not_roundTrips_faults seqId p rest) (by decide)

theorem faulting_build :
    build .faults 7 (some [65]) 1 = none ∧
      ¬ RoundTrips .faults 7 (Payload.ofBytes [65] (by decide)) [] :=
  ⟨build_faults 7 (some [65]) 1, not_roundTrips_faults 7 _ []⟩

theorem validate_cut (seqId : UInt64) {p : Payload} {m : Nat} (cut : m < 26 + p.len.toNat) :
    ∃ r, validate .takesEffect ((record seqId p).take m) = some r ∧
      r.status = .tornWriteDetected := by
  have length : ((record seqId p).take m).length = m := by simp; omega
  by_cases short : m < 26
  · exact ⟨_, validate_short (by omega), rfl⟩
  · have prefixed : (record seqId p).take m =
        header seqId p.len ++ (p.bytes ++ store 4 (crc32c (body seqId p)).toNat).take (m - 22) := by
      have whole := record_append seqId p []
      simp only [List.append_nil] at whole
      rw [whole, List.take_append, header_length, List.take_of_length_le (by simp; omega)]
    obtain ⟨magic, _, _, _, size⟩ := header_fields seqId p.len
      ((p.bytes ++ store 4 (crc32c (body seqId p)).toNat).take (m - 22))
    rw [← prefixed] at magic size
    refine ⟨⟨.tornWriteDetected, seqIdOf ((record seqId p).take m), "Payload truncated"⟩, ?_, rfl⟩
    rw [validate_long .takesEffect (by omega), if_neg (by simp [magic]),
      if_pos (by rw [size, entrySize_of_fits p.fits]; omega)]

end RecordRoundTrip
