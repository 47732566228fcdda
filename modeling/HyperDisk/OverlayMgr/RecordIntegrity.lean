import HyperDisk.OverlayMgr.RecordBounds

/- Which records Validate accepts: those that Build makes, up to the version field, which it
   never looks at; and no record of Build in which one byte was changed. -/
namespace RecordIntegrity
open LittleEndian WalRecords RecordRoundTrip RecordBounds Crc32c

theorem field_length {data : Bytes} {off width : Nat} (inside : off + width ≤ data.length) :
    ((data.drop off).take width).length = width := by
  rw [List.length_take, List.length_drop]
  omega

theorem word32_set_ne {data : Bytes} {b : UInt8} {off i : Nat} (inside : off + 4 ≤ data.length)
    (above : off ≤ i) (below : i < off + 4) (changed : data[i]? ≠ some b) :
    word32 (((data.set i b).drop off).take 4) ≠ word32 ((data.drop off).take 4) := by
  intro same
  apply field_set_differs above below (by omega) changed
  rw [← store_word32 (field_length inside), ← same, store_word32]
  apply field_length
  rw [List.length_set]
  exact inside

/-- The bytes under the header CRC: everything in front of it, and the length behind it. -/
def covered (data : Bytes) : Bytes := data.take 14 ++ (data.drop 18).take 4

theorem headerCrcMatches_iff {data : Bytes} (long : 22 ≤ data.length) :
    HeaderCrcMatches data ↔ crc32c (covered data) = headerCrcOf data := by
  have size : ((data.drop 18).take 4).length = 4 := field_length (by omega)
  rw [HeaderCrcMatches, payloadLenOf, store_word32 size, covered]

theorem covered_set_front {data : Bytes} (b : UInt8) {i : Nat} (long : 22 ≤ data.length)
    (early : i < 14) : covered (data.set i b) = (covered data).set i b := by
  have front : (data.take 14).length = 14 := List.length_take_of_le (by omega)
  rw [covered, covered, field_set_apart data b (by omega), List.set_append_left _ _ (by omega),
    List.take_set]

theorem covered_set_length {data : Bytes} (b : UInt8) {i : Nat} (long : 22 ≤ data.length)
    (above : 18 ≤ i) : covered (data.set i b) = (covered data).set (i - 4) b := by
  have front : (data.take 14).length = 14 := List.length_take_of_le (by omega)
  rw [covered, covered, List.take_set_of_le (by omega), List.set_append_right _ _ (by omega),
    List.drop_set, if_neg (by omega), List.take_set, front, show i - 4 - 14 = i - 18 by omega]

theorem covered_set_apart (data : Bytes) (b : UInt8) {i : Nat} (above : 14 ≤ i) (below : i < 18) :
    covered (data.set i b) = covered data := by
  rw [covered, covered, List.take_set_of_le above, field_set_apart data b (by omega)]

theorem covered_byte {data : Bytes} {i j : Nat} (long : 22 ≤ data.length)
    (place : i < 14 ∧ j = i ∨ 18 ≤ i ∧ i < 22 ∧ j = i - 4) :
    j < (covered data).length ∧ (covered data)[j]? = data[i]? := by
  have front : (data.take 14).length = 14 := List.length_take_of_le (by omega)
  have back : ((data.drop 18).take 4).length = 4 := field_length (by omega)
  rw [covered, List.length_append, front, back]
  rcases place with ⟨early, same⟩ | ⟨above, below, same⟩
  · rw [same, List.getElem?_append_left (by omega), List.getElem?_take_of_lt early]
    exact ⟨by omega, rfl⟩
  · rw [same, List.getElem?_append_right (by omega), front, List.getElem?_take_of_lt (by omega),
      List.getElem?_drop, show 18 + (i - 4 - 14) = i by omega]
    exact ⟨by omega, rfl⟩

theorem damaged_header {data : Bytes} {b : UInt8} {i : Nat} (long : 22 ≤ data.length)
    (intact : HeaderCrcMatches data) (above : 4 ≤ i) (below : i < 22)
    (changed : data[i]? ≠ some b) : ¬ HeaderCrcMatches (data.set i b) := by
  rw [headerCrcMatches_iff long] at intact
  rw [headerCrcMatches_iff (by rw [List.length_set]; exact long)]
  by_cases stored : 14 ≤ i ∧ i < 18
  · rw [covered_set_apart data b stored.1 stored.2, intact]
    exact (word32_set_ne (by omega) stored.1 stored.2 changed).symm
  · have same : headerCrcOf (data.set i b) = headerCrcOf data := by
      rw [headerCrcOf, headerCrcOf, field_set_apart data b (by omega)]
    rw [same, ← intact]
    by_cases early : i < 14
    · obtain ⟨inside, byte⟩ := covered_byte long (Or.inl ⟨early, rfl⟩)
      rw [covered_set_front b long early]
      exact crc32c_set_ne inside (byte ▸ changed)
    · obtain ⟨inside, byte⟩ := covered_byte long (Or.inr ⟨show 18 ≤ i by omega, below, rfl⟩)
      rw [covered_set_length b long (by omega)]
      exact crc32c_set_ne inside (byte ▸ changed)

theorem damaged_footer {data : Bytes} {b : UInt8} {i off : Nat} (inside : off + 4 ≤ data.length)
    (intact : FooterCrcMatches data off) (below : i < off + 4) (changed : data[i]? ≠ some b) :
    ¬ FooterCrcMatches (data.set i b) off := by
  rw [FooterCrcMatches] at intact ⊢
  by_cases stored : off ≤ i
  · rw [List.take_set_of_le stored, intact]
    exact (word32_set_ne inside stored below changed).symm
  · rw [field_set_apart data b (by omega), ← intact, List.take_set]
    apply crc32c_set_ne
    · rw [List.length_take]
      omega
    · rw [List.getElem?_take_of_lt (by omega)]
      exact changed

theorem rejected_of_crcs {data : Bytes} {r : WalEntryCheckResult} (long : 26 ≤ data.length)
    (result : validateCrcs .takesEffect data (seqIdOf data) (headerCrcOf data) (payloadLenOf data) =
      some r)
    (bad : r.status ≠ .ok) : ∃ r, validate .takesEffect data = some r ∧ r.status ≠ .ok := by
  rw [validate_long .takesEffect long]
  split
  · exact ⟨_, rfl, by simp⟩
  · split
    · exact ⟨_, rfl, by simp⟩
    · exact ⟨r, result, bad⟩

theorem rejected_of_header {data : Bytes} (long : 26 ≤ data.length)
    (wrong : ¬ HeaderCrcMatches data) :
    ∃ r, validate .takesEffect data = some r ∧ r.status ≠ .ok := by
  have result := validateCrcs_eq long
  rw [if_pos wrong] at result
  exact rejected_of_crcs long result (by simp)

theorem rejected_of_footer {data : Bytes} {n : UInt32} (fits : 26 + n.toNat < 2 ^ 32)
    (long : 26 + n.toNat ≤ data.length) (size : payloadLenOf data = n)
    (wrong : ¬ FooterCrcMatches data (22 + n.toNat)) :
    ∃ r, validate .takesEffect data = some r ∧ r.status ≠ .ok := by
  by_cases header : HeaderCrcMatches data
  · have place : (entrySize (payloadLenOf data) + (2 ^ 64 - 4)) % 2 ^ 64 = 22 + n.toNat := by
      rw [size, entrySize_of_fits fits]
      omega
    have result :=
      validateCrcs_inside (22 + n.toNat) (by omega) (by omega) header place (by omega)
    rw [if_pos wrong] at result
    exact rejected_of_crcs (by omega) result (by simp)
  · exact rejected_of_header (by omega) header

theorem record_footer_matches (seqId : UInt64) (p : Payload) (rest : Bytes) :
    FooterCrcMatches (record seqId p ++ rest) (22 + p.len.toNat) := by
  have front : (record seqId p ++ rest).take (22 + p.len.toNat) = body seqId p := by
    rw [record, List.append_assoc, List.take_left' (by simp)]
  rw [FooterCrcMatches, front, record_footer, word32_store]

theorem damaged_record (seqId : UInt64) (p : Payload) (rest : Bytes) {i : Nat} {b : UInt8}
    (inside : i < 26 + p.len.toNat) (changed : (record seqId p ++ rest)[i]? ≠ some b) :
    ∃ r, validate .takesEffect ((record seqId p ++ rest).set i b) = some r ∧ r.status ≠ .ok := by
  have fits := p.fits
  have long : 26 + p.len.toNat ≤ (record seqId p ++ rest).length := by simp
  have longer : 26 + p.len.toNat ≤ ((record seqId p ++ rest).set i b).length := by
    rw [List.length_set]
    exact long
  obtain ⟨magic, _, _, _, size⟩ := record_fields seqId p rest
  by_cases first : i < 4
  · have broken : magicOf ((record seqId p ++ rest).set i b) ≠ walMagic := by
      rw [← magic]
      exact word32_set_ne (by omega) (Nat.zero_le i) (by omega) changed
    rw [validate_long .takesEffect (by omega), if_pos broken]
    exact ⟨_, rfl, by simp⟩
  · by_cases second : i < 22
    · apply rejected_of_header (by omega)
      apply damaged_header (by omega) _ (by omega) second changed
      rw [record_append]
      exact header_crc_matches seqId p.len _
    · apply rejected_of_footer fits longer
      · rw [payloadLenOf, field_set_apart _ b (by omega)]
        exact size
      · exact damaged_footer (by omega) (record_footer_matches seqId p rest) (by omega) changed

def Detects (init : TableStore) (seqId : UInt64) (p : Payload) : Prop :=
  ∃ built, build init seqId p.data p.len = some built ∧
    ∀ (i : Nat) (b : UInt8) (rest : Bytes), i < 26 + p.len.toNat → built[i]? ≠ some b →
      ∃ r, validate init (built.set i b ++ rest) = some r ∧ r.status ≠ .ok

theorem detects_filled (seqId : UInt64) (p : Payload) : Detects .takesEffect seqId p := by
  refine ⟨frame seqId p, build_eq seqId p, ?_⟩
  intro i b rest inside changed
  have bounds := frameSize_bounds p
  have here : i < (frame seqId p).length := by
    rw [frame_length]
    omega
  rw [← List.set_append_left _ _ here, frame_append]
  apply damaged_record seqId p _ inside
  rw [← frame_append, List.getElem?_append_left here]
  exact changed

theorem not_detects_faults (seqId : UInt64) (p : Payload) : ¬ Detects .faults seqId p := by
  rintro ⟨built, made, _⟩
  rw [build_faults] at made
  cases made

/-- One changed byte of a record is always noticed, exactly if the store into the const table
    takes effect. -/
theorem corrupted_record_rejected (init : TableStore) (seqId : UInt64) (p : Payload) :
    Detects init seqId p ↔ init = .takesEffect := by
  cases init with
  | takesEffect => exact iff_of_true (detects_filled seqId p) rfl
  | faults => exact iff_of_false (not_detects_faults seqId p) (by decide)

theorem damaged_payload_rejected :
    ∃ built, build .takesEffect 7 (some [1, 2, 3]) 3 = some built ∧ built[23]? = some 2 ∧
      ∃ r, validate .takesEffect (built.set 23 9 ++ [5]) = some r ∧ r.status ≠ .ok := by
  obtain ⟨built, made, rejected⟩ :=
    (corrupted_record_rejected .takesEffect 7 (Payload.ofBytes [1, 2, 3] (by decide))).mpr rfl
  have byte : (build .takesEffect 7 (some [1, 2, 3]) 3).bind (·[23]?) = some 2 := by decide +kernel
  have same : build .takesEffect 7 (some [1, 2, 3]) 3 = some built := made
  rw [same, Option.bind_some] at byte
  refine ⟨built, same, byte, rejected 23 9 [5] (by decide) ?_⟩
  rw [byte]
  decide

theorem faulting_detection :
    build .faults 7 (some [1, 2, 3]) 3 = none ∧
      ¬ Detects .faults 7 (Payload.ofBytes [1, 2, 3] (by decide)) :=
  ⟨build_faults 7 (some [1, 2, 3]) 3, not_detects_faults 7 _⟩

theorem parse_inside {data : Bytes} {e : WalEntry} (parsed : parse data = some e) :
    26 + (payloadLenOf data).toNat ≤ data.length := by
  unfold parse at parsed
  simp only [Option.bind_eq_bind, Option.bind_eq_some_iff] at parsed
  obtain ⟨_, _, _, _, _, _, _, _, size, sized, _, _, footer, read, _⟩ := parsed
  have reach := fetch_in_bounds sized (show 3 < 4 by omega)
  rw [fetch_eq_some (by omega) (by omega)] at sized
  have same : word32 size = payloadLenOf data := by
    rw [← Option.some.inj sized, payloadLenOf]
  have last := fetch_in_bounds read (show 3 < 4 by omega)
  have bound := (payloadLenOf data).toNat_lt
  rw [same, Nat.mod_eq_of_lt (by omega)] at last
  omega

theorem accepted_intact {data : Bytes} {r : WalEntryCheckResult} {n : UInt32}
    (fits : 26 + n.toNat < 2 ^ 32) (long : 26 + n.toNat ≤ data.length)
    (size : payloadLenOf data = n) (valid : validate .takesEffect data = some r)
    (ok : r.status = .ok) :
    magicOf data = walMagic ∧ HeaderCrcMatches data ∧ FooterCrcMatches data (22 + n.toNat) := by
  refine ⟨?_, ?_, ?_⟩
  · by_contra wrong
    rw [validate_long .takesEffect (by omega), if_pos wrong, Option.some_inj] at valid
    simp [← valid] at ok
  · by_contra wrong
    obtain ⟨r', rejected, bad⟩ := rejected_of_header (show 26 ≤ data.length by omega) wrong
    rw [rejected, Option.some_inj] at valid
    exact bad (valid ▸ ok)
  · by_contra wrong
    obtain ⟨r', rejected, bad⟩ := rejected_of_footer fits long size wrong
    rw [rejected, Option.some_inj] at valid
    exact bad (valid ▸ ok)

theorem take_prologue {data : Bytes} (long : 14 ≤ data.length) (magic : magicOf data = walMagic)
    (version : word16 ((data.drop 4).take 2) = walVersion) :
    data.take 14 = prologue (seqIdOf data) := by
  rw [prologue, ← magic, ← version, magicOf, seqIdOf, store_word32 (field_length (by omega)),
    store_word16 (field_length (by omega)), store_word64 (field_length (by omega)), List.drop_zero,
    ← List.take_add, ← List.take_add]

theorem take_header {data : Bytes} (long : 22 ≤ data.length) (magic : magicOf data = walMagic)
    (version : word16 ((data.drop 4).take 2) = walVersion) (intact : HeaderCrcMatches data) :
    data.take 22 = header (seqIdOf data) (payloadLenOf data) := by
  rw [header, ← take_prologue (by omega) magic version, intact, headerCrcOf, payloadLenOf,
    store_word32 (field_length (by omega)), store_word32 (field_length (by omega)), ← List.take_add,
    ← List.take_add]

theorem take_record {data : Bytes} {p : Payload} (long : 26 + p.len.toNat ≤ data.length)
    (front : data.take 22 = header (seqIdOf data) p.len)
    (bytes : (data.drop 22).take p.len.toNat = p.bytes)
    (intact : FooterCrcMatches data (22 + p.len.toNat)) :
    data.take (26 + p.len.toNat) = record (seqIdOf data) p := by
  have whole : data.take (22 + p.len.toNat) = body (seqIdOf data) p := by
    rw [List.take_add, front, bytes, body]
  rw [FooterCrcMatches, whole] at intact
  rw [record, intact, store_word32 (field_length (by omega)), ← whole, ← List.take_add]
  congr 1
  omega

theorem frame_take (seqId : UInt64) (p : Payload) :
    (frame seqId p).take (26 + p.len.toNat) = record seqId p := by
  rw [frame, List.take_left' (record_length seqId p)]

/-- The version is the one field of an accepted record that Build need not have written. -/
theorem accepted_record_iff_version {init : TableStore} {data : Bytes} {r : WalEntryCheckResult}
    {e : WalEntry} (short : data.length < 2 ^ 32 - 26) (valid : validate init data = some r)
    (ok : r.status = .ok) (parsed : parse data = some e) :
    (∃ built, build init e.seqId (some e.payload) (UInt32.ofNat e.payload.length) = some built ∧
        data.take (26 + e.payload.length) = built.take (26 + e.payload.length)) ↔
      e.header.version = walVersion := by
  -- only a filled table accepts anything
  have filled : init = .takesEffect := by
    cases init with
    | takesEffect => rfl
    | faults => exact absurd ok (validate_faults valid)
  subst filled
  have inside := parse_inside parsed
  obtain ⟨magic, header, footer⟩ := accepted_intact (by omega) inside rfl valid ok
  rw [parse_eq inside, Option.some_inj] at parsed
  subst parsed
  have count : ((data.drop 22).take (payloadLenOf data).toNat).length = (payloadLenOf data).toNat :=
    field_length (by omega)
  let p := Payload.ofBytes ((data.drop 22).take (payloadLenOf data).toNat) (by omega)
  have size : p.len = payloadLenOf data := by
    change UInt32.ofNat _ = _
    rw [count, UInt32.ofNat_toNat]
  have bytes : p.bytes = (data.drop 22).take (payloadLenOf data).toNat := by
    change List.take p.len.toNat ((data.drop 22).take (payloadLenOf data).toNat) = _
    rw [size, List.take_take, Nat.min_self]
  have built := build_eq (seqIdOf data) p
  have taken := frame_take (seqIdOf data) p
  rw [size] at taken
  change (∃ built, build .takesEffect (seqIdOf data) p.data p.len = some built ∧ _) ↔ _
  rw [built, count]
  constructor
  · rintro ⟨_, same, equal⟩
    rw [← Option.some.inj same, taken] at equal
    obtain ⟨_, version, _⟩ :=
      record_fields (seqIdOf data) p (data.drop (26 + (payloadLenOf data).toNat))
    rw [← equal, List.take_append_drop] at version
    exact version
  · intro version
    refine ⟨_, rfl, ?_⟩
    rw [taken, ← size]
    apply take_record
    · rw [size]
      exact inside
    · rw [size]
      exact take_header (by omega) magic version header
    · rw [size, bytes]
    · rw [size]
      exact footer

def threeBytes : Payload := Payload.ofBytes [1, 2, 3] (by decide)

theorem accepted_current_record :
    ∃ built, build .takesEffect 7 (some [1, 2, 3]) 3 = some built ∧
      (record 7 threeBytes ++ [1, 2]).take 29 = built.take 29 :=
  (accepted_record_iff_version (by rw [List.length_append, record_length]; decide)
    (validate_record 7 threeBytes [1, 2]) rfl (parse_record 7 threeBytes [1, 2])).mpr rfl

def emptyPayload : Payload := Payload.ofBytes [] (by decide)

def staleRecord : Bytes :=
  [0x57, 0x58, 0x44, 0x48, 2, 0, 7, 0, 0, 0, 0, 0, 0, 0, 0x77, 0xBA, 0x36, 0x64, 0, 0, 0, 0,
    0xFC, 0x72, 0xF5, 0x65]

theorem stale_record_accepted :
    staleRecord.length < 2 ^ 32 - 26 ∧ validate .takesEffect staleRecord = some ⟨.ok, 7, ""⟩ ∧
      (∃ e, parse staleRecord = some e ∧ e.seqId = 7 ∧ e.payload = [] ∧ e.header.version = 2) ∧
      ¬ ∃ built, build .takesEffect 7 (some []) 0 = some built ∧
        staleRecord.take 26 = built.take 26 := by
  refine ⟨by decide, by decide +kernel, ⟨_, rfl, by decide, rfl, by decide⟩, ?_⟩
  rintro ⟨built, made, same⟩
  have frame_built : build .takesEffect 7 (some []) 0 = some (frame 7 emptyPayload) :=
    build_eq 7 emptyPayload
  rw [frame_built] at made
  have taken : (frame 7 emptyPayload).take 26 = record 7 emptyPayload := frame_take 7 emptyPayload
  rw [← Option.some.inj made, taken] at same
  obtain ⟨_, version, _⟩ := record_fields 7 emptyPayload []
  rw [List.append_nil, ← same] at version
  exact absurd version (by decide)

end RecordIntegrity
