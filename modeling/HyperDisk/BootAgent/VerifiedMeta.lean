import HyperDisk.BootAgent.BootMeta
import HyperDisk.Common.FrameRoundTrip
import HyperDisk.Foundations.StepRuns

/- Whether a cache that calls itself valid holds a verified record, and what a failed download
   leaves of it. LoadFromServer copies a record into the cache before it looks at the magic and
   the checksum. -/
namespace VerifiedMeta
open LittleEndian PackedFields FileImages StepRuns FrameCodec FrameRoundTrip BootMeta

def Verified (m : Meta) : Prop := m.magic = bootMetaMagic ∧ m.crc32c = computeCrc m

def checkedBytes (m : Meta) : Bytes :=
  u32.encode m.magic ++ u16.encode m.version ++ u64.encode m.imageId ++ u64.encode m.diskSize ++
    u32.encode m.blockSize ++ u32.encode m.blockCount ++ u8.encode m.layerId ++
    u8.encode m.writePolicy ++ (chars 2).encode m.reserved1 ++ (chars 64).encode m.primaryServer ++
    u16.encode m.primaryPort ++ (chars 64).encode m.secondaryServer ++ u16.encode m.secondaryPort ++
    (chars 128).encode m.overlayPath ++ u64.encode m.blockMapOffset ++ u32.encode m.blockMapCount

theorem meta_encode (m : Meta) : metaLayout.encode m = checkedBytes m ++ u32.encode m.crc32c := by
  unfold checkedBytes
  simp only [List.append_assoc]
  rfl

theorem checkedBytes_length (m : Meta) : (checkedBytes m).length = 306 := by
  have whole := metaLayout.encode_length m
  rw [meta_encode, List.length_append, u32.encode_length] at whole
  have size : metaLayout.size = 310 := rfl
  have word : u32.size = 4 := rfl
  omega

theorem computeCrc_eq (m : Meta) : computeCrc m = crc32c (checkedBytes m) 306 := by
  have front : (metaLayout.encode m).take 306 = checkedBytes m := by
    rw [meta_encode, List.take_left' (checkedBytes_length m)]
  unfold computeCrc crc32c
  rw [show crcOffset = 306 from rfl, front,
    List.take_of_length_le (Nat.le_of_eq (checkedBytes_length m))]

theorem stamped_verified (m : Meta) : Verified (stamped m) := by
  constructor
  · rfl
  · rw [computeCrc_eq]
    exact computeCrc_eq _

theorem validateCrc_iff (m : Meta) : validateCrc m = true ↔ m.crc32c = computeCrc m := by
  unfold validateCrc
  exact beq_iff_eq

theorem load_verified (disk : Disk) (path : Path)
    (valid : (BootMeta.load disk path).1.valid = true) :
    Verified (BootMeta.load disk path).1.md := by
  unfold BootMeta.load at valid ⊢
  cases found : disk path with
  | none =>
    rw [found] at valid
    cases valid
  | some file =>
    simp only [found] at valid ⊢
    split at valid
    · cases valid
    · rename_i accepted
      split at valid
      · cases valid
      · rename_i checked
        rw [if_neg accepted, if_neg checked]
        rw [not_or, not_not] at accepted
        exact ⟨accepted.2, (validateCrc_iff _).mp (not_not.mp checked)⟩

def adopted (md : Meta) : BootMetaCache × Bool :=
  (⟨md, md.magic == bootMetaMagic && validateCrc md⟩, md.magic == bootMetaMagic && validateCrc md)

theorem adopted_iff (md : Meta) : (adopted md).2 = true ↔ Verified md := by
  change (md.magic == bootMetaMagic && validateCrc md) = true ↔ _
  rw [Bool.and_eq_true, beq_iff_eq, validateCrc_iff]
  rfl

/-- The response is handled inside the buffer. The status is read before the length is checked,
    but then the length decides. -/
theorem handleResponse_eq (s : BootMetaCache) (opcode : UInt8) {payload : Bytes}
    (size : payload.length = 65536) (payloadLen : UInt32) :
    handleResponse s opcode payload payloadLen =
      some (if opcode = blockReadRsp ∧ (readRspLayout.decode (payload.take 24)).status = 0 ∧
          334 ≤ payloadLen.toNat then adopted (metaLayout.decode ((payload.drop 24).take 310))
        else (s, false)) := by
  have header : slice payload 0 24 = some (payload.take 24) := slice_eq_some (by rw [size]; decide)
  have body : slice payload 24 310 = some ((payload.drop 24).take 310) :=
    slice_eq_some (by rw [size]; decide)
  have sizes : readRspLayout.size = 24 ∧ metaLayout.size = 310 := ⟨rfl, rfl⟩
  have positive : 0 < payloadLen ↔ 0 < payloadLen.toNat := UInt32.lt_iff_toNat_lt
  unfold handleResponse
  simp only [sizes.1, sizes.2, header, body, Option.bind_eq_bind, Option.bind_some, positive]
  split
  · rename_i response
    split
    · rename_i accepted
      split
      · rename_i whole
        rw [if_pos ⟨response.1, accepted.1, by omega⟩]
        rfl
      · rename_i short
        rw [if_neg fun wanted => short (by omega)]
    · rename_i refused
      rw [if_neg fun wanted => refused ⟨wanted.2.1, by omega⟩]
  · rename_i other
    rw [if_neg fun wanted => other ⟨wanted.1, by omega⟩]

theorem request_sent (m : Meta) (sendBuf : Chars 65) :
    ∃ request, requestFrame m sendBuf.val = some request ∧ request.ok = true := by
  have readable := readReqLayout.encode_length ⟨m.imageId, 0, 1, m.layerId⟩
  refine ⟨_, encodeFrame_eq _ ?_ ?_ ?_, rfl⟩
  · rw [sendBuf.property]
    decide
  · decide
  · rw [readable]
    decide

def Answered (x : Exchange) : Prop :=
  x.wsaStarts = true ∧ x.socketOpens = true ∧ x.connects = true ∧ x.sends = true ∧
    Passes x.received (UInt32.ofNat x.received.length) 65536

def rspHeader (x : Exchange) : FrameHeader := headerLayout.decode (x.received.take 40)

theorem received_count (x : Exchange) :
    (UInt32.ofNat x.received.length).toNat = x.received.length := by
  have fits := x.receivedFits
  exact UInt32.toNat_ofNat_of_lt' (show x.received.length < 2 ^ 32 by omega)

theorem received_stored (x : Exchange) :
    overwrite x.recvBuf.val 0 x.received =
      some (x.received ++ x.recvBuf.val.drop x.received.length) := by
  rw [overwrite_eq_some (by rw [x.recvBuf.property, Nat.zero_add]; exact x.receivedFits),
    Nat.zero_add]
  rfl

theorem passes_append {received : Bytes} {bufLen maxLen : UInt32} (rest : Bytes)
    (all : bufLen.toNat = received.length) :
    Passes (received ++ rest) bufLen maxLen ↔ Passes received bufLen maxLen := by
  unfold Passes
  by_cases long : 40 ≤ bufLen.toNat
  · rw [List.take_append_of_le_length (by omega)]
  · exact iff_of_false (fun passes => long passes.1) (fun passes => long passes.1)

theorem answered_lengths {x : Exchange} (answered : Answered x) :
    40 + (rspHeader x).payloadLen.toNat ≤ x.received.length ∧
      (rspHeader x).payloadLen.toNat ≤ 65536 := by
  obtain ⟨_, _, _, _, _, _, whole, allowed⟩ := answered
  have fits : (rspHeader x).payloadLen.toNat ≤ 65536 := UInt32.le_iff_toNat_le.mp allowed
  have total := totalLen_of_fits (rspHeader x).payloadLen (by omega)
  rw [received_count] at whole
  exact ⟨total ▸ whole, fits⟩

def rspPayload (x : Exchange) : Bytes :=
  (x.received.drop 40).take (rspHeader x).payloadLen.toNat ++
    x.payload.val.drop (rspHeader x).payloadLen.toNat

theorem rspPayload_length {x : Exchange} (answered : Answered x) :
    (rspPayload x).length = 65536 := by
  obtain ⟨whole, fits⟩ := answered_lengths answered
  have buffer := x.payload.property
  rw [rspPayload, List.length_append, List.length_take, List.length_drop, List.length_drop]
  omega

theorem frame_decoded {x : Exchange} (answered : Answered x) :
    decodeFrame (x.received ++ x.recvBuf.val.drop x.received.length)
        (UInt32.ofNat x.received.length) zeroHeader (some x.payload.val) 65536 0 =
      some ⟨true, rspHeader x, some (rspPayload x), (rspHeader x).payloadLen⟩ := by
  obtain ⟨whole, fits⟩ := answered_lengths answered
  have buffer := x.payload.property
  have count := received_count x
  have long : 40 ≤ x.received.length := by omega
  have front : (x.received ++ x.recvBuf.val.drop x.received.length).take 40 = x.received.take 40 :=
    List.take_append_of_le_length long
  have passes := (passes_append (x.recvBuf.val.drop x.received.length) count).mpr
    answered.2.2.2.2
  have decoded := decodeFrame_passed (by rw [count, List.length_append]; omega) passes zeroHeader
    (some x.payload.val) 0
  rw [front] at decoded
  rw [decoded, copyOut_eq (by rw [List.length_append]; exact Nat.le_add_right_of_le whole)
    (by rw [buffer]; exact fits), List.drop_append_of_le_length long,
    List.take_append_of_le_length (by rw [List.length_drop]; exact Nat.le_sub_of_add_le' whole)]
  rfl

theorem loadFromServer_answered (s : BootMetaCache) {x : Exchange} (answered : Answered x) :
    loadFromServer s x =
      handleResponse s (rspHeader x).opcode (rspPayload x) (rspHeader x).payloadLen := by
  obtain ⟨request, sent, ok⟩ := request_sent s.md x.sendBuf
  have some' : x.received ≠ [] := by
    intro empty
    have long := answered.2.2.2.2.1
    rw [received_count, empty] at long
    exact absurd long (by decide)
  have decoded := frame_decoded answered
  obtain ⟨starts, opens, connects, sends, _⟩ := answered
  simp only [loadFromServer, starts, opens, connects, sends, sent, ok, some', received_stored,
    decoded, Option.bind_eq_bind, Option.bind_some, not_true_eq_false, if_false]

theorem loadFromServer_unanswered (s : BootMetaCache) {x : Exchange} (silent : ¬ Answered x) :
    loadFromServer s x = some (s, false) := by
  obtain ⟨request, sent, ok⟩ := request_sent s.md x.sendBuf
  have count := received_count x
  have owned : (UInt32.ofNat x.received.length).toNat ≤
      (x.received ++ x.recvBuf.val.drop x.received.length).length := by
    rw [count, List.length_append]
    omega
  unfold loadFromServer
  simp only [sent, ok, received_stored, Option.bind_eq_bind, Option.bind_some,
    not_true_eq_false, if_false]
  split
  · rfl
  · rename_i starts
    split
    · rfl
    · rename_i opens
      split
      · rfl
      · rename_i connects
        split
        · rfl
        · rename_i sends
          split
          · rfl
          · have refused : ¬ Passes (x.received ++ x.recvBuf.val.drop x.received.length)
                (UInt32.ofNat x.received.length) 65536 := by
              rw [passes_append _ count]
              intro passes
              exact silent ⟨not_not.mp starts, not_not.mp opens, not_not.mp connects,
                not_not.mp sends, passes⟩
            obtain ⟨r, decoded, no, _⟩ := decodeFrame_refused owned refused zeroHeader
              (some x.payload.val) 0
            rw [decoded, Option.bind_some, no]
            rfl

structure Delivers (x : Exchange) (md : Meta) : Prop where
  answered : Answered x
  response : (rspHeader x).opcode = blockReadRsp
  status : (readRspLayout.decode ((x.received.drop 40).take 24)).status = 0
  whole : 334 ≤ (rspHeader x).payloadLen.toNat
  record : md = metaLayout.decode ((x.received.drop 64).take 310)

theorem rspPayload_field {x : Exchange} (off width : Nat)
    (inside : off + width ≤ (rspHeader x).payloadLen.toNat) (answered : Answered x) :
    ((rspPayload x).drop off).take width = (x.received.drop (40 + off)).take width := by
  obtain ⟨whole, _⟩ := answered_lengths answered
  have size : ((x.received.drop 40).take (rspHeader x).payloadLen.toNat).length =
      (rspHeader x).payloadLen.toNat := by
    rw [List.length_take, List.length_drop]
    omega
  rw [rspPayload, List.drop_append_of_le_length (by omega),
    List.take_append_of_le_length (by rw [List.length_drop]; omega), List.drop_take, List.take_take,
    List.drop_drop, Nat.min_eq_left (by omega)]

theorem loadFromServer_cases (s : BootMetaCache) (x : Exchange) :
    (∃ md, Delivers x md ∧ loadFromServer s x = some (adopted md)) ∨
      (¬ ∃ md, Delivers x md) ∧ loadFromServer s x = some (s, false) := by
  by_cases answered : Answered x
  · rw [loadFromServer_answered s answered, handleResponse_eq s _ (rspPayload_length answered)]
    by_cases enough : 334 ≤ (rspHeader x).payloadLen.toNat
    · have status := rspPayload_field 0 24 (by omega) answered
      rw [List.drop_zero] at status
      rw [status, rspPayload_field 24 310 (by omega) answered]
      split
      · rename_i wanted
        exact Or.inl ⟨_, ⟨answered, wanted.1, wanted.2.1, enough, rfl⟩, rfl⟩
      · rename_i other
        refine Or.inr ⟨?_, rfl⟩
        rintro ⟨md, delivers⟩
        exact other ⟨delivers.response, delivers.status, enough⟩
    · refine Or.inr ⟨?_, ?_⟩
      · rintro ⟨md, delivers⟩
        exact enough delivers.whole
      · rw [if_neg fun wanted => enough wanted.2.2]
  · refine Or.inr ⟨?_, loadFromServer_unanswered s answered⟩
    rintro ⟨md, delivers⟩
    exact answered delivers.answered

def ValidIsVerified (o : Option BootMetaCache) : Prop :=
  ∃ s, o = some s ∧ (s.valid = true → Verified s.md)

/-- A call of SetMeta passes a record that has its own checksum, unless its magic is wrong. -/
def PassesChecked : Call → Prop
  | .setMeta m => m.magic = bootMetaMagic → m.crc32c = computeCrc m
  | _ => True

theorem step_verified_iff {o : Option BootMetaCache} (h : ValidIsVerified o) (call : Call) :
    ValidIsVerified (step o call) ↔ PassesChecked call := by
  obtain ⟨s, rfl, verified⟩ := h
  cases call with
  | load disk path => exact ⟨fun _ => trivial, fun _ => ⟨_, rfl, load_verified disk path⟩⟩
  | save disk path opens outcome good =>
    have stays : (save s disk path opens outcome good).1.md = stamped s.md := by
      unfold save
      split <;> rfl
    refine ⟨fun _ => trivial, fun _ => ⟨_, rfl, fun _ => ?_⟩⟩
    rw [stays]
    exact stamped_verified s.md
  | loadFromServer x =>
    refine ⟨fun _ => trivial, fun _ => ?_⟩
    change ValidIsVerified ((loadFromServer s x).map Prod.fst)
    rcases loadFromServer_cases s x with ⟨md, _, done⟩ | ⟨_, done⟩
    · rw [done]
      exact ⟨_, rfl, (adopted_iff md).mp⟩
    · rw [done]
      exact ⟨s, rfl, verified⟩
  | setMeta m =>
    constructor
    · rintro ⟨t, same, verified⟩ magic
      cases same
      exact (verified (beq_iff_eq.mpr magic)).2
    · intro checked
      refine ⟨_, rfl, fun valid => ?_⟩
      have magic : m.magic = bootMetaMagic := beq_iff_eq.mp valid
      exact ⟨magic, checked magic⟩

/-- Every valid state of a run is verified exactly when every SetMeta of the run passes a checked
    record. -/
theorem valid_is_verified_iff (calls : List Call) :
    Always step ValidIsVerified (some newCache) calls ↔ ∀ call ∈ calls, PassesChecked call := by
  have start : ValidIsVerified (some newCache) := ⟨newCache, rfl, fun valid => by cases valid⟩
  rw [always_iff_meets (I := fun _ => True) trivial start (fun _ _ _ => trivial)
    (fun o call _ h => step_verified_iff h call), meets_iff_actions]

theorem unchecked_defaults_valid :
    ∃ s, run step (some newCache) [.setMeta defaults] = some s ∧ s.valid = true ∧
      ¬ Verified s.md := by
  have differs : defaults.crc32c ≠ computeCrc defaults := by decide +kernel
  refine ⟨setMeta defaults, rfl, rfl, ?_⟩
  intro verified
  exact differs verified.2

/-- A failed download leaves the cache as it was exactly when no record was delivered that does not
    pass the checks, unless the cache held the very same record as an invalid one. -/
theorem failed_download_iff (s : BootMetaCache) (x : Exchange) :
    ∃ t returned, loadFromServer s x = some (t, returned) ∧
      ((returned = false → t.md = s.md ∧ t.valid = s.valid) ↔
        ∀ md, Delivers x md → Verified md ∨ s = ⟨md, false⟩) := by
  rcases loadFromServer_cases s x with ⟨md, delivers, done⟩ | ⟨nothing, done⟩
  · refine ⟨(adopted md).1, (adopted md).2, done, ?_⟩
    by_cases verified : Verified md
    · apply iff_of_true
      · intro failed
        rw [(adopted_iff md).mpr verified] at failed
        cases failed
      · intro md' delivers'
        rw [delivers'.record, ← delivers.record]
        exact Or.inl verified
    · have failed : (adopted md).2 = false := by
        rw [← Bool.not_eq_true]
        exact mt (adopted_iff md).mp verified
      constructor
      · intro kept md' delivers'
        obtain ⟨same, valid⟩ := kept failed
        rw [delivers'.record, ← delivers.record]
        right
        rw [show s = ⟨s.md, s.valid⟩ from rfl, ← same, ← valid]
        exact congrArg (BootMetaCache.mk md) failed
      · intro allowed _
        have same := (allowed md delivers).resolve_left verified
        rw [same]
        exact ⟨rfl, failed⟩
  · refine ⟨s, false, done, iff_of_true (fun _ => ⟨rfl, rfl⟩) ?_⟩
    intro md delivers
    exact absurd ⟨md, delivers⟩ nothing

def blankResponse : Bytes :=
  headerLayout.encode (encodeHeader zeroHeader blockReadRsp 0 1 334 0 0 1 0) ++ List.replicate 334 0

theorem blankResponse_fits : blankResponse.length ≤ 65536 := by
  rw [blankResponse, List.length_append, header_length, List.length_replicate]
  decide

def blankExchange : Exchange :=
  ⟨true, true, true, true, blankResponse, blankResponse_fits, zeroChars 65, zeroChars 65536,
    zeroChars 65536⟩

theorem blank_delivered : Delivers blankExchange zeroMeta where
  answered := by
    unfold Answered Passes
    decide +kernel
  response := by decide +kernel
  status := by decide +kernel
  whole := by decide +kernel
  record := by decide +kernel

theorem blank_record_replaces :
    loadFromServer ⟨stamped defaults, true⟩ blankExchange = some (⟨zeroMeta, false⟩, false) ∧
      zeroMeta ≠ stamped defaults := by
  have rejected : adopted zeroMeta = (⟨zeroMeta, false⟩, false) := by decide +kernel
  constructor
  · rcases loadFromServer_cases ⟨stamped defaults, true⟩
      blankExchange with ⟨md, delivers, done⟩ | ⟨nothing, _⟩
    · rw [done, delivers.record, ← blank_delivered.record, rejected]
    · exact absurd ⟨zeroMeta, blank_delivered⟩ nothing
  · intro same
    have magics : zeroMeta.magic = (stamped defaults).magic := congrArg Meta.magic same
    exact absurd magics (by decide)

end VerifiedMeta
