import HyperDisk.BootDiag.DiagChecks
import HyperDisk.Common.Checksums
import HyperDisk.Common.FrameRoundTrip

/- The fourth check of bootdiag (bootdiag_checks.c): three requests to the image server and any
   answer to each. The check is that of the Windows build; the other one skips it. `none` is a
   write outside the request frame. -/
namespace BlockProbe
open LittleEndian DecimalText DiagChecks FrameCodec FrameRoundTrip

/-- What the network does. A socket is an unsigned handle; for each request, what recv returns and
    the milliseconds that passed. -/
structure Network where
  startup : Bool
  sock : UInt64
  connects : Bool
  recv : Nat → Int32 × UInt64

def newFrame : Option Bytes := do
  let frame := List.replicate 64 0
  let frame ← overwrite frame 0 (store 4 0x48444B47)
  let frame ← overwrite frame 4 (store 2 1)
  let frame ← overwrite frame 6 [1]
  let frame ← overwrite frame 7 [0]
  let frame ← overwrite frame 8 (store 4 1)
  overwrite frame 12 (store 4 24)

def requestFrame (frame : Bytes) (lba : UInt64) : Option Bytes := do
  let frame ← overwrite frame 16 (store 8 lba.toNat)
  let frame ← overwrite frame 24 (store 4 1)
  overwrite frame 60 (store 4 (Checksums.bootdiagComputeCrc32c frame 60).toNat)

structure Probe where
  sent : List Bytes
  verified : UInt32
  totalLatencyMs : UInt32
  deriving DecidableEq, Repr

def probeLoop (recv : Nat → Int32 × UInt64) : List UInt64 → Nat → Bytes → Probe → Option Probe
  | [], _, _, p => some p
  | lba :: lbas, n, frame, p => do
    let frame ← requestFrame frame lba
    let p := { p with sent := p.sent ++ [frame] }
    let p := if 0 < (recv n).1 then
        { p with
          verified := p.verified + 1
          totalLatencyMs := p.totalLatencyMs + (recv n).2.toUInt32 }
      else p
    probeLoop recv lbas (n + 1) frame p

def testLbas : List UInt64 := [0, 1, 2048]

def probe (net : Network) : Option Probe := do
  let frame ← newFrame
  probeLoop net.recv testLbas 0 frame ⟨[], 0, 0⟩

def judge (r : BootdiagResult) (p : Probe) : UInt32 × BootdiagResult :=
  if p.verified < 3 then failWith r 4004 (text "Only " ++ decimal p.verified.toNat ++
    text "/3 blocks verified")
  else
    let avgLatency := if 0 < p.verified then p.totalLatencyMs / p.verified else 0
    let detail := decimal p.verified.toNat ++ text " blocks verified, avg latency=" ++
      decimal avgLatency.toNat ++ text "ms"
    passWith r (if 1000 < avgLatency then detail ++ text " (WARN: high latency)" else detail)

def bootdiagV4BlockRead (serverAddr : Bytes) (serverPort : UInt16) (net : Network)
    (r : BootdiagResult) : Option ((UInt32 × BootdiagResult) × List Bytes) :=
  if ¬ net.startup then some (failWith r 4001 (text "WSAStartup failed"), [])
  else if net.sock < 0 then some (failWith r 4002 (text "Socket creation failed"), [])
  else if ¬ net.connects then
    some (failWith r 4003 (text "ImageServer " ++ serverAddr ++ text ":" ++
      decimal serverPort.toNat ++
      text " unreachable"), [])
  else do
    let p ← probe net
    some (judge r p, p.sent)

/-- The header that DecodeFrame finds in the request for a block: the address is in the place of
    the image, the count in that of the address, and the count is zero. -/
def asked (lba : UInt64) : FrameHeader :=
  ⟨frameMagic, frameVersion, 1, 0, 1, 24, lba, 1, 0, 0, 0, 0, 0⟩

def preamble : Bytes := store 4 0x48444B47 ++ store 2 1 ++ [1] ++ [0] ++ store 4 1 ++ store 4 24

theorem newFrame_eq : newFrame = some (preamble ++ List.replicate 48 0) := by decide

def Framed (frame : Bytes) : Prop :=
  ∃ address count crc : Bytes, address.length = 8 ∧ count.length = 4 ∧ crc.length = 4 ∧
    frame = preamble ++ (address ++ (count ++ (List.replicate 32 0 ++ crc)))

def Asks (lba : UInt64) (frame : Bytes) : Prop :=
  ∃ front : Bytes, front = headerLayout.encode (asked lba) ++ List.replicate 20 0 ∧
    frame = front ++ store 4 (Checksums.bootdiagComputeCrc32c front 60).toNat

theorem asked_bytes (lba : UInt64) :
    headerLayout.encode (asked lba) = preamble ++
      (store 8 lba.toNat ++ (store 4 1 ++ List.replicate 12 0)) := by
  have front : store 4 frameMagic.toNat ++
      (store 2 frameVersion.toNat ++ (store 1 (1 : UInt8).toNat ++
      (store 1 (0 : UInt8).toNat ++ (store 4 (1 : UInt32).toNat ++ store 4 (24 : UInt32).toNat)))) =
        preamble := by
    decide
  have back : store 8 (1 : UInt64).toNat ++
      (store 4 (0 : UInt32).toNat ++ (store 1 (0 : UInt8).toNat ++
      (store 1 (0 : UInt8).toNat ++ (store 1 (0 : UInt8).toNat ++ store 1 (0 : UInt8).toNat)))) =
      store 4 1 ++ List.replicate 12 0 := by
    decide
  rw [← front, ← back]
  simp only [List.append_assoc]
  rfl

theorem crc_front {front : Bytes} (sixty : front.length = 60) (rest : Bytes) :
    Checksums.bootdiagComputeCrc32c (front ++ rest) 60 =
      Checksums.bootdiagComputeCrc32c front 60 := by
  rw [Checksums.bootdiagComputeCrc32c, Checksums.bootdiagComputeCrc32c, show (60 : UInt32).toNat =
    60 from rfl, List.take_left' sixty, List.take_of_length_le (by omega)]

theorem requestFrame_asks {frame : Bytes} (framed : Framed frame) (lba : UInt64) :
    ∃ next, requestFrame frame lba = some next ∧ Asks lba next ∧ Framed next := by
  obtain ⟨address, count, crc, eight, four, four', rfl⟩ := framed
  have start : preamble.length = 16 := by decide
  have zeros : List.replicate 32 (0 : UInt8) =
      List.replicate 12 0 ++ List.replicate 20 0 := by decide
  have first : overwrite (preamble ++ (address ++ (count ++ (List.replicate 32 0 ++ crc)))) 16
      (store 8 lba.toNat) =
      some (preamble ++ (store 8 lba.toNat ++ (count ++ (List.replicate 32 0 ++ crc)))) :=
    overwrite_middle _ _ _ start (by rw [store_length, eight])
  have second : overwrite (preamble ++
      (store 8 lba.toNat ++ (count ++ (List.replicate 32 0 ++ crc)))) 24 (store 4 1) =
      some (headerLayout.encode (asked lba) ++ List.replicate 20 0 ++ crc) := by
    rw [asked_bytes, ← List.append_assoc preamble,
      overwrite_middle (preamble ++ store 8 lba.toNat) count
      (List.replicate 32 0 ++ crc) (by rw [List.length_append, start, store_length])
      (by rw [store_length, four]), zeros]
    simp only [List.append_assoc]
  have sixty : (headerLayout.encode (asked lba) ++ List.replicate 20 0).length = 60 := by
    rw [List.length_append, header_length, List.length_replicate]
  generalize front : headerLayout.encode (asked lba) ++ List.replicate 20 0 = bytes at second sixty
  have third : ∀ crc' : Bytes, crc'.length = 4 →
      overwrite (bytes ++ crc) 60 crc' = some (bytes ++ crc') := by
    intro crc' length
    have placed := overwrite_middle bytes crc [] sixty (length.trans four'.symm)
    rwa [List.append_nil, List.append_nil] at placed
  refine ⟨_, ?_, ⟨bytes, front.symm, rfl⟩, ?_⟩
  · simp only [requestFrame, first, second, Option.bind_eq_bind, Option.bind_some]
    rw [crc_front sixty, third _ (store_length 4 _)]
  · refine ⟨store 8 lba.toNat, store 4 1, store 4 (Checksums.bootdiagComputeCrc32c bytes 60).toNat,
      store_length 8 _, store_length 4 _, store_length 4 _, ?_⟩
    rw [← front, asked_bytes, zeros]
    simp only [List.append_assoc]

theorem probeLoop_asks (recv : Nat → Int32 × UInt64) (lbas : List UInt64) (n : Nat) {frame : Bytes}
    (p : Probe) (framed : Framed frame) :
    ∃ p' frames, probeLoop recv lbas n frame p = some p' ∧ p'.sent = p.sent ++ frames ∧
      List.Forall₂ Asks lbas frames ∧
      p'.verified = p.verified + UInt32.ofNat ((List.range' n lbas.length).countP fun k =>
        decide (0 < (recv k).1)) := by
  induction lbas generalizing n frame p with
  | nil => exact ⟨p, [], rfl, (List.append_nil _).symm, .nil, by simp⟩
  | cons lba lbas ih =>
    obtain ⟨next, made, asks, again⟩ := requestFrame_asks framed lba
    rw [probeLoop, made, Option.bind_eq_bind, Option.bind_some]
    split
    · rename_i answered
      obtain ⟨p', frames, ran, sent, all, verified⟩ := ih (n + 1) _ again
      refine ⟨p', next :: frames, ran, ?_, .cons asks all, ?_⟩
      · rw [sent]
        simp
      · rw [verified, List.length_cons, List.range'_succ,
          List.countP_cons_of_pos (by simpa using answered), UInt32.ofNat_add,
          UInt32.add_comm _ (UInt32.ofNat 1), ← UInt32.add_assoc]
        rfl
    · rename_i silent
      obtain ⟨p', frames, ran, sent, all, verified⟩ := ih (n + 1) _ again
      refine ⟨p', next :: frames, ran, ?_, .cons asks all, ?_⟩
      · rw [sent]
        simp
      · rw [verified, List.length_cons, List.range'_succ,
          List.countP_cons_of_neg (by simpa using silent)]

theorem asks_decoded {lba : UInt64} {frame : Bytes} (asks : Asks lba frame) (old : FrameHeader)
    (dst : Bytes) (len : UInt32) (room : dst.length = 24) :
    decodeFrame frame 64 old (some dst) 24 len =
      some ⟨true, asked lba, some (frame.drop 40), 24⟩ := by
  obtain ⟨front, rfl, rfl⟩ := asks
  rw [List.append_assoc]
  generalize back : List.replicate 20 0 ++ store 4 _ = rest
  have behind : rest.length = 24 := by
    rw [← back, List.length_append, List.length_replicate, store_length]
  have header := decode_encoded (asked lba) rest
  have whole : (headerLayout.encode (asked lba) ++ rest).length = 64 := by
    rw [List.length_append, header_length, behind]
  have stated : (asked lba).payloadLen = 24 := rfl
  have owned : (64 : UInt32).toNat ≤ (headerLayout.encode (asked lba) ++ rest).length := by
    rw [whole]
    decide
  have fits : (24 : UInt32).toNat ≤ dst.length := by
    rw [room]
    decide
  rw [decodeFrame_eq old len owned fits (by rw [header]; rfl) (by rw [header, stated]; decide)
    (by rw [header, stated]; decide), header, stated, List.drop_left' (header_length _),
    show (24 : UInt32).toNat = 24 from rfl, List.take_of_length_le (by omega),
      List.drop_of_length_le (by omega),
    List.append_nil]

theorem judge_passes_iff (r : BootdiagResult) (p : Probe) :
    (judge r p).1 = resultPass ↔ ¬ p.verified < 3 := by
  unfold judge
  split
  · simp [*, failWith, resultFail, resultPass]
  · simp [*, passWith]

theorem all_answered_iff (recv : Nat → Int32 × UInt64) :
    ¬ (0 + UInt32.ofNat ((List.range' 0 testLbas.length).countP fun k =>
        decide (0 < (recv k).1))) < 3 ↔
      ∀ n < 3, 0 < (recv n).1 := by
  have most : (List.range' 0 3).countP (fun k => decide (0 < (recv k).1)) ≤ 3 :=
    List.countP_le_length
  have value : (0 + UInt32.ofNat ((List.range' 0 3).countP fun k =>
      decide (0 < (recv k).1))).toNat =
      (List.range' 0 3).countP fun k => decide (0 < (recv k).1) := by
    rw [UInt32.zero_add, UInt32.toNat_ofNat_of_lt' (by change _ < 4294967296; omega)]
  change ¬ (0 + UInt32.ofNat ((List.range' 0 3).countP fun k => decide (0 < (recv k).1))) < 3 ↔ _
  rw [UInt32.lt_iff_toNat_lt, value, Nat.not_lt, show (3 : UInt32).toNat = 3 from rfl]
  constructor
  · intro three n small
    have counted : (List.range' 0 3).countP (fun k => decide (0 < (recv k).1)) =
        (List.range' 0 3).length :=
      Nat.le_antisymm most three
    have every :=
      List.countP_eq_length.mp counted n (List.mem_range'_1.mpr ⟨Nat.zero_le n, by omega⟩)
    exact of_decide_eq_true every
  · intro every
    apply Nat.le_of_eq
    symm
    apply List.countP_eq_length.mpr
    intro n inside
    exact decide_eq_true (every n (by have := (List.mem_range'_1.mp inside).2; omega))

/-- The check passes as soon as something comes back to each of its requests, and it asks for no
    block: the image server reads each request as one for zero blocks at address 1 of the image
    whose number is the tested address. -/
theorem block_read_verdict (serverAddr : Bytes) (serverPort : UInt16) (net : Network)
    (r : BootdiagResult) :
    ∃ verdict sent, bootdiagV4BlockRead serverAddr serverPort net r = some (verdict, sent) ∧
      (verdict.1 = resultPass ↔ net.startup = true ∧ net.connects = true ∧
        ∀ n < 3, 0 < (net.recv n).1) ∧
      (sent = [] ∨ List.Forall₂ (fun lba frame =>
        ∀ (old : FrameHeader) (dst : Bytes) (len : UInt32), dst.length = 24 →
        decodeFrame frame 64 old (some dst) 24 len =
          some ⟨true, asked lba, some (frame.drop 40), 24⟩) testLbas sent) ∧
      (sent = [] ↔ ¬ (net.startup = true ∧ net.connects = true)) := by
  have unsigned : ¬ net.sock < 0 := UInt64.not_lt_zero
  have framed : Framed (preamble ++ List.replicate 48 0) :=
    ⟨List.replicate 8 0, List.replicate 4 0, List.replicate 4 0, rfl, rfl, rfl, rfl⟩
  obtain ⟨p, frames, ran, sent, all, verified⟩ :=
    probeLoop_asks net.recv testLbas 0 ⟨[], 0, 0⟩ framed
  have probed : probe net = some p := by
    rw [probe, newFrame_eq, Option.bind_eq_bind, Option.bind_some]
    exact ran
  unfold bootdiagV4BlockRead
  by_cases startup : net.startup = true
  · by_cases connects : net.connects = true
    · simp only [startup, connects, unsigned, not_true_eq_false, if_false, probed,
        Option.bind_eq_bind, Option.bind_some]
      refine ⟨_, _, rfl, ?_, ?_, ?_⟩
      · rw [judge_passes_iff, verified]
        simp only [true_and]
        exact all_answered_iff net.recv
      · right
        rw [sent, List.nil_append]
        exact all.imp fun lba frame asks old dst len room => asks_decoded asks old dst len room
      · rw [sent, List.nil_append]
        cases all with
        | cons => simp
    · simp only [startup, connects, unsigned, not_true_eq_false, if_false]
      refine ⟨_, _, rfl, ?_, .inl rfl, ?_⟩
      · simp [failWith, resultFail, resultPass]
      · simp
  · simp only [startup]
    refine ⟨_, _, rfl, ?_, .inl rfl, ?_⟩
    · simp [failWith, resultFail, resultPass]
    · simp

end BlockProbe
