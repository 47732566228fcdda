import HyperDisk.Foundations.DecimalText
import HyperDisk.Foundations.RecentSlots
import HyperDisk.Foundations.StepRuns
import HyperDisk.Foundations.WordCounters

/- The serial debug output (hd_serial.c): characters go to the COM port and into a ring that can
   be dumped later. The head may not catch up with the tail, so one slot stays unused. `none` is
   an index outside RingBuffer, or a dump that has not come to its end within its fuel. -/
namespace SerialRing
open LittleEndian DecimalText StepRuns RecentSlots WordCounters

def bufSize : Nat := 4096
def com1Base : Nat := 0x3F8

/-- The COM port: its line status register as the successive reads find it, what was written to
    which port, and the bytes HdSerialWriteByte was called with. -/
structure Uart where
  lineStatus : Nat → UInt8
  reads : Nat
  writes : List (Nat × UInt8)
  passed : Bytes

def writePort (uart : Uart) (port : Nat) (value : UInt8) : Uart :=
  { uart with writes := uart.writes ++ [(port, value)] }

def waitForTransmitter (uart : Uart) : Nat → Uart × Nat
  | 0 => ({ uart with reads := uart.reads + 1 }, 0)
  | timeout + 1 =>
    let status := uart.lineStatus uart.reads
    let uart := { uart with reads := uart.reads + 1 }
    if status &&& 0x20 ≠ 0 then (uart, timeout + 1) else waitForTransmitter uart timeout

def writeByte (uart : Uart) (comBase : Nat) (byte : UInt8) : Uart :=
  let (uart, timeout) := waitForTransmitter { uart with passed := uart.passed ++ [byte] } 100000
  if 0 < timeout then writePort uart comBase byte else uart

structure Serial where
  comBase : Nat
  initialized : Bool
  ringBuffer : Vector UInt8 bufSize
  ringHead : UInt32
  ringTail : UInt32
  uart : Uart

def nextSlot (i : UInt32) : UInt32 := (i + 1) % 4096

def writeChar (s : Serial) (ch : UInt8) : Option Serial :=
  if ¬ s.initialized then some s
  else
    let uart := writeByte s.uart s.comBase ch
    if inside : s.ringHead.toNat < bufSize then
      let head := nextSlot s.ringHead
      some { s with
        uart := uart
        ringBuffer := s.ringBuffer.set s.ringHead.toNat ch inside
        ringHead := head
        ringTail := if head = s.ringTail then nextSlot s.ringTail else s.ringTail }
    else none

/-- The loop of HdSerialWriteString; the end of the list is the terminating NUL, and one inside
    it ends the string as well. -/
def writeChars (s : Serial) : Bytes → Option Serial
  | [] => some s
  | ch :: rest => if ch = 0 then some s else (writeChar s ch).bind fun s => writeChars s rest

def writeString (s : Serial) (str : Bytes) : Option Serial :=
  if ¬ s.initialized then some s else writeChars s str

def banner : Bytes :=
  ascii "[HyperDisk] COM1 serial debug initialized\r\n".toList

def initializeSerial (s : Serial) : Option Serial :=
  let registers : List (Nat × UInt8) :=
    [(1, 0x00), (3, 0x80), (0, 0x01), (1, 0x00), (3, 0x03), (2, 0xC7), (4, 0x0B)]
  let uart := registers.foldl (fun uart (offset, value) =>
    writePort uart (com1Base + offset) value) s.uart
  writeString
    { s with comBase := com1Base, initialized := true, ringHead := 0, ringTail := 0, uart := uart }
    banner

def dumpLoop (s : Serial) (head : UInt32) : Nat → UInt32 → Uart → Option Uart
  | 0, _, _ => none
  | fuel + 1, tail, uart =>
    if tail = head then some uart
    else do
      let byte ← s.ringBuffer[tail.toNat]?
      dumpLoop s head fuel (nextSlot tail) (writeByte uart s.comBase byte)

def dumpRingBuffer (s : Serial) (fuel : Nat) : Option Serial :=
  if ¬ s.initialized then some s
  else (dumpLoop s s.ringHead fuel s.ringTail s.uart).map fun uart => { s with uart := uart }

inductive Call where
  | writeChar (ch : UInt8)
  | writeString (str : Bytes)
  deriving DecidableEq, Repr

def callStep (s : Option Serial) (call : Call) : Option Serial :=
  s.bind fun s =>
    match call with
    | .writeChar ch => writeChar s ch
    | .writeString str => writeString s str

def Call.characters : Call → Bytes
  | .writeChar ch => [ch]
  | .writeString str => str.takeWhile (· != 0)

theorem waitForTransmitter_passed (uart : Uart) (timeout : Nat) :
    (waitForTransmitter uart timeout).1.passed = uart.passed := by
  induction timeout generalizing uart with
  | zero => rfl
  | succ timeout ih =>
    rw [waitForTransmitter]
    split
    · rfl
    · exact ih _

theorem writeByte_passed (uart : Uart) (comBase : Nat) (byte : UInt8) :
    (writeByte uart comBase byte).passed = uart.passed ++ [byte] := by
  have waited := waitForTransmitter_passed { uart with passed := uart.passed ++ [byte] } 100000
  unfold writeByte
  dsimp only
  split
  · exact waited
  · exact waited

theorem nextSlot_toNat {i : UInt32} (inside : i.toNat < 4096) :
    (nextSlot i).toNat = (i.toNat + 1) % 4096 := by
  rw [nextSlot, UInt32.toNat_mod, succ_of_room (by omega)]
  rfl

/-- The ring after the characters of a history. Its last 4096 characters are in the slots, and
    the tail leaves out all but 4095. -/
structure Ring (history : Bytes) (s : Serial) : Prop where
  ready : s.initialized = true
  slots : Recent 4096 (fun j => s.ringBuffer[j]?) history
  head : s.ringHead.toNat = history.length % 4096
  tail : s.ringTail.toNat = (history.length - 4095) % 4096

variable {history : Bytes} {s : Serial}

theorem head_meets_tail_iff (h : Ring history s) :
    nextSlot s.ringHead = s.ringTail ↔ 4095 ≤ history.length := by
  have head := nextSlot_toNat (i := s.ringHead) (by rw [h.head]; omega)
  rw [← UInt32.toNat_inj, head, h.head, h.tail]
  omega

theorem writeChar_ring (h : Ring history s) (ch : UInt8) :
    ∃ t, writeChar s ch = some t ∧ Ring (history ++ [ch]) t := by
  have inside : s.ringHead.toNat < bufSize := by
    rw [h.head]
    exact Nat.mod_lt _ (by decide)
  have head := nextSlot_toNat inside
  have tail := nextSlot_toNat (i := s.ringTail) (by rw [h.tail]; omega)
  have meets := head_meets_tail_iff h
  refine ⟨_, by rw [writeChar, if_neg (by simp [h.ready]), dif_pos inside], ?_⟩
  constructor
  · exact h.ready
  · apply recent_push h.slots
    · dsimp only
      rw [← h.head, Vector.getElem?_set_self]
    · intro j _ other
      dsimp only
      rw [Vector.getElem?_set_ne]
      rw [h.head]
      exact other.symm
  · dsimp only
    rw [head, h.head, List.length_append, List.length_singleton]
    omega
  · dsimp only
    rw [List.length_append, List.length_singleton]
    split
    · rename_i full
      rw [tail, h.tail]
      have := meets.mp full
      omega
    · rename_i room
      rw [h.tail]
      have := mt meets.mpr room
      omega

theorem writeChars_ring (h : Ring history s) (str : Bytes) :
    ∃ t, writeChars s str = some t ∧ Ring (history ++ str.takeWhile (· != 0)) t := by
  induction str generalizing history s with
  | nil => exact ⟨s, rfl, by simpa using h⟩
  | cons ch rest ih =>
    by_cases nul : ch = 0
    · refine ⟨s, by rw [writeChars, if_pos nul], ?_⟩
      simpa [nul] using h
    · obtain ⟨t, written, next⟩ := writeChar_ring h ch
      obtain ⟨u, rest_written, last⟩ := ih next
      refine ⟨u, by rw [writeChars, if_neg nul, written, Option.bind_some, rest_written], ?_⟩
      rw [List.takeWhile_cons_of_pos (by simpa using nul)]
      simpa using last

theorem writeString_ring (h : Ring history s) (str : Bytes) :
    ∃ t, writeString s str = some t ∧ Ring (history ++ str.takeWhile (· != 0)) t := by
  rw [writeString, if_neg (by simp [h.ready])]
  exact writeChars_ring h str

theorem callStep_ring (h : Ring history s) (call : Call) :
    ∃ t, callStep (some s) call = some t ∧ Ring (history ++ call.characters) t := by
  cases call with
  | writeChar ch => exact writeChar_ring h ch
  | writeString str => exact writeString_ring h str

theorem calls_ring (h : Ring history s) (calls : List Call) :
    ∃ t, run callStep (some s) calls = some t ∧
      Ring (history ++ calls.flatMap Call.characters) t := by
  induction calls generalizing history s with
  | nil => exact ⟨s, rfl, by simpa using h⟩
  | cons call calls ih =>
    obtain ⟨t, next, kept⟩ := callStep_ring h call
    obtain ⟨u, rest, last⟩ := ih kept
    refine ⟨u, by rw [run, next, rest], ?_⟩
    simpa [List.flatMap_cons] using last

theorem empty_ring (ready : s.initialized = true) (head : s.ringHead = 0) (tail : s.ringTail = 0) :
    Ring [] s := by
  constructor
  · exact ready
  · exact recent_nil
  · rw [head]
    rfl
  · rw [tail]
    rfl

theorem initializeSerial_ring (s : Serial) : ∃ t, initializeSerial s = some t ∧ Ring banner t := by
  have started : ∀ t : Serial, t.initialized = true → t.ringHead = 0 → t.ringTail = 0 →
      ∃ u, writeString t banner = some u ∧ Ring banner u := by
    intro t ready head tail
    obtain ⟨u, written, ring⟩ := writeString_ring (empty_ring ready head tail) banner
    have printable : banner.takeWhile (· != 0) = banner := by decide
    rw [printable, List.nil_append] at ring
    exact ⟨u, written, ring⟩
  exact started _ rfl rfl rfl

theorem dumpLoop_passes (h : Ring history s) {k fuel : Nat} {tail : UInt32} (uart : Uart)
    (at_k : tail.toNat = k % 4096) (known : k ≤ history.length) (close : history.length ≤ k + 4095)
    (enough : history.length - k < fuel) :
    ∃ u, dumpLoop s s.ringHead fuel tail uart = some u ∧
      u.passed = uart.passed ++ history.drop k := by
  induction fuel generalizing k tail uart with
  | zero => omega
  | succ fuel ih =>
    rw [dumpLoop]
    by_cases atEnd : k = history.length
    · have same : tail = s.ringHead := by
        rw [← UInt32.toNat_inj, at_k, h.head, atEnd]
      refine ⟨uart, if_pos same, ?_⟩
      rw [atEnd, List.drop_length, List.append_nil]
    · have before : k < history.length := by omega
      have apart : tail ≠ s.ringHead := by
        intro same
        apply mod_ne_of_close before (m := 4096) (by omega)
        rw [← at_k, same, h.head]
      have byte : s.ringBuffer[tail.toNat]? = some history[k] := by
        rw [at_k]
        exact h.slots k _ (List.getElem?_eq_getElem before) (by omega)
      have moved : (nextSlot tail).toNat = (k + 1) % 4096 := by
        rw [nextSlot_toNat (by rw [at_k]; omega), at_k]
        omega
      obtain ⟨u, dumped, passed⟩ := ih (writeByte uart s.comBase history[k]) moved before
        (by omega) (by omega)
      refine ⟨u, ?_, ?_⟩
      · rw [if_neg apart, byte]
        exact dumped
      · rw [passed, writeByte_passed, List.drop_eq_getElem_cons before, List.append_assoc]
        rfl

theorem dumpRingBuffer_passes (h : Ring history s) {fuel : Nat} (enough : 4095 < fuel) :
    ∃ u, dumpRingBuffer s fuel = some u ∧
      u.uart.passed = s.uart.passed ++ history.drop (history.length - min history.length 4095) := by
  obtain ⟨uart, dumped, passed⟩ := dumpLoop_passes h (k := history.length - 4095) s.uart h.tail
    (by omega) (by omega) (show _ < fuel by omega)
  refine ⟨{ s with uart := uart }, ?_, ?_⟩
  · rw [dumpRingBuffer, if_neg (by simp [h.ready]), dumped]
    rfl
  · rw [passed, show history.length - min history.length 4095 = history.length - 4095 by omega]

/-- From an empty ring, any calls leave head and tail inside the buffer, and a dump then ends and
    passes on the last 4095 characters, or all of them if there are fewer. -/
theorem dump_passes_last_characters (s : Serial) (calls : List Call) (ready : s.initialized = true)
    (head : s.ringHead = 0) (tail : s.ringTail = 0) :
    let characters := calls.flatMap Call.characters
    ∃ t, run callStep (some s) calls = some t ∧
      t.ringHead.toNat < bufSize ∧ t.ringTail.toNat < bufSize ∧
      ∀ fuel, 4095 < fuel → ∃ u, dumpRingBuffer t fuel = some u ∧ u.uart.passed =
        t.uart.passed ++ characters.drop (characters.length - min characters.length 4095) := by
  obtain ⟨t, reached, ring⟩ := calls_ring (empty_ring ready head tail) calls
  rw [List.nil_append] at ring
  refine ⟨t, reached, ?_, ?_, ?_⟩
  · rw [ring.head]
    exact Nat.mod_lt _ (by decide)
  · rw [ring.tail]
    exact Nat.mod_lt _ (by decide)
  · intro fuel enough
    exact dumpRingBuffer_passes ring enough

theorem dump_passes_three_characters :
    ∃ t u, run callStep
        (some ⟨com1Base, true, Vector.replicate bufSize 0, 0, 0, ⟨fun _ => 0x20, 0, [], []⟩⟩)
        [.writeString [97, 98, 0, 99], .writeChar 100] = some t ∧
      dumpRingBuffer t 4096 = some u ∧ u.uart.passed = t.uart.passed ++ [97, 98, 100] := by
  obtain ⟨t, reached, _, _, dumped⟩ := dump_passes_last_characters
    ⟨com1Base, true, Vector.replicate bufSize 0, 0, 0, ⟨fun _ => 0x20, 0, [], []⟩⟩
    [.writeString [97, 98, 0, 99], .writeChar 100] rfl rfl rfl
  obtain ⟨u, done, passed⟩ := dumped 4096 (by decide)
  exact ⟨t, u, reached, done, passed⟩

theorem dump_after_initialization (s : Serial) (calls : List Call) :
    let characters := banner ++ calls.flatMap Call.characters
    ∃ t, run callStep (initializeSerial s) calls = some t ∧
      ∀ fuel, 4095 < fuel → ∃ u, dumpRingBuffer t fuel = some u ∧ u.uart.passed =
        t.uart.passed ++ characters.drop (characters.length - min characters.length 4095) := by
  obtain ⟨started, initialized, message⟩ := initializeSerial_ring s
  obtain ⟨t, reached, ring⟩ := calls_ring message calls
  refine ⟨t, by rw [initialized, reached], ?_⟩
  intro fuel enough
  exact dumpRingBuffer_passes ring enough

end SerialRing
