import HyperDisk.BootAgent.BootConfig
import HyperDisk.Foundations.PrintBuffers

/- ReportTelemetry of the boot agent: the report as JSON, the request around it, and what goes out.
   `none` is a send that reads outside its buffer. -/
namespace Telemetry
open LittleEndian DecimalText PrintBuffers BootConfig

structure Uplink where
  wsaStarts : Bool
  socketOpens : Bool
  connects : Bool
  deriving DecidableEq, Repr

def Uplink.up (u : Uplink) : Bool := u.wsaStarts && u.socketOpens && u.connects

structure Buffers where
  json : Vector UInt8 1024
  httpReq : Vector UInt8 2048

def jsonText (c : Config) (phase result : Bytes) (durationMs : UInt32) : Bytes :=
  ascii "\x7b\"boot_id\":\"".toList ++ cString c.bootId ++ ascii "\",\"machine_id\":\"".toList ++
    cString c.machineId ++ ascii "\",\"mac\":\"".toList ++ cString c.macAddress ++
    ascii "\",\"phase\":\"".toList ++ cString phase ++ ascii "\",\"duration_ms\":".toList ++
    decimal durationMs.toNat ++ ascii ",\"result\":\"".toList ++ cString result ++
      ascii "\"\x7d".toList

def httpText (c : Config) (jsonLen : Nat) (json : Bytes) : Bytes :=
  ascii "POST /api/v1/boot/report HTTP/1.1\r\nHost: ".toList ++ cString c.serverAddress ++
    ascii ":".toList ++ decimal c.serverPort.toNat ++
    ascii "\r\nContent-Type: application/json\r\nContent-Length: ".toList ++ decimal jsonLen ++
    ascii "\r\nConnection: close\r\n\r\n".toList ++ json

def reportTelemetry (b : Buffers) (u : Uplink) (c : Config) (phase result : Bytes)
    (durationMs : UInt32) : Option (Int × Option Bytes) :=
  if c.serverAddress = [] ∨ c.bootId = [] then some (-1, none)
  else if ¬ u.wsaStarts then some (-1, none)
  else if ¬ u.socketOpens then some (-1, none)
  else if ¬ u.connects then some (-1, none)
  else do
    let (json, jsonLen) ← snprintf b.json.toList 0 1024 (jsonText c phase result durationMs)
    let sent ← printAndSend b.httpReq.toList 2048 (httpText c jsonLen (cString json))
    some (0, some sent)

theorem cString_plain (text : Bytes) : 0 ∉ cString text := by
  intro zero
  simpa using List.mem_takeWhile_imp zero

theorem decimal_plain (n : Nat) : 0 ∉ decimal n := by
  intro zero
  exact absurd (decimal_digits n 0 zero) (by decide)

section Reports
variable {b : Buffers} {u : Uplink} {c : Config} {phase result : Bytes} {durationMs : UInt32}

theorem jsonText_plain (c : Config) (phase result : Bytes) (durationMs : UInt32) :
    0 ∉ jsonText c phase result durationMs := by
  unfold jsonText
  simp only [List.mem_append, not_or]
  exact ⟨⟨⟨⟨⟨⟨⟨⟨⟨⟨⟨⟨by decide, cString_plain _⟩, by decide⟩, cString_plain _⟩, by decide⟩,
    cString_plain _⟩, by decide⟩, cString_plain _⟩, by decide⟩, decimal_plain _⟩, by decide⟩,
    cString_plain _⟩, by decide⟩

theorem report_sent (configured : c.serverAddress ≠ [] ∧ c.bootId ≠ []) (up : u.up = true) :
    reportTelemetry b u c phase result durationMs =
      (printAndSend b.httpReq.toList 2048 (httpText c (jsonText c phase result durationMs).length
        ((jsonText c phase result durationMs).take 1023))).map fun sent => (0, some sent) := by
  have plain := jsonText_plain c phase result durationMs
  simp only [Uplink.up, Bool.and_eq_true] at up
  unfold reportTelemetry
  generalize jsonText c phase result durationMs = text at plain
  obtain ⟨json, printed, shown⟩ := snprintf_whole b.json.toList plain (by simp)
    (show 0 < 1024 by decide)
  rw [if_neg (by simp [configured]), if_neg (by simp [up]), if_neg (by simp [up]),
    if_neg (by simp [up]), printed, Option.map_eq_bind]
  simp only [Option.bind_eq_bind, Option.bind_some, shown]
  rfl

theorem report_unsent (down : ¬ (c.serverAddress ≠ [] ∧ c.bootId ≠ [] ∧ u.up = true)) :
    reportTelemetry b u c phase result durationMs = some (-1, none) := by
  unfold reportTelemetry
  by_contra other
  apply down
  simp only [ite_eq_left_iff, not_forall, Uplink.up, Bool.and_eq_true] at other ⊢
  obtain ⟨given, wsa, socket, connects, -⟩ := other
  rw [not_or] at given
  exact ⟨given.1, given.2, ⟨not_not.mp wsa, not_not.mp socket⟩, not_not.mp connects⟩

/-- A report is sent exactly when there is a server, a boot id and a connection. The length that its
    request announces is that of the whole report, while the request carries as much of it as fits
    1023 bytes; a request that does not fit its own buffer is cut or read outside. -/
theorem report_framed (b : Buffers) (u : Uplink) (c : Config) (phase result : Bytes)
    (durationMs : UInt32) :
    reportTelemetry b u c phase result durationMs =
      let json := jsonText c phase result durationMs
      let request := httpText c json.length (json.take 1023)
      if c.serverAddress ≠ [] ∧ c.bootId ≠ [] ∧ u.up = true then
        if request.length < 2048 then some (0, some request)
        else if request.length = 2048 then some (0, some (request.dropLast ++ [0]))
        else none
      else some (-1, none) := by
  simp only
  by_cases ready : c.serverAddress ≠ [] ∧ c.bootId ≠ [] ∧ u.up = true
  · rw [if_pos ready, report_sent ⟨ready.1, ready.2.1⟩ ready.2.2,
      printAndSend_eq (by simp) (by decide)]
    generalize httpText c _ _ = request
    split
    · rfl
    · split
      · rename_i full
        rw [List.dropLast_eq_take, full]
        rfl
      · rfl
  · rw [if_neg ready, report_unsent ready]

theorem httpText_length (c : Config) (jsonLen : Nat) (json : Bytes) :
    (httpText c jsonLen json).length =
      (cString c.serverAddress).length + (decimal c.serverPort.toNat).length +
      (decimal jsonLen).length + json.length + 115 := by
  simp [httpText, ascii]
  omega

theorem jsonText_length (c : Config) (phase result : Bytes) (durationMs : UInt32) :
    (jsonText c phase result durationMs).length =
      (cString c.bootId).length + (cString c.machineId).length +
      (cString c.macAddress).length + (cString phase).length + (decimal durationMs.toNat).length +
      (cString result).length + 77 := by
  simp [jsonText, ascii]
  omega

end Reports

end Telemetry
