import HyperDisk.BootAgent.BootSequence

/- What every run of the boot agent does: the ways it can end, what it leaves in the black box and
   what it reports. -/
namespace BootRuns
open LittleEndian DecimalText FileImages BlackBoxRecorder BlackBoxFiles BootIdentity BootConfig
  DhcpDiscover
open BootMeta VerifiedMeta HttpBody Telemetry PackedFields PackedRecords BootSequence PrintBuffers

def Logged (m : Machine) (calls : List RecordCall) (bb : Recorder) : Prop :=
  if m.ringAllocates then Recorded m.startTime calls bb else bb.initialized = false

def fileOf (m : Machine) (calls : List RecordCall) : Bytes :=
  let entries := kept m.startTime calls
  let count := UInt32.ofNat entries.length
  fileHeaderLayout.encode (fillHeader count m.startTime m.endTime) ++
    writeAll entryLayout entries ++
    fileFooterLayout.encode (footerOf entries count)

def flushed (m : Machine) (path : Path) (calls : List RecordCall) (disk : Disk) : Disk :=
  if m.ringAllocates ∧ m.flushOpens then
    disk.put path ((fileOf m calls).take (m.flushOutcome.count (fileOf m calls).length))
  else disk

def reports (m : Machine) (c : Config) (phase result : String) (durationMs : UInt32) : List Bytes :=
  let json := jsonText c (ascii phase.toList) (ascii result.toList) durationMs
  if c.serverAddress ≠ [] ∧ c.bootId ≠ [] ∧ m.report.up = true then [httpText c json.length json]
  else []

structure Reportable (c : Config) : Prop where
  server : c.serverAddress.length ≤ 1700
  boot : c.bootId.length ≤ 36
  machine : c.machineId.length ≤ 36
  mac : c.macAddress.length ≤ 17

def ended (m : Machine) (path : Path) (a : Agent) (calls : List RecordCall) (phase result : String)
    (durationMs : UInt32) (bb : Recorder) : Agent :=
  { a with
    bb := bb
    sent := a.sent ++ reports m a.config phase result durationMs
    disk := flushed m path calls a.disk }

section Steps
variable {m : Machine} {path : Path} {calls : List RecordCall} {a : Agent}

theorem record_logged (a : Agent) (logged : Logged m calls a.bb) (phase : BootPhase)
    (success : Bool) (latencyUs : UInt16) :
    ∃ bb, recordBbPhase m phase success latencyUs a = some { a with bb := bb } ∧
      Logged m (calls ++ [phaseCall m phase success latencyUs]) bb := by
  unfold Logged at logged ⊢
  unfold recordBbPhase
  by_cases ring : m.ringAllocates = true
  · rw [if_pos ring] at logged
    obtain ⟨bb, done, recorded⟩ := record_keeps logged (phaseCall m phase success latencyUs)
    refine ⟨bb, by rw [done]; rfl, ?_⟩
    rw [if_pos ring]
    exact recorded
  · rw [if_neg ring] at logged
    have same : record a.bb (phaseCall m phase success latencyUs) = some a.bb := by
      rw [record, if_pos (by rw [logged]; decide)]
    refine ⟨a.bb, by rw [same]; rfl, ?_⟩
    rw [if_neg ring]
    exact logged

theorem flush_logged (path : Path) {a : Agent} (logged : Logged m calls a.bb)
    (some_calls : calls ≠ []) :
    flush m path a = some { a with disk := flushed m path calls a.disk } := by
  unfold Logged at logged
  unfold flush flushed
  by_cases ring : m.ringAllocates = true
  · rw [if_pos ring] at logged
    have length := kept_length m.startTime calls
    have count : a.bb.entryCount = UInt32.ofNat (kept m.startTime calls).length := by
      rw [← logged.count, UInt32.ofNat_toNat]
    have positive : a.bb.entryCount ≠ 0 := by
      intro zero
      have none := logged.count
      have any := List.length_pos_iff.mpr some_calls
      have most : maxEntries = 2581109 := rfl
      have zero_nat : (0 : UInt32).toNat = 0 := rfl
      rw [zero, length] at none
      omega
    have image : fileImage a.bb m.endTime = some (fileOf m calls) := by
      rw [fileImage_eq logged, count]
      rfl
    rw [flushToDisk, if_neg (by simp [logged.initialized, positive])]
    by_cases opens : m.flushOpens = true
    · rw [if_pos opens, image, if_pos ⟨ring, opens⟩]
      rfl
    · rw [if_neg opens, if_neg fun both => opens both.2]
      rfl
  · rw [if_neg ring] at logged
    rw [flushToDisk, if_pos (by simp [logged]), if_neg fun both => ring both.1]
    rfl

theorem cString_length (text : Bytes) : (cString text).length ≤ text.length :=
  (List.takeWhile_sublist _).length_le

theorem report_fits (m : Machine) (a : Agent) (fits : Reportable a.config) (phase result : String)
    (durationMs : UInt32) (short_phase : phase.toList.length ≤ 17)
    (short_result : result.toList.length ≤ 7) :
    report m phase result durationMs a =
      some { a with sent := a.sent ++ reports m a.config phase result durationMs } := by
  have server := (cString_length a.config.serverAddress).trans fits.server
  have boot := (cString_length a.config.bootId).trans fits.boot
  have machine := (cString_length a.config.machineId).trans fits.machine
  have mac := (cString_length a.config.macAddress).trans fits.mac
  have phases : (cString (ascii phase.toList)).length ≤ 17 :=
    (cString_length _).trans (by rw [ascii, List.length_map]; exact short_phase)
  have results : (cString (ascii result.toList)).length ≤ 7 :=
    (cString_length _).trans (by rw [ascii, List.length_map]; exact short_result)
  have duration : (decimal durationMs.toNat).length ≤ 10 :=
    decimal_length_le (by decide) (durationMs.toNat_lt.trans (by decide))
  have port : (decimal a.config.serverPort.toNat).length ≤ 5 :=
    decimal_length_le (by decide) (a.config.serverPort.toNat_lt.trans (by decide))
  have json := jsonText_length a.config (ascii phase.toList) (ascii result.toList) durationMs
  unfold report reports
  rw [report_framed]
  generalize jsonText a.config (ascii phase.toList) (ascii result.toList) durationMs = text at json
  have all : text.take 1023 = text := List.take_of_length_le (by omega)
  have announced : (decimal text.length).length ≤ 3 := decimal_length_le (by decide) (by omega)
  have request := httpText_length a.config text.length text
  simp only [all]
  by_cases ready : a.config.serverAddress ≠ [] ∧ a.config.bootId ≠ [] ∧ m.report.up = true
  · rw [if_pos ready, if_pos ready, if_pos (by omega)]
    rfl
  · rw [if_neg ready, if_neg ready]
    rfl

theorem snoc_ne_nil (c : RecordCall) : calls ++ [c] ≠ [] :=
  List.append_ne_nil_of_right_ne_nil calls (List.cons_ne_nil c [])

theorem halt_ends (path : Path) (a : Agent) (logged : Logged m calls a.bb)
    (fits : Reportable a.config) (phase : BootPhase) (name : String)
    (short : name.toList.length ≤ 17) (code : Int) :
    ∃ bb, halt m path phase name code a =
      some (code, ended m path a (calls ++ [phaseCall m phase false 0]) name "fail" 0 bb) := by
  obtain ⟨bb, recorded, now⟩ := record_logged a logged phase false 0
  refine ⟨bb, ?_⟩
  unfold halt
  rw [recorded, Option.bind_eq_bind, Option.bind_some,
    report_fits m { a with bb := bb } fits name "fail" 0 short (by decide), Option.bind_some,
    flush_logged path now (snoc_ne_nil _)]
  rfl

def totalLatency (m : Machine) : UInt16 := if 65535 < m.totalMs then 65535 else m.totalMs.toUInt16

def completed (m : Machine) : List RecordCall :=
  [phaseCall m .integrityCheck true 0, phaseCall m .winpeStart true (totalLatency m)]

theorem finish_ends (path : Path) (a : Agent) (logged : Logged m calls a.bb)
    (fits : Reportable a.config) :
    ∃ bb, finish m path a =
      some (0, ended m path a (calls ++ completed m) "boot_complete" "success" m.totalMs bb) := by
  have accepted : verifyIntegrity a.cache = 0 := ite_self 0
  obtain ⟨checked, recorded, now⟩ := record_logged a logged .integrityCheck true 0
  have reported := report_fits m { a with bb := checked } fits "boot_complete" "success" m.totalMs
    (by decide) (by decide)
  obtain ⟨bb, last, after⟩ := record_logged
    { a with
      bb := checked
      sent := a.sent ++ reports m a.config "boot_complete" "success" m.totalMs }
    now .winpeStart true (totalLatency m)
  rw [List.append_assoc] at after
  refine ⟨bb, ?_⟩
  unfold finish
  rw [if_neg (not_not.mpr accepted), recorded, Option.bind_eq_bind, Option.bind_some,
    if_neg (show ¬ initializeVirtualDisk ≠ 0 by decide), reported, Option.bind_some]
  change ((recordBbPhase m .winpeStart true (totalLatency m) _).bind _) = _
  rw [last, Option.bind_some]
  rw [flush_logged path after (List.append_ne_nil_of_right_ne_nil calls (List.cons_ne_nil _ _))]
  rfl

end Steps

def metaConnection (m : Machine) (c : Config) : MetaConnection :=
  { m.http with serverGiven := c.primaryServer ≠ [] }

inductive Fetched (m : Machine) (c : Config) (cache : BootMetaCache) (disk : Disk) :
    BootMetaCache → Disk → Prop
  | http (body : httpBody (metaConnection m c) = some true) : Fetched m c cache disk cache disk
  | rpc (missing : httpBody (metaConnection m c) = some false) {md : Meta}
      (delivers : Delivers m.exchange md)
      (verified : Verified md) {saved : BootMetaCache} {written : Disk} {good : Bool}
      (save : BootMeta.save ⟨md, true⟩ disk c.localMetaPath m.saveOpens m.saveOutcome m.saveGood =
        (saved, written, good)) : Fetched m c cache disk saved written
  | cached (missing : httpBody (metaConnection m c) = some false)
      (silent : ¬ ∃ md, Delivers m.exchange md ∧ Verified md)
      (loads : (BootMeta.load disk c.localMetaPath).2 = true) :
      Fetched m c cache disk (BootMeta.load disk c.localMetaPath).1 disk

structure Unfetched (m : Machine) (c : Config) (disk : Disk) : Prop where
  missing : httpBody (metaConnection m c) = some false
  silent : ¬ ∃ md, Delivers m.exchange md ∧ Verified md
  unreadable : (BootMeta.load disk c.localMetaPath).2 = false

theorem httpBody_defined (c : MetaConnection) :
    httpBody c = some true ∨ httpBody c = some false := by
  unfold httpBody
  split
  · simp only [metaBuffer_eq, scanBody_eq, Option.bind_eq_bind, Option.bind_some]
    cases (Markers.firstEnd blankLine c.arrivals.pieces.flatten).filter (· ≤ 8191) with
    | none => exact .inr rfl
    | some start =>
      rcases Bool.eq_false_or_eq_true (decide
        (start < (c.arrivals.pieces.flatten.take 8191).length)) with yes | no
      · exact .inl (congrArg some yes)
      · exact .inr (congrArg some no)
  · exact .inr rfl

section Fetching
variable {m : Machine} {path : Path} {calls : List RecordCall} {a : Agent}

theorem adopted_true {md : Meta} (verified : Verified md) : adopted md = (⟨md, true⟩, true) := by
  have yes : (md.magic == bootMetaMagic && validateCrc md) = true := (adopted_iff md).mpr verified
  rw [adopted, yes]

theorem download_cases (m : Machine) (a : Agent) :
    (∃ cache disk, Fetched m a.config a.cache a.disk cache disk ∧
      downloadBootMeta (metaConnection m a.config) m.exchange a.cache a.disk a.config.localMetaPath
        m.saveOpens m.saveOutcome m.saveGood = some (0, cache, disk)) ∨
    (httpBody (metaConnection m a.config) = some false ∧
      (¬ ∃ md, Delivers m.exchange md ∧ Verified md) ∧
      ∃ cache, downloadBootMeta (metaConnection m a.config) m.exchange a.cache a.disk
        a.config.localMetaPath m.saveOpens m.saveOutcome m.saveGood =
          some (-1, cache, a.disk)) := by
  unfold downloadBootMeta
  rcases httpBody_defined (metaConnection m a.config) with body | missing
  · rw [body]
    exact .inl ⟨_, _, .http body, rfl⟩
  · rw [missing]
    rcases loadFromServer_cases a.cache m.exchange with ⟨md, delivers, loaded⟩ | ⟨silent, kept⟩
    · rw [loaded]
      by_cases verified : Verified md
      · rw [adopted_true verified]
        exact .inl ⟨_, _, .rpc missing delivers verified rfl, rfl⟩
      · have refused : (adopted md).2 = false := by
          rw [← Bool.not_eq_true, adopted_iff]
          exact verified
        refine .inr ⟨rfl, ?_, (adopted md).1, ?_⟩
        · rintro ⟨other, too, good⟩
          exact verified (delivers.record ▸ too.record ▸ good)
        · simp [refused]
    · rw [kept]
      refine .inr ⟨rfl, ?_, a.cache, rfl⟩
      rintro ⟨md, delivers, -⟩
      exact silent ⟨md, delivers⟩

theorem fetched_ends (path : Path) (cache : BootMetaCache) (disk : Disk)
    (logged : Logged m calls a.bb) (fits : Reportable a.config) :
    ∃ bb, (recordBbPhase m .chunkstreamDl true 0 { a with cache := cache, disk := disk }).bind
      (finish m path) =
      some (0, ended m path { a with cache := cache, disk := disk }
        (calls ++ phaseCall m .chunkstreamDl true 0 :: completed m) "boot_complete" "success"
          m.totalMs bb) := by
  obtain ⟨noted, recorded, now⟩ :=
    record_logged { a with cache := cache, disk := disk } logged .chunkstreamDl true 0
  obtain ⟨bb, ends⟩ :=
    finish_ends path { a with cache := cache, disk := disk, bb := noted } now fits
  refine ⟨bb, ?_⟩
  rw [recorded, Option.bind_some, ends, List.append_assoc]
  rfl

theorem fetchMeta_ends (path : Path) (a : Agent) (logged : Logged m calls a.bb)
    (fits : Reportable a.config) :
    (∃ cache disk bb, Fetched m a.config a.cache a.disk cache disk ∧
      fetchMeta m path a = some (0, ended m path { a with cache := cache, disk := disk }
        (calls ++ phaseCall m .chunkstreamDl true 0 :: completed m) "boot_complete" "success"
          m.totalMs bb)) ∨
    (Unfetched m a.config a.disk ∧ ∃ cache bb,
      fetchMeta m path a = some (-3, ended m path { a with cache := cache }
        (calls ++ [phaseCall m .chunkstreamDl false 0]) "download_bootmeta" "fail" 0 bb)) := by
  have start : fetchMeta m path a = (downloadBootMeta (metaConnection m a.config) m.exchange a.cache
      a.disk a.config.localMetaPath m.saveOpens m.saveOutcome m.saveGood).bind _ := rfl
  rcases download_cases m a with ⟨cache, disk, fetched, done⟩ | ⟨missing, silent, cache, failed⟩
  · left
    obtain ⟨bb, ends⟩ := fetched_ends path cache disk logged fits
    refine ⟨cache, disk, bb, fetched, ?_⟩
    rw [start, done]
    exact ends
  · rw [start, failed]
    cases result : BootMeta.load a.disk a.config.localMetaPath with
    | mk loaded ok =>
      cases ok with
      | true =>
        left
        obtain ⟨bb, ends⟩ := fetched_ends path loaded a.disk logged fits
        have fetched : Fetched m a.config a.cache a.disk _ _ :=
          .cached missing silent (congrArg Prod.snd result)
        rw [result] at fetched
        refine ⟨loaded, a.disk, bb, fetched, ?_⟩
        simpa [result] using ends
      | false =>
        right
        obtain ⟨bb, ends⟩ := halt_ends path { a with cache := loaded } logged fits .chunkstreamDl
          "download_bootmeta" (by decide) (-3)
        refine ⟨⟨missing, silent, congrArg Prod.snd result⟩, loaded, bb, ?_⟩
        simpa [result] using ends

theorem registered_ends (path : Path) (a : Agent) (logged : Logged m calls a.bb)
    (fits : Reportable a.config) :
    (∃ cache disk bb, Fetched m a.config a.cache a.disk cache disk ∧
      registerAndFetch m path a = some (0, ended m path { a with cache := cache, disk := disk }
        (calls ++ phaseCall m .grpcRegister m.register.up 0 :: phaseCall m .chunkstreamDl true 0 ::
          completed m)
        "boot_complete" "success" m.totalMs bb)) ∨
    (Unfetched m a.config a.disk ∧ ∃ cache bb,
      registerAndFetch m path a = some (-3, ended m path { a with cache := cache }
        (calls ++ [phaseCall m .grpcRegister m.register.up 0, phaseCall m .chunkstreamDl false 0])
        "download_bootmeta" "fail" 0 bb)) := by
  obtain ⟨noted, recorded, now⟩ := record_logged a logged .grpcRegister m.register.up 0
  have next : registerAndFetch m path a = fetchMeta m path { a with bb := noted } := by
    rw [registerAndFetch, recorded]
    rfl
  have ends := fetchMeta_ends path { a with bb := noted } now fits
  rw [List.append_assoc, List.append_assoc] at ends
  rw [next]
  exact ends

end Fetching

/-- With what a run starts: a configuration from the command line, whose server address is not too
    long for a report, and the files of the machine. -/
structure Setup where
  config : Config
  disk : Disk
  noMac : config.macAddress = []
  short : config.serverAddress.length ≤ 1700

def Setup.agent (s : Setup) : Agent := ⟨s.config, newCache, s.disk, newRecorder, []⟩

def Setup.path (s : Setup) (m : Machine) : Path := bbPath (identified m s.config)

def Setup.discovered (s : Setup) (m : Machine) : Option (Bool × Config) :=
  discover (identified m s.config) m.dhcp

def greeting (m : Machine) : List RecordCall :=
  [phaseCall m .bootagentStart true 0, phaseCall m .dhcpDiscover true 0]

/-- The ways in which a run can end, with its exit code. -/
inductive Outcome (m : Machine) (s : Setup) : Int → Agent → Prop
  | stranded {c : Config} (lost : s.discovered m = some (false, c))
      (unreadable : (BootMeta.load s.disk (fallback c).localMetaPath).2 = false)
      (cache : BootMetaCache) (bb : Recorder) :
      Outcome m s (-1) (ended m (s.path m) ⟨fallback c, cache, s.disk, bb, []⟩
        [phaseCall m .bootagentStart true 0, phaseCall m .dhcpDiscover false 0]
        "dhcp_discover" "fail" 0 bb)
  | recovered {c : Config} (lost : s.discovered m = some (false, c))
      (readable : (BootMeta.load s.disk (fallback c).localMetaPath).2 = true)
      {cache : BootMetaCache} {disk : Disk}
      (fetched : Fetched m (fallback c) (BootMeta.load s.disk (fallback c).localMetaPath).1 s.disk
        cache disk) (bb : Recorder) :
      Outcome m s 0 (ended m (s.path m) ⟨fallback c, cache, disk, bb, []⟩
        (greeting m ++ phaseCall m .grpcRegister m.register.up 0 ::
          phaseCall m .chunkstreamDl true 0 :: completed m)
        "boot_complete" "success" m.totalMs bb)
  | booted {c : Config} (found : s.discovered m = some (true, c)) {cache : BootMetaCache}
      {disk : Disk} (fetched : Fetched m c newCache s.disk cache disk) (bb : Recorder) :
      Outcome m s 0 (ended m (s.path m) ⟨c, cache, disk, bb, []⟩
        (greeting m ++ phaseCall m .grpcRegister m.register.up 0 ::
          phaseCall m .chunkstreamDl true 0 :: completed m)
        "boot_complete" "success" m.totalMs bb)
  | bare {c : Config} (found : s.discovered m = some (true, c)) (unfetched : Unfetched m c s.disk)
      (cache : BootMetaCache) (bb : Recorder) :
      Outcome m s (-3) (ended m (s.path m) ⟨c, cache, s.disk, bb, []⟩
        (greeting m ++ [phaseCall m .grpcRegister m.register.up 0,
          phaseCall m .chunkstreamDl false 0])
        "download_bootmeta" "fail" 0 bb)

theorem macText_length (b0 b1 b2 b3 b4 b5 : UInt8) : (macText b0 b1 b2 b3 b4 b5).length = 17 := by
  have two : ∀ b : UInt8, (HexText.hexPadded .upper 2 b.toNat).length = 2 := by
    intro b
    rw [HexText.hexPadded_of_lt (by decide) (show b.toNat < 16 ^ 2 from b.toNat_lt),
      HexText.hexFixed_length]
  simp [macText, two]

theorem identified_reportable (m : Machine) (s : Setup) : Reportable (identified m s.config) := by
  have mac : (getMacAddress m.adapters s.config.macAddress).length ≤ 17 := by
    rw [s.noMac]
    unfold getMacAddress
    split
    · split
      · rw [macText_length]
      · exact Nat.zero_le 17
    · exact Nat.zero_le 17
  refine ⟨s.short, Nat.le_of_eq (uuid_length m.bootEntropy), ?_, mac⟩
  change (if _ then _ else _ : Bytes).length ≤ 36
  split
  · omega
  · exact Nat.le_of_eq (uuid_length m.machineEntropy)

theorem fallback_reportable {c : Config} (fits : Reportable c) : Reportable (fallback c) := by
  unfold fallback
  simp only
  split
  · exact ⟨fits.server, Nat.zero_le _, Nat.zero_le _, Nat.zero_le _⟩
  · exact ⟨Nat.zero_le _, Nat.zero_le _, Nat.zero_le _, Nat.zero_le _⟩

theorem discovered_reportable (m : Machine) (s : Setup) :
    ∃ found c, s.discovered m = some (found, c) ∧ Reportable c := by
  obtain ⟨found, c, done, -, server, same⟩ := discover_server (identified m s.config) m.dhcp
  have fits := identified_reportable m s
  refine ⟨found, c, done, ?_⟩
  rw [same]
  refine ⟨?_, fits.boot, fits.machine, fits.mac⟩
  rcases server with old | new
  · exact old ▸ fits.server
  · exact new.trans (by decide)

theorem logged_start (m : Machine) (s : Setup) :
    Logged m [] (initializeRecorder s.agent.bb m.ringAllocates m.startTime).1 := by
  unfold Logged
  split
  · rename_i ring
    rw [ring]
    exact recorded_start rfl m.startTime
  · rename_i none
    rw [Bool.not_eq_true] at none
    rw [none]
    rfl

theorem run_eq {m : Machine} {s : Setup} {found : Bool} {c : Config}
    (asked : s.discovered m = some (found, c)) :
    ∃ bb, run m s.agent = proceed m (s.path m) found ⟨c, newCache, s.disk, bb, []⟩ ∧
      Logged m [phaseCall m .bootagentStart true 0] bb := by
  obtain ⟨bb, recorded, now⟩ := record_logged
    { s.agent with
      bb := (initializeRecorder s.agent.bb m.ringAllocates m.startTime).1
      config := identified m s.agent.config } (logged_start m s) .bootagentStart true 0
  refine ⟨bb, ?_, now⟩
  have rest : run m s.agent = (s.discovered m).bind fun answer =>
      proceed m (s.path m) answer.1 ⟨answer.2, newCache, s.disk, bb, []⟩ := by
    unfold run
    simp only [recorded, Option.bind_eq_bind, Option.bind_some]
    rfl
  rw [rest, asked]
  rfl

theorem greeted_ends {m : Machine} (path : Path) (a : Agent)
    (logged : Logged m [phaseCall m .bootagentStart true 0] a.bb) (fits : Reportable a.config) :
    (∃ cache disk bb, Fetched m a.config a.cache a.disk cache disk ∧
      (recordBbPhase m .dhcpDiscover true 0 a).bind (registerAndFetch m path) =
        some (0, ended m path { a with cache := cache, disk := disk }
          (greeting m ++ phaseCall m .grpcRegister m.register.up 0 ::
            phaseCall m .chunkstreamDl true 0 :: completed m)
          "boot_complete" "success" m.totalMs bb)) ∨
    (Unfetched m a.config a.disk ∧ ∃ cache bb,
      (recordBbPhase m .dhcpDiscover true 0 a).bind (registerAndFetch m path) =
        some (-3, ended m path { a with cache := cache }
          (greeting m ++ [phaseCall m .grpcRegister m.register.up 0,
            phaseCall m .chunkstreamDl false 0])
          "download_bootmeta" "fail" 0 bb)) := by
  obtain ⟨noted, recorded, now⟩ := record_logged a logged .dhcpDiscover true 0
  rw [recorded, Option.bind_some]
  exact registered_ends path { a with bb := noted } now fits

theorem run_outcome (m : Machine) (s : Setup) :
    ∃ code after, run m s.agent = some (code, after) ∧ Outcome m s code after := by
  obtain ⟨found, c, asked, fits⟩ := discovered_reportable m s
  obtain ⟨bb, start, logged⟩ := run_eq asked
  rw [start]
  cases found with
  | true =>
    rcases greeted_ends (s.path m) ⟨c, newCache, s.disk, bb, []⟩ logged fits with
      ⟨cache, disk, bb, fetched, ends⟩ | ⟨unfetched, cache, bb, ends⟩
    · exact ⟨_, _, ends, .booted asked fetched bb⟩
    · exact ⟨_, _, ends, .bare asked unfetched cache bb⟩
  | false =>
    cases result : BootMeta.load s.disk (fallback c).localMetaPath with
    | mk cache ok =>
      have lost : proceed m (s.path m) false ⟨c, newCache, s.disk, bb, []⟩ =
          if ok = true then
            (recordBbPhase m .dhcpDiscover true 0 ⟨fallback c, cache, s.disk, bb, []⟩).bind
              (registerAndFetch m (s.path m))
          else
            halt m (s.path m) .dhcpDiscover "dhcp_discover" (-1)
              ⟨fallback c, cache, s.disk, bb, []⟩ := by
        simp [proceed, result]
      rw [lost]
      cases ok with
      | true =>
        -- The file that was read is still there, so the boot goes on.
        have readable : (BootMeta.load s.disk (fallback c).localMetaPath).2 = true :=
          congrArg Prod.snd result
        rcases greeted_ends (s.path m) ⟨fallback c, cache, s.disk, bb, []⟩ logged
          (fallback_reportable fits) with
          ⟨cache, disk, bb, fetched, ends⟩ | ⟨unfetched, -⟩
        · refine ⟨_, _, ends, .recovered asked readable ?_ bb⟩
          rw [result]
          exact fetched
        · exact absurd (readable.symm.trans unfetched.unreadable) (by decide)
      | false =>
        obtain ⟨bb, ends⟩ := halt_ends (s.path m) ⟨fallback c, cache, s.disk, bb, []⟩ logged
          (fallback_reportable fits) .dhcpDiscover "dhcp_discover" (by decide) (-1)
        exact ⟨_, _, ends, .stranded asked (congrArg Prod.snd result) cache bb⟩

theorem load_valid (disk : Disk) (path : Path) :
    (BootMeta.load disk path).1.valid = (BootMeta.load disk path).2 := by
  unfold BootMeta.load
  split
  · rfl
  · simp only
    split
    · rfl
    · split
      · rfl
      · rfl

theorem save_valid (cache : BootMetaCache) (disk : Disk) (path : Path) (opens : Bool)
    (outcome : WriteOutcome) (good : Bool) :
    (BootMeta.save cache disk path opens outcome good).1.valid = cache.valid := by
  unfold BootMeta.save
  split
  · rfl
  · rfl

theorem fetched_cases {m : Machine} {c : Config} {cache fetched : BootMetaCache}
    {disk written : Disk} (got : Fetched m c cache disk fetched written) :
    httpBody (metaConnection m c) = some true ∧ fetched = cache ∨
      httpBody (metaConnection m c) = some false ∧ fetched.valid = true ∧ ¬ Unfetched m c disk := by
  cases got with
  | http body => exact .inl ⟨body, rfl⟩
  | @rpc missing md delivers verified saved written good save =>
    have kept := save_valid ⟨md, true⟩ disk c.localMetaPath m.saveOpens m.saveOutcome m.saveGood
    rw [save] at kept
    exact .inr ⟨missing, kept, fun unfetched => unfetched.silent ⟨md, delivers, verified⟩⟩
  | cached missing silent loads =>
    refine .inr ⟨missing, (load_valid disk c.localMetaPath).trans loads, ?_⟩
    intro unfetched
    exact absurd (loads.symm.trans unfetched.unreadable) (by decide)

/-- The exit code of a run is -1 exactly when no server is discovered and the cached boot.meta
    cannot be used, -3 exactly when a server is discovered but neither it nor the cache has a
    boot.meta, and 0 otherwise: the checks behind -4 and -5 never fail. A boot completes without a
    valid boot.meta exactly when a body of any content came over HTTP from a discovered server. -/
theorem exit_codes (m : Machine) (s : Setup) :
    ∃ code after found c, run m s.agent = some (code, after) ∧ s.discovered m = some (found, c) ∧
      (code = 0 ∨ code = -1 ∨ code = -3) ∧
      (code = -1 ↔ found = false ∧ (BootMeta.load s.disk (fallback c).localMetaPath).2 = false) ∧
      (code = -3 ↔ found = true ∧ Unfetched m c s.disk) ∧
      (code = 0 → (after.cache.valid = false ↔ found = true ∧ httpBody (metaConnection m c) =
        some true)) := by
  obtain ⟨code, after, done, outcome⟩ := run_outcome m s
  cases outcome with
  | @stranded c lost unreadable cache bb =>
    exact ⟨_, _, false, c, done, lost, by decide, by simp [unreadable], by simp, by simp⟩
  | @recovered c lost readable cache disk fetched bb =>
    have valid : cache.valid = true := by
      rcases fetched_cases fetched with ⟨-, kept⟩ | ⟨-, valid, -⟩
      · rw [kept, load_valid, readable]
      · exact valid
    exact ⟨_, _, false, c, done, lost, by decide, by simp [readable], by simp,
      by simp [ended, valid]⟩
  | @booted c found cache disk fetched bb =>
    rcases fetched_cases fetched with ⟨body, kept⟩ | ⟨missing, valid, got⟩
    · have got : ¬ Unfetched m c s.disk := by
        intro unfetched
        simp [unfetched.missing] at body
      exact ⟨_, _, true, c, done, found, by decide, by simp, by simp [got],
        by simp [ended, kept, newCache, body]⟩
    · exact ⟨_, _, true, c, done, found, by decide, by simp, by simp [got],
        by simp [ended, valid, missing]⟩
  | @bare c found unfetched cache bb =>
    exact ⟨_, _, true, c, done, found, by decide, by simp, by simp [unfetched], by simp⟩

theorem main_returns {args : List Bytes} {c : Config} (given : mainConfig args = some c)
    (short : c.serverAddress.length ≤ 1700) (m : Machine) (disk : Disk) :
    main args m disk = some 0 ∨ main args m disk = some (-1) ∨ main args m disk = some (-3) := by
  have noMac : c.macAddress = [] := by
    rw [mainConfig, parseArgs_eq, fold_assign] at given
    split at given
    · cases given
      unfold adopt
      split
      · simp only
        split
        · rfl
        · rfl
      · rfl
    · cases given
  obtain ⟨code, after, done, outcome⟩ := run_outcome m ⟨c, disk, noMac, short⟩
  have returned : main args m disk = some code := by
    rw [main, given, Option.bind_eq_bind, Option.bind_some]
    change (run m (Setup.agent ⟨c, disk, noMac, short⟩)).bind _ = _
    rw [done]
    rfl
  rw [returned]
  cases outcome with
  | stranded lost unreadable cache bb => exact .inr (.inl rfl)
  | recovered lost readable fetched bb => exact .inl rfl
  | booted found fetched bb => exact .inl rfl
  | bare found unfetched cache bb => exact .inr (.inr rfl)

def runReport (m : Machine) (c : Config) (code : Int) : Bytes :=
  if code = 0 then jsonText c (ascii "boot_complete".toList) (ascii "success".toList) m.totalMs
  else jsonText c (ascii "download_bootmeta".toList) (ascii "fail".toList) 0

theorem reports_fallback (m : Machine) (c : Config) (phase result : String) (durationMs : UInt32) :
    reports m (fallback c) phase result durationMs = [] := by
  have cleared : (fallback c).bootId = [] := by
    unfold fallback
    simp only
    split
    · rfl
    · rfl
  rw [reports, if_neg fun ready => ready.2.1 cleared]

theorem reports_discovered {m : Machine} {s : Setup} {c : Config}
    (found : s.discovered m = some (true, c)) (phase result : String) (durationMs : UInt32) :
    reports m c phase result durationMs =
      let json := jsonText c (ascii phase.toList) (ascii result.toList) durationMs
      if m.report.up = true then [httpText c json.length json] else [] := by
  obtain ⟨answer, next, done, server, -, same⟩ := discover_server (identified m s.config) m.dhcp
  cases (Option.some.inj (found.symm.trans done))
  have boot : c.bootId ≠ [] := by
    rw [same]
    intro empty
    have length := uuid_length m.bootEntropy
    rw [show m.bootEntropy.uuid = [] from empty] at length
    cases length
  simp only [reports, server rfl, boot, ne_eq, not_false_eq_true, true_and]

/-- A run sends at most one report, whole and with the right length, and only for a discovered
    server: LoadFallbackConfig clears the boot id, so the report that the discovery failed is
    never sent, and neither is that of a boot that went on without a server. -/
theorem telemetry_of_run (m : Machine) (s : Setup) :
    ∃ code after found c, run m s.agent = some (code, after) ∧ s.discovered m = some (found, c) ∧
      after.sent = if found = true ∧ m.report.up = true then
        [httpText c (runReport m c code).length (runReport m c code)] else [] := by
  obtain ⟨code, after, done, outcome⟩ := run_outcome m s
  cases outcome with
  | @stranded c lost unreadable cache bb =>
    exact ⟨_, _, false, c, done, lost, reports_fallback m c _ _ _⟩
  | @recovered c lost readable cache disk fetched bb =>
    exact ⟨_, _, false, c, done, lost, reports_fallback m c _ _ _⟩
  | @booted c found cache disk fetched bb =>
    refine ⟨_, _, true, c, done, found, ?_⟩
    rw [show runReport m c 0 = _ from if_pos rfl]
    simp only [true_and]
    exact reports_discovered found _ _ _
  | @bare c found unfetched cache bb =>
    refine ⟨_, _, true, c, done, found, ?_⟩
    rw [show runReport m c (-3) = _ from if_neg (by decide)]
    simp only [true_and]
    exact reports_discovered found _ _ _

def verdicts (m : Machine) (code : Int) : List BbStatus :=
  let register := if m.register.up then .success else .fail
  if code = -1 then [.success, .fail]
  else if code = -3 then [.success, .success, register, .fail]
  else [.success, .success, register, .success, .success, .success]

theorem outcome_flushed {m : Machine} {s : Setup} {code : Int} {after : Agent}
    (outcome : Outcome m s code after) :
    ∃ calls disk, after.disk = flushed m (s.path m) calls disk ∧ calls.length ≤ 6 ∧
      calls.map (·.status) = verdicts m code := by
  cases outcome with
  | stranded lost unreadable cache bb => exact ⟨_, _, rfl, by simp, rfl⟩
  | recovered lost readable fetched bb => exact ⟨_, _, rfl, by simp [greeting, completed], rfl⟩
  | booted found fetched bb => exact ⟨_, _, rfl, by simp [greeting, completed], rfl⟩
  | bare found unfetched cache bb => exact ⟨_, _, rfl, by simp [greeting], rfl⟩

theorem analyze_flushed {m : Machine} (path : Path) {calls : List RecordCall} (disk : Disk)
    (ring : m.ringAllocates = true) (opens : m.flushOpens = true) (whole : m.flushOutcome = .full)
    (few : calls.length ≤ maxEntries) :
    ∃ analysis, analyzeBlackBox (flushed m path calls disk) path = .ok analysis ∧
      analysis.crcMatches = true ∧
      analysis.timeline.map (·.status) = (calls.map (·.status)).map some := by
  have all : kept m.startTime calls = calls.map (entryOf m.startTime) :=
    List.take_of_length_le (by rwa [List.length_map])
  have small : (kept m.startTime calls).length < 2 ^ 32 := by
    have fits := kept_fits m.startTime calls
    omega
  have file : flushed m path calls disk path = some (fileOf m calls) := by
    simp [flushed, ring, opens, whole, Disk.put, WriteOutcome.count]
  refine ⟨_, analyze_written _ _ _ rfl ?_ file, ?_, ?_⟩
  · exact UInt32.toNat_ofNat_of_lt' small
  · exact beq_self_eq_true _
  · simp only [Analysis.timeline, all, List.map_map]
    apply List.map_congr_left
    intro c _
    exact statusOf_code c.status

/-- With memory for the ring and a file that can be written, every run leaves a black box in a file
    named after its boot id. It analyzes without an error and shows exactly how the run ended: the
    exit code can be told from its entries, and the last one failed unless the code is 0. -/
theorem black_box_of_run (m : Machine) (s : Setup) (ring : m.ringAllocates = true)
    (opens : m.flushOpens = true) (whole : m.flushOutcome = .full) :
    ∃ code after analysis, run m s.agent = some (code, after) ∧
      analyzeBlackBox after.disk (s.path m) = .ok analysis ∧ analysis.crcMatches = true ∧
      analysis.timeline.map (·.status) = (verdicts m code).map some := by
  obtain ⟨code, after, done, outcome⟩ := run_outcome m s
  obtain ⟨calls, disk, flushed, few, statuses⟩ := outcome_flushed outcome
  obtain ⟨analysis, analyzed, crc, shown⟩ := analyze_flushed (s.path m) disk ring opens whole
    (few.trans (show 6 ≤ maxEntries by decide))
  rw [← flushed] at analyzed
  rw [statuses] at shown
  exact ⟨code, after, analysis, done, analyzed, crc, shown⟩

def offer : Bytes := 2 :: List.replicate 239 0 ++ [54, 4, 10, 0, 0, 1, 255]

def servedMachine : Machine where
  ringAllocates := true
  startTime := 5
  now := fun _ => 7
  adapters := none
  bootEntropy := ⟨none, 1⟩
  machineEntropy := ⟨none, 2⟩
  dhcp := ⟨true, true, true, true, some offer, by decide +kernel⟩
  register := ⟨true, true, false⟩
  http := ⟨false, true, true, true, ⟨[blankLine, [1]], by decide⟩⟩
  exchange :=
    ⟨false, false, false, false, [], Nat.zero_le _, zeroChars 65, zeroChars 65536, zeroChars 65536⟩
  saveOpens := false
  saveOutcome := .failed
  saveGood := false
  report := ⟨true, true, true⟩
  buffers := ⟨Vector.replicate 1024 0, Vector.replicate 2048 0⟩
  totalMs := 1234
  flushOpens := true
  flushOutcome := .full
  endTime := 9

def bareSetup : Setup := ⟨{}, fun _ => none, rfl, Nat.zero_le _⟩

theorem served_black_box :
    ∃ after analysis, run servedMachine bareSetup.agent = some (0, after) ∧
      analyzeBlackBox after.disk (bareSetup.path servedMachine) = .ok analysis ∧
      analysis.crcMatches = true ∧
      analysis.timeline.map (·.status) =
        [some .success, some .success, some .fail, some .success, some .success,
          some .success] := by
  obtain ⟨code, after, analysis, done, analyzed, crc, shown⟩ :=
    black_box_of_run servedMachine bareSetup rfl rfl rfl
  obtain ⟨code', after', again, outcome⟩ := run_outcome servedMachine bareSetup
  rw [done] at again
  cases again
  have served : (bareSetup.discovered servedMachine).map
      (fun answer => (answer.1, httpBody (metaConnection servedMachine answer.2))) =
      some (true, some true) := by decide +kernel
  have boots : code = 0 := by
    cases outcome with
    | stranded lost unreadable cache bb => simp [lost] at served
    | recovered lost readable fetched bb => rfl
    | booted found fetched bb => rfl
    | bare found unfetched cache bb => simp [found, unfetched.missing] at served
  rw [boots] at done shown
  exact ⟨after, analysis, done, analyzed, crc, shown⟩

end BootRuns
