import Mathlib.Data.List.DropRight
import HyperDisk.Blackbox.BlackBoxFiles
import HyperDisk.BootAgent.BootIdentity
import HyperDisk.BootAgent.DhcpDiscover
import HyperDisk.BootAgent.HttpBody
import HyperDisk.BootAgent.Telemetry
import HyperDisk.BootAgent.VerifiedMeta

/- Run of the boot agent as a whole: from the black box and the ids over discovery, registration and
   boot.meta to the exit code. The log on COM1 is left out. `none` is an access outside a buffer. -/
namespace BootSequence
open LittleEndian DecimalText FileImages BlackBoxRecorder BlackBoxFiles BootIdentity BootConfig
  DhcpDiscover
open BootMeta VerifiedMeta HttpBody Telemetry PackedFields PackedRecords

inductive BootPhase where
  | pxeStart
  | ipxeStart
  | bootagentStart
  | dhcpDiscover
  | grpcRegister
  | chunkstreamDl
  | integrityCheck
  | winpeStart
  | bootdiagRun
  deriving DecidableEq, Repr

def bbPhase : BootPhase → BbPhase
  | .pxeStart => .pxe
  | .ipxeStart => .ipxe
  | .bootagentStart => .bootagent
  | .dhcpDiscover => .bootagent
  | .grpcRegister => .bootagent
  | .chunkstreamDl => .bootagent
  | .integrityCheck => .bootagent
  | .winpeStart => .winpe
  | .bootdiagRun => .bootdiag

/-- Everything that happens to a run from outside. No phase is recorded twice, so a phase has one
    time. -/
structure Machine where
  ringAllocates : Bool
  startTime : UInt64
  now : BootPhase → UInt64
  adapters : Option (List Adapter)
  bootEntropy : Entropy
  machineEntropy : Entropy
  dhcp : Network
  register : Uplink
  http : MetaConnection
  exchange : Exchange
  saveOpens : Bool
  saveOutcome : WriteOutcome
  saveGood : Bool
  report : Uplink
  buffers : Buffers
  totalMs : UInt32
  flushOpens : Bool
  flushOutcome : WriteOutcome
  endTime : UInt64

structure Agent where
  config : Config
  cache : BootMetaCache
  disk : Disk
  bb : Recorder
  sent : List Bytes

def phaseCall (m : Machine) (phase : BootPhase) (success : Bool) (latencyUs : UInt16) :
    RecordCall :=
  ⟨bbPhase phase, 0, 0, 0, if success then .success else .fail, latencyUs, m.now phase⟩

def recordBbPhase (m : Machine) (phase : BootPhase) (success : Bool) (latencyUs : UInt16)
    (a : Agent) : Option Agent := do
  let bb ← record a.bb (phaseCall m phase success latencyUs)
  some { a with bb := bb }

def report (m : Machine) (phase result : String) (durationMs : UInt32) (a : Agent) :
    Option Agent := do
  let (_, sent) ← reportTelemetry m.buffers m.report a.config (ascii phase.toList)
      (ascii result.toList) durationMs
  some { a with sent := a.sent ++ sent.toList }

def flush (m : Machine) (bbPath : Path) (a : Agent) : Option Agent := do
  let (disk, _) ← flushToDisk a.bb a.disk bbPath m.flushOpens m.flushOutcome m.endTime
  some { a with disk := disk }

def halt (m : Machine) (bbPath : Path) (phase : BootPhase) (name : String) (code : Int)
    (a : Agent) : Option (Int × Agent) := do
  let a ← recordBbPhase m phase false 0 a
  let a ← report m name "fail" 0 a
  let a ← flush m bbPath a
  some (code, a)

/-- A mismatch is accepted. -/
def verifyIntegrity (cache : BootMetaCache) : Int := if cache.valid then 0 else 0

def initializeVirtualDisk : Int := 0

def transferControl : Int := 0

def finish (m : Machine) (bbPath : Path) (a : Agent) : Option (Int × Agent) :=
  if verifyIntegrity a.cache ≠ 0 then halt m bbPath .integrityCheck "verify_integrity" (-4) a
  else do
    let a ← recordBbPhase m .integrityCheck true 0 a
    if initializeVirtualDisk ≠ 0 then halt m bbPath .winpeStart "init_vdisk" (-5) a
    else do
      let a ← report m "boot_complete" "success" m.totalMs a
      let a ← recordBbPhase m .winpeStart true (if 65535 < m.totalMs then 65535
          else m.totalMs.toUInt16) a
      let a ← flush m bbPath a
      some (transferControl, a)

def fetchMeta (m : Machine) (bbPath : Path) (a : Agent) : Option (Int × Agent) := do
  let (code, cache, disk) ← downloadBootMeta
      { m.http with serverGiven := a.config.primaryServer ≠ [] } m.exchange
    a.cache a.disk a.config.localMetaPath m.saveOpens m.saveOutcome m.saveGood
  let a := { a with cache := cache, disk := disk }
  if code ≠ 0 then
    let (cache, loaded) := BootMeta.load a.disk a.config.localMetaPath
    let a := { a with cache := cache }
    if loaded then do
      let a ← recordBbPhase m .chunkstreamDl true 0 a
      finish m bbPath a
    else halt m bbPath .chunkstreamDl "download_bootmeta" (-3) a
  else do
    let a ← recordBbPhase m .chunkstreamDl true 0 a
    finish m bbPath a

/-- Run from RegisterTerminal on, which only tries to connect. -/
def registerAndFetch (m : Machine) (bbPath : Path) (a : Agent) : Option (Int × Agent) := do
  let a ← recordBbPhase m .grpcRegister m.register.up 0 a
  fetchMeta m bbPath a

def identified (m : Machine) (c : Config) : Config :=
  let mac := getMacAddress m.adapters c.macAddress
  let ids := generateBootId mac m.bootEntropy m.machineEntropy
  { c with macAddress := mac, bootId := ids.1, machineId := ids.2 }

def bbDir (path : Path) : Path :=
  if path.any fun b => b == 92 || b == 47 then path.rdropWhile fun b => !(b == 92 || b == 47)
  else path

def bbPath (c : Config) : Path :=
  bbDir c.blackboxPath ++ ascii "boot_".toList ++ c.bootId ++ ascii ".bin".toList

def proceed (m : Machine) (bbPath : Path) (found : Bool) (a : Agent) : Option (Int × Agent) :=
  if ¬ found then
    let a := { a with config := fallback a.config }
    let (cache, loaded) := BootMeta.load a.disk a.config.localMetaPath
    let a := { a with cache := cache }
    if loaded then do
      let a ← recordBbPhase m .dhcpDiscover true 0 a
      registerAndFetch m bbPath a
    else halt m bbPath .dhcpDiscover "dhcp_discover" (-1) a
  else do
    let a ← recordBbPhase m .dhcpDiscover true 0 a
    registerAndFetch m bbPath a

def run (m : Machine) (a : Agent) : Option (Int × Agent) := do
  let a :=
    { a with
      bb := (initializeRecorder a.bb m.ringAllocates m.startTime).1
      config := identified m a.config }
  let path := bbPath a.config
  let a ← recordBbPhase m .bootagentStart true 0 a
  let (found, config) ← discover a.config m.dhcp
  proceed m path found { a with config := config }

def main (args : List Bytes) (m : Machine) (disk : Disk) : Option Int := do
  let config ← mainConfig args
  let (code, _) ← run m ⟨config, newCache, disk, newRecorder, []⟩
  some code

end BootSequence
