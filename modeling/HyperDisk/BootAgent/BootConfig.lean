import HyperDisk.Foundations.DecimalText

/- The configuration of the boot agent: its defaults, what the command line makes of it, and the
   fallback. `none` is the exception std::stoi throws, which ends the program. -/
namespace BootConfig
open LittleEndian DecimalText

structure Config where
  serverAddress : Bytes := []
  serverPort : UInt16 := 8080
  bootScriptUrl : Bytes := []
  imageName : Bytes := []
  primaryServer : Bytes := []
  primaryPort : UInt16 := 9527
  metaServerAddress : Bytes := []
  metaServerPort : UInt16 := 50051
  terminalId : Bytes := []
  localMetaPath : Bytes := ascii "C:\\HyperDisk\\boot.meta".toList
  blackboxPath : Bytes := ascii "C:\\HyperDisk\\blackbox\\boot.bin".toList
  bootId : Bytes := []
  machineId : Bytes := []
  macAddress : Bytes := []
  deriving DecidableEq, Repr

inductive Key where
  | server
  | port
  | metaServer
  | image
  | terminal
  deriving DecidableEq, Repr

def Key.word : Key → Bytes
  | .server => ascii "server".toList
  | .port => ascii "port".toList
  | .metaServer => ascii "meta".toList
  | .image => ascii "image".toList
  | .terminal => ascii "terminal".toList

def Key.dashed (key : Key) : Bytes := ascii "--".toList ++ key.word

def keyOf (arg : Bytes) : Option Key :=
  [Key.server, .port, .metaServer, .image, .terminal].find? fun key => arg = key.word ∨
    arg = key.dashed

def readPort (value : Bytes) : Option UInt16 := (stoi value).map UInt16.ofInt

def assign (c : Config) : Key × Bytes → Option Config
  | (.server, value) => some { c with serverAddress := value }
  | (.port, value) => do
    let port ← readPort value
    some { c with serverPort := port }
  | (.metaServer, value) => some { c with metaServerAddress := value }
  | (.image, value) => some { c with imageName := value }
  | (.terminal, value) => some { c with terminalId := value }

def parseArgs : List Bytes → Config → Option Config
  | [], c => some c
  | arg :: rest, c =>
    match keyOf arg with
    | none => parseArgs rest c
    | some key =>
      match rest with
      | [] => assign c (key, [])
      | value :: rest => do
        let c ← assign c (key, value)
        parseArgs rest c

def adopt (c : Config) : Config :=
  if c.serverAddress ≠ [] then
    let c := { c with primaryServer := c.serverAddress, primaryPort := 80 }
    if c.metaServerAddress = [] then
      { c with metaServerAddress := c.serverAddress, metaServerPort := c.serverPort }
    else c
  else c

def mainConfig (args : List Bytes) : Option Config := do
  let c ← parseArgs args {}
  some (adopt c)

def fallback (saved : Config) : Config :=
  let c : Config :=
    { primaryServer := ascii "10.10.200.10".toList
      primaryPort := 9527
      metaServerAddress := ascii "10.10.300.10".toList
      metaServerPort := 50051 }
  if saved.serverAddress ≠ [] then
    { c with serverAddress := saved.serverAddress, serverPort := saved.serverPort }
  else c

/-- The settings that a command line spells, whatever their values look like. -/
def settings : List Bytes → List (Key × Bytes)
  | [] => []
  | arg :: rest =>
    match keyOf arg with
    | none => settings rest
    | some key =>
      match rest with
      | [] => [(key, [])]
      | value :: rest => (key, value) :: settings rest

def given (key : Key) : List (Key × Bytes) → Option Bytes
  | [] => none
  | setting :: rest => (given key rest).or (if setting.1 = key then some setting.2 else none)

def configured (c : Config) (l : List (Key × Bytes)) : Config :=
  { c with
    serverAddress := (given .server l).getD c.serverAddress
    serverPort := ((given .port l).bind readPort).getD c.serverPort
    metaServerAddress := (given .metaServer l).getD c.metaServerAddress
    imageName := (given .image l).getD c.imageName
    terminalId := (given .terminal l).getD c.terminalId }

def Readable (l : List (Key × Bytes)) : Prop :=
  ∀ setting ∈ l, setting.1 = .port → (readPort setting.2).isSome

instance (l : List (Key × Bytes)) : Decidable (Readable l) :=
  inferInstanceAs (Decidable (∀ setting ∈ l, setting.1 = .port → (readPort setting.2).isSome))

theorem parseArgs_eq (args : List Bytes) (c : Config) :
    parseArgs args c = (settings args).foldlM assign c := by
  induction args, c using parseArgs.induct with
  | case1 c => rfl
  | case2 arg rest c unknown ih =>
    rw [parseArgs, settings, unknown]
    exact ih
  | case3 arg c key known =>
    rw [parseArgs, settings, known]
    simp
  | case4 arg c key known value rest ih =>
    rw [parseArgs, settings, known]
    simp only [List.foldlM_cons]
    apply bind_congr
    exact ih

theorem given_mem {key : Key} {value : Bytes} {l : List (Key × Bytes)}
    (last : given key l = some value) : (key, value) ∈ l := by
  induction l with
  | nil => cases last
  | cons setting rest ih =>
    rw [given, Option.or_eq_some_iff] at last
    rcases last with later | ⟨-, here⟩
    · exact List.mem_cons_of_mem _ (ih later)
    · split at here
      · rename_i same
        cases here
        rw [← same]
        exact List.mem_cons_self
      · cases here

theorem given_cons (key : Key) (setting : Key × Bytes) (rest : List (Key × Bytes))
    (default : Bytes) :
    (given key (setting :: rest)).getD default =
      (given key rest).getD (if setting.1 = key then setting.2 else default) := by
  rw [given]
  cases given key rest with
  | some value => rfl
  | none =>
    split
    · rfl
    · rfl

theorem configured_cons {c next : Config} {setting : Key × Bytes} {rest : List (Key × Bytes)}
    (assigned : assign c setting = some next) (readable : Readable rest) :
    configured next rest = configured c (setting :: rest) := by
  obtain ⟨key, value⟩ := setting
  have ports : ((given .port ((key, value) :: rest)).bind readPort).getD c.serverPort =
      ((given .port rest).bind readPort).getD
        (if key = .port then (readPort value).getD c.serverPort else c.serverPort) := by
    rw [given]
    cases last : given .port rest with
    | none =>
      split
      · rfl
      · rfl
    | some later =>
      obtain ⟨port, read⟩ := Option.isSome_iff_exists.mp (readable _ (given_mem last) rfl)
      simp [read]
  unfold configured
  rw [ports, given_cons, given_cons, given_cons, given_cons]
  cases key with
  | port =>
    rw [assign] at assigned
    cases read : readPort value with
    | none => simp [read] at assigned
    | some port =>
      simp only [read, Option.bind_eq_bind, Option.bind_some, Option.some.injEq] at assigned
      subst assigned
      rfl
  | server => cases assigned; rfl
  | metaServer => cases assigned; rfl
  | image => cases assigned; rfl
  | terminal => cases assigned; rfl

theorem assign_isSome (c : Config) (setting : Key × Bytes) :
    (assign c setting).isSome ↔ (setting.1 = .port → (readPort setting.2).isSome) := by
  obtain ⟨key, value⟩ := setting
  cases key with
  | port =>
    rw [assign]
    cases readPort value with
    | none => simp
    | some port => simp
  | server => simp [assign]
  | metaServer => simp [assign]
  | image => simp [assign]
  | terminal => simp [assign]

theorem fold_assign (l : List (Key × Bytes)) (c : Config) :
    l.foldlM assign c = if Readable l then some (configured c l) else none := by
  induction l generalizing c with
  | nil => rfl
  | cons setting rest ih =>
    have readable : Readable (setting :: rest) ↔ (assign c setting).isSome ∧ Readable rest := by
      rw [assign_isSome]
      exact List.forall_mem_cons
    rw [List.foldlM_cons]
    cases assigned : assign c setting with
    | none =>
      rw [if_neg (by simp [readable, assigned])]
      rfl
    | some next =>
      rw [Option.bind_eq_bind, Option.bind_some, ih]
      by_cases others : Readable rest
      · rw [if_pos others, if_pos (by simp [readable, assigned, others]),
          configured_cons assigned others]
      · rw [if_neg others, if_neg (by simp [readable, others])]

theorem settings_spelled {spell : Key → Bytes} (known : ∀ key, keyOf (spell key) = some key)
    (l : List (Key × Bytes)) :
    settings (l.flatMap fun setting => [spell setting.1, setting.2]) = l := by
  induction l with
  | nil => rfl
  | cons setting rest ih =>
    rw [List.flatMap_cons, List.cons_append, List.cons_append, settings, known]
    exact congrArg _ ih

/-- The agent starts with the last value of every setting on the command line and the defaults of
    the others, with the server as the first choice for the image and the metadata; it does not
    start if one of the ports is no number, also if a later one is. Every list of settings can be
    given, with dashes or without, and a value may look like another setting. -/
theorem command_line :
    (∀ args, mainConfig args =
      if Readable (settings args) then some (adopt (configured {} (settings args))) else none) ∧
    ∀ l : List (Key × Bytes),
      settings (l.flatMap fun setting => [setting.1.dashed, setting.2]) = l ∧
      settings (l.flatMap fun setting => [setting.1.word, setting.2]) = l := by
  constructor
  · intro args
    rw [mainConfig, parseArgs_eq, fold_assign]
    split
    · rfl
    · rfl
  · intro l
    constructor
    · apply settings_spelled
      intro key
      cases key <;> decide
    · apply settings_spelled
      intro key
      cases key <;> decide

end BootConfig
