import Mathlib.Data.Fintype.Basic
import HyperDisk.BootDiag.DiagChecks
import HyperDisk.Foundations.WordCounters

/- The main function of bootdiag: the command line, the retries of the seven checks and the gate
   that its exit code is. A check is the sequence of results it returns on its attempts. -/
namespace BootGate
open LittleEndian DecimalText DiagChecks

inductive OutputTarget where
  | com1
  | console
  | file
  deriving DecidableEq, Repr

structure Options where
  devicePath : Bytes
  serverAddr : Bytes
  serverPort : UInt16
  timeoutSec : UInt32
  outputTarget : OutputTarget
  logPath : Bytes
  verbose : Bool
  skipChecks : Fin 7 → Bool
  retryCount : UInt32

def defaults : Options where
  devicePath := text "\\\\.\\HyperDisk0"
  serverAddr := text "10.10.200.10"
  serverPort := 9527
  timeoutSec := 30
  outputTarget := .console
  logPath := text "C:\\HyperDisk\\diag\\bootdiag.log"
  verbose := false
  skipChecks := fun _ => false
  retryCount := 0

/-- The C function; what it returns for a number that no int can hold is up to the library. -/
def atoi (overflow : Bytes → Int32) (s : Bytes) : Int32 :=
  let (negative, rest) := splitSign (s.dropWhile isSpace)
  let value := digitsValue (rest.takeWhile isDigit)
  let n : Int := if negative then -value else value
  if -2147483648 ≤ n ∧ n ≤ 2147483647 then Int32.ofInt n else overflow s

def valueOf (name : String) (arg : Bytes) : Option Bytes :=
  if arg.take (text name).length = text name then some (arg.drop (text name).length) else none

/-- The checks named in a list; strtok passes over empty parts, and the buffer holds 63
    characters. -/
def skipIds (overflow : Bytes → Int32) (value : Bytes) : List Int32 :=
  (((value.take 63).splitOn 44).filter (· ≠ [])).map (atoi overflow)

def outputTarget (old : OutputTarget) (value : Bytes) : OutputTarget :=
  if value = text "com1" then .com1
  else if value = text "console" then .console
  else if value = text "file" then .file
  else old

def parseArg (overflow : Bytes → Int32) (o : Options) (arg : Bytes) : Option Options :=
  if let some v := valueOf "--device=" arg then some { o with devicePath := v.take 255 }
  else if let some v := valueOf "--server=" arg then some { o with serverAddr := v.take 63 }
  else if let some v := valueOf "--port=" arg then
    some { o with serverPort := (atoi overflow v).toUInt32.toUInt16 }
  else if let some v := valueOf "--timeout=" arg then
    some { o with timeoutSec := (atoi overflow v).toUInt32 }
  else if let some v := valueOf "--output=" arg then
    some { o with outputTarget := outputTarget o.outputTarget v }
  else if let some v := valueOf "--log=" arg then some { o with logPath := v.take 259 }
  else if arg = text "--verbose" then some { o with verbose := true }
  else if let some v := valueOf "--skip=" arg then
    some { o with
      skipChecks := fun i =>
        o.skipChecks i || (skipIds overflow v).any fun id => id.toInt = (i.val : Int) + 1 }
  else if let some v := valueOf "--retry=" arg then
    some { o with retryCount := (atoi overflow v).toUInt32 }
  else if arg = text "--help" then none
  else some o

def parseArgs (overflow : Bytes → Int32) : Options → List Bytes → Option Options
  | o, [] => some o
  | o, arg :: rest => do
    let o ← parseArg overflow o arg
    parseArgs overflow o rest

def checkLoop (outcome : Nat → UInt32) (retryCount : UInt32) : Nat → UInt32 → Option UInt32
  | 0, _ => none
  | fuel + 1, attempt =>
    let checkResult := outcome attempt.toNat
    if checkResult ≠ resultPass ∧ attempt + 1 ≤ retryCount then
      checkLoop outcome retryCount fuel (attempt + 1)
    else some checkResult

def runCheck (outcome : Nat → UInt32) (retryCount : UInt32) : Option UInt32 :=
  checkLoop outcome retryCount (retryCount.toNat + 1) 0

structure Context where
  results : Fin 7 → UInt8
  totalPass : UInt32
  totalFail : UInt32
  totalSkip : UInt32

def newContext : Context := ⟨fun _ => 0, 0, 0, 0⟩

def Context.record (c : Context) (i : Fin 7) (result : UInt8) : Context :=
  { c with results := fun j => if j = i then result else c.results j }

def checkStep (o : Options) (outcome : Fin 7 → Nat → UInt32) (c : Context) (i : Fin 7) :
    Option Context :=
  if o.skipChecks i then
    some { c.record i resultSkip.toUInt8 with totalSkip := c.totalSkip + 1 }
  else do
    let checkResult ← runCheck (outcome i) o.retryCount
    if checkResult = resultPass then
      some { c.record i checkResult.toUInt8 with totalPass := c.totalPass + 1 }
    else some { c.record i checkResult.toUInt8 with totalFail := c.totalFail + 1 }

def runChecks (o : Options) (outcome : Fin 7 → Nat → UInt32) :
    List (Fin 7) → Context → Option Context
  | [], c => some c
  | i :: rest, c => do
    let c ← checkStep o outcome c i
    runChecks o outcome rest c

def bootdiagCriticalFailCount (c : Context) : Nat :=
  (List.finRange 7).countP fun i => i.val < 3 ∧ c.results i = resultFail.toUInt8

def bootdiagGateCheck (c : Context) : Nat := if 0 < bootdiagCriticalFailCount c then 1 else 0

/-- The exit code of main; `none` if 2^32 attempts do not end a check. -/
def main (overflow : Bytes → Int32) (args : List Bytes) (outcome : Fin 7 → Nat → UInt32) :
    Option Nat :=
  match parseArgs overflow defaults args with
  | none => some 0
  | some o => (runChecks o outcome (List.finRange 7) newContext).map bootdiagGateCheck

def LastAttempt (outcome : Nat → UInt32) (retryCount : UInt32) (n : Nat) : Prop :=
  n ≤ retryCount.toNat ∧ (∀ k < n, outcome k ≠ resultPass) ∧
    (outcome n = resultPass ∨ n = retryCount.toNat)

theorem lastAttempt_unique {outcome : Nat → UInt32} {retryCount : UInt32} {m n : Nat}
    (first : LastAttempt outcome retryCount m) (second : LastAttempt outcome retryCount n) :
    m = n := by
  obtain ⟨bound, before, ends⟩ := first
  obtain ⟨bound', before', ends'⟩ := second
  by_contra differ
  rcases Nat.lt_or_gt_of_ne differ with less | more
  · rcases ends with pass | last
    · exact before' m less pass
    · omega
  · rcases ends' with pass | last
    · exact before n more pass
    · omega

theorem checkLoop_last {outcome : Nat → UInt32} {retryCount : UInt32}
    (bounded : retryCount.toNat < 2 ^ 32 - 1) {fuel : Nat} {attempt : UInt32}
    (started : attempt.toNat ≤ retryCount.toNat) (enough : retryCount.toNat < attempt.toNat + fuel)
    (before : ∀ k < attempt.toNat, outcome k ≠ resultPass) :
    ∃ n, checkLoop outcome retryCount fuel attempt = some (outcome n) ∧
      LastAttempt outcome retryCount n := by
  induction fuel generalizing attempt with
  | zero => omega
  | succ fuel ih =>
    have next : (attempt + 1).toNat = attempt.toNat + 1 := WordCounters.succ_of_room (by omega)
    unfold checkLoop
    dsimp only
    split
    · rename_i again
      obtain ⟨failed, allowed⟩ := again
      rw [UInt32.le_iff_toNat_le, next] at allowed
      apply ih
      · omega
      · omega
      · intro k below
        rw [next] at below
        rcases Nat.lt_succ_iff_lt_or_eq.mp below with less | same
        · exact before k less
        · rw [same]
          exact failed
    · rename_i ended
      refine ⟨attempt.toNat, rfl, started, before, ?_⟩
      rw [UInt32.le_iff_toNat_le, next] at ended
      by_cases pass : outcome attempt.toNat = resultPass
      · exact Or.inl pass
      · right
        have spent : ¬ attempt.toNat + 1 ≤ retryCount.toNat := fun allowed => ended ⟨pass, allowed⟩
        omega

theorem runCheck_last (outcome : Nat → UInt32) {retryCount : UInt32}
    (bounded : retryCount.toNat < 2 ^ 32 - 1) :
    ∃ n, runCheck outcome retryCount = some (outcome n) ∧ LastAttempt outcome retryCount n := by
  apply checkLoop_last bounded
  · exact Nat.zero_le _
  · rw [show (0 : UInt32).toNat = 0 from rfl]
    omega
  · intro k below
    exact absurd below (Nat.not_lt_zero k)

section Checks
variable {o : Options} {outcome : Fin 7 → Nat → UInt32}

inductive Recorded (o : Options) (outcome : Fin 7 → Nat → UInt32) (i : Fin 7) : UInt8 → Prop where
  | skipped (skip : o.skipChecks i = true) : Recorded o outcome i resultSkip.toUInt8
  | executed (run : o.skipChecks i = false) (n : Nat)
      (last : LastAttempt (outcome i) o.retryCount n) :
      Recorded o outcome i (outcome i n).toUInt8

theorem checkStep_records (bounded : o.retryCount.toNat < 2 ^ 32 - 1) (c : Context) (i : Fin 7) :
    ∃ c' result, checkStep o outcome c i = some c' ∧ Recorded o outcome i result ∧
      c'.results = fun j => if j = i then result else c.results j := by
  unfold checkStep
  split
  · rename_i skip
    exact ⟨_, _, rfl, .skipped skip, rfl⟩
  · rename_i run
    obtain ⟨n, done, last⟩ := runCheck_last (outcome i) bounded
    rw [done, Option.bind_eq_bind, Option.bind_some]
    refine ⟨_, _, (apply_ite some _ _ _).symm, .executed (by simpa using run) n last, ?_⟩
    split <;> rfl

theorem runChecks_records (bounded : o.retryCount.toNat < 2 ^ 32 - 1) (checks : List (Fin 7))
    (c : Context) :
    ∃ c', runChecks o outcome checks c = some c' ∧
      ∀ i, (i ∈ checks → Recorded o outcome i (c'.results i)) ∧
        (i ∉ checks → c'.results i = c.results i) := by
  induction checks generalizing c with
  | nil =>
    refine ⟨c, rfl, ?_⟩
    intro i
    exact ⟨fun member => absurd member List.not_mem_nil, fun _ => rfl⟩
  | cons j rest ih =>
    obtain ⟨c₁, result, stepped, recorded, results⟩ := checkStep_records bounded c j
    obtain ⟨c', ran, later⟩ := ih c₁
    refine ⟨c', by rw [runChecks, stepped]; exact ran, ?_⟩
    intro i
    by_cases again : i ∈ rest
    · exact ⟨fun _ => (later i).1 again, fun absent => absurd (List.mem_cons_of_mem j again) absent⟩
    · rw [(later i).2 again, results]
      constructor
      · intro member
        have same : i = j := (List.mem_cons.mp member).resolve_right again
        subst same
        simpa using recorded
      · intro absent
        have other : i ≠ j := by
          intro same
          exact absent (same ▸ List.mem_cons_self)
        exact if_neg other

end Checks

theorem critical_fail_iff (c : Context) :
    0 < bootdiagCriticalFailCount c ↔ ∃ i : Fin 7, i.val < 3 ∧
      c.results i = resultFail.toUInt8 := by
  unfold bootdiagCriticalFailCount
  rw [List.countP_pos_iff]
  constructor
  · rintro ⟨i, _, failed⟩
    exact ⟨i, of_decide_eq_true failed⟩
  · rintro ⟨i, failed⟩
    exact ⟨i, List.mem_finRange i, decide_eq_true failed⟩

def Verified (o : Options) (outcome : Fin 7 → Nat → UInt32) (i : Fin 7) : Prop :=
  o.skipChecks i = false ∧ ∃ n, LastAttempt (outcome i) o.retryCount n ∧ outcome i n = resultPass

/-- The check was run, and the low byte of its last result is that of a failure. -/
def Blocks (o : Options) (outcome : Fin 7 → Nat → UInt32) (i : Fin 7) : Prop :=
  o.skipChecks i = false ∧
    ∃ n, LastAttempt (outcome i) o.retryCount n ∧ (outcome i n).toUInt8 = resultFail.toUInt8

theorem recorded_fail_iff {o : Options} {outcome : Fin 7 → Nat → UInt32} {i : Fin 7}
    {result : UInt8} (recorded : Recorded o outcome i result) :
    result = resultFail.toUInt8 ↔ Blocks o outcome i := by
  cases recorded with
  | skipped skip =>
    apply iff_of_false
    · decide
    · rintro ⟨run, _⟩
      rw [skip] at run
      cases run
  | executed run n last =>
    constructor
    · intro failed
      exact ⟨run, n, last, failed⟩
    · rintro ⟨_, m, last', failed⟩
      rw [lastAttempt_unique last last']
      exact failed

theorem parseArg_some (overflow : Bytes → Int32) (o : Options) {arg : Bytes}
    (other : arg ≠ text "--help") : ∃ o', parseArg overflow o arg = some o' := by
  unfold parseArg
  repeat' split
  all_goals exact ⟨_, rfl⟩

theorem parseArgs_some (overflow : Bytes → Int32) (o : Options) {args : List Bytes}
    (noHelp : text "--help" ∉ args) : ∃ o', parseArgs overflow o args = some o' := by
  induction args generalizing o with
  | nil => exact ⟨o, rfl⟩
  | cons arg rest ih =>
    rw [List.mem_cons, not_or] at noHelp
    obtain ⟨o₁, parsed⟩ := parseArg_some overflow o (Ne.symm noHelp.1)
    obtain ⟨o', others⟩ := ih o₁ noHelp.2
    exact ⟨o', by rw [parseArgs, parsed]; exact others⟩

theorem gate_open_iff {o : Options} {outcome : Fin 7 → Nat → UInt32} {c : Context}
    (records : ∀ i, Recorded o outcome i (c.results i)) :
    bootdiagGateCheck c = 0 ↔ ¬ ∃ i : Fin 7, i.val < 3 ∧ Blocks o outcome i := by
  have failed : ∀ i, c.results i = resultFail.toUInt8 ↔ Blocks o outcome i :=
    fun i => recorded_fail_iff (records i)
  simp only [← failed]
  rw [← critical_fail_iff, bootdiagGateCheck]
  split <;> simp [*]

/-- The gate is open unless a critical check was run and failed. So an open gate means verified
    checks only where they are verified, or where it is not open. -/
theorem gate_sound_iff (overflow : Bytes → Int32) (args : List Bytes)
    (noHelp : text "--help" ∉ args) (outcome : Fin 7 → Nat → UInt32) :
    ∃ o, parseArgs overflow defaults args = some o ∧
      (o.retryCount.toNat < 2 ^ 32 - 1 →
        ∃ code, main overflow args outcome = some code ∧
          (code = 0 ↔ ¬ ∃ i : Fin 7, i.val < 3 ∧ Blocks o outcome i) ∧
          ((code = 0 → ∀ i : Fin 7, i.val < 3 → Verified o outcome i) ↔
            (∀ i : Fin 7, i.val < 3 → Verified o outcome i) ∨
              ∃ i : Fin 7, i.val < 3 ∧ Blocks o outcome i)) := by
  obtain ⟨o, parsed⟩ := parseArgs_some overflow defaults noHelp
  refine ⟨o, parsed, ?_⟩
  intro bounded
  obtain ⟨c, ran, records⟩ := runChecks_records bounded (List.finRange 7) newContext
  have opened := gate_open_iff fun i => (records i).1 (List.mem_finRange i)
  refine ⟨bootdiagGateCheck c, by rw [main, parsed]; simp [ran], opened, ?_⟩
  rw [opened]
  constructor
  · intro sound
    by_cases blocked : ∃ i : Fin 7, i.val < 3 ∧ Blocks o outcome i
    · exact Or.inr blocked
    · exact Or.inl (sound blocked)
  · intro either clear
    rcases either with verified | blocked
    · exact verified
    · exact absurd blocked clear

def secondTry (i : Fin 7) (attempt : Nat) : UInt32 := if i = 0 ∧ attempt = 0 then 3 else 0

theorem secondTry_sound :
    ∃ o code, parseArgs (fun _ => 0) defaults [text "--retry=1"] = some o ∧
      main (fun _ => 0) [text "--retry=1"] secondTry = some code ∧
      (code = 0 → ∀ i : Fin 7, i.val < 3 → Verified o secondTry i) := by
  obtain ⟨o, parsed, gate⟩ :=
    gate_sound_iff (fun _ => 0) [text "--retry=1"] (by decide +kernel) secondTry
  have read : (parseArgs (fun _ => 0) defaults [text "--retry=1"]).map
      (fun o => (o.retryCount, (List.finRange 7).map o.skipChecks)) =
      some (1, List.replicate 7 false) := by decide +kernel
  rw [parsed, Option.map_some, Option.some_inj, Prod.mk.injEq] at read
  obtain ⟨retries, skips⟩ := read
  obtain ⟨code, exits, _, sound⟩ := gate (by rw [retries]; decide)
  refine ⟨o, code, parsed, exits, sound.mpr (Or.inl ?_)⟩
  intro i critical
  refine ⟨?_, if i = 0 then 1 else 0, ?_, ?_⟩
  · have member : o.skipChecks i ∈ (List.finRange 7).map o.skipChecks :=
      List.mem_map_of_mem (List.mem_finRange i)
    rw [skips] at member
    exact List.eq_of_mem_replicate member
  · rw [LastAttempt, retries]
    revert i
    decide +kernel
  · revert i
    decide +kernel

theorem gate_opens_unverified :
    main (fun _ => 0) [text "--skip=1"] (fun _ _ => resultPass) = some 0 ∧
      (parseArgs (fun _ => 0) defaults [text "--skip=1"]).map (fun o => o.skipChecks 0) =
        some true ∧
      main (fun _ => 0) [] (fun i _ => if i = 0 then resultTimeout else resultPass) = some 0 ∧
      resultTimeout ≠ resultPass := by
  decide +kernel

end BootGate
