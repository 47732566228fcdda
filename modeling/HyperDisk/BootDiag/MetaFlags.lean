import HyperDisk.BootDiag.BootGate

/- The flags for boot.meta that bootdiag prints at the end of its run (main.c), and what they tell
   about it. -/
namespace MetaFlags
open LittleEndian DecimalText DiagChecks BootGate

def setBit (flags : UInt16) (k : Nat) : UInt16 := flags ||| UInt16.ofNat (1 <<< k)

def failBits (c : Context) (checks : List (Fin 7)) (flags : UInt16) : UInt16 :=
  checks.foldl
    (fun flags i =>
      if c.results i = resultFail.toUInt8 then setBit flags (3 + i.val) else flags) flags

def bootdiagUpdateBootMetaFlags (bootdiagExecuted : Bool) (c : Context) : UInt16 :=
  let flags := if bootdiagExecuted then setBit 0 2 else 0
  let flags := failBits c (List.finRange 7) flags
  if c.totalFail = 0 ∧ c.totalPass = 7 then setBit flags 10 else flags

def bit (flags : UInt16) (k : Nat) : Bool := flags.toNat.testBit k

theorem bit_setBit (flags : UInt16) {k : Nat} (small : k < 16) (j : Nat) :
    bit (setBit flags k) j = (bit flags j || decide (k = j)) := by
  have power : (1 : Nat) <<< k < 2 ^ 16 := by
    rw [Nat.shiftLeft_eq, Nat.one_mul]
    exact Nat.pow_lt_pow_right (by decide) small
  rw [bit, setBit, UInt16.toNat_or, Nat.testBit_or, UInt16.toNat_ofNat_of_lt' power,
    Nat.shiftLeft_eq, Nat.one_mul, Nat.testBit_two_pow]
  rfl

theorem bit_failBits (c : Context) (checks : List (Fin 7)) (flags : UInt16) (j : Nat) :
    bit (failBits c checks flags) j = true ↔
      bit flags j = true ∨ ∃ i ∈ checks, c.results i = resultFail.toUInt8 ∧ 3 + i.val = j := by
  induction checks generalizing flags with
  | nil => simp [failBits]
  | cons i rest ih =>
    change bit (failBits c rest
      (if c.results i = resultFail.toUInt8 then setBit flags (3 + i.val) else flags)) j = true ↔ _
    rw [ih]
    split
    · rename_i failed
      rw [bit_setBit flags (by omega)]
      simp [failed, or_assoc]
    · rename_i other
      simp [other]

section Totals
variable {o : Options} {outcome : Fin 7 → Nat → UInt32}

def passed (o : Options) (outcome : Fin 7 → Nat → UInt32) (i : Fin 7) : Bool :=
  !o.skipChecks i && decide (runCheck (outcome i) o.retryCount = some resultPass)

def failed (o : Options) (outcome : Fin 7 → Nat → UInt32) (i : Fin 7) : Bool :=
  !o.skipChecks i && !decide (runCheck (outcome i) o.retryCount = some resultPass)

theorem checkStep_totals {c c' : Context} {i : Fin 7}
    (stepped : checkStep o outcome c i = some c') :
    c'.totalPass = c.totalPass + UInt32.ofNat (passed o outcome i).toNat ∧
      c'.totalFail = c.totalFail + UInt32.ofNat (failed o outcome i).toNat := by
  unfold checkStep at stepped
  unfold passed failed
  split at stepped
  · rename_i skip
    cases stepped
    simp [skip, Context.record]
  · rename_i run
    cases ran : runCheck (outcome i) o.retryCount with
    | none =>
      rw [ran] at stepped
      cases stepped
    | some result =>
      rw [ran, Option.bind_eq_bind, Option.bind_some] at stepped
      split at stepped
      · rename_i pass
        cases stepped
        simp [run, pass, Context.record]
      · rename_i other
        cases stepped
        simp [run, other, Context.record]

theorem runChecks_totals {checks : List (Fin 7)} {c c' : Context}
    (ran : runChecks o outcome checks c = some c') :
    c'.totalPass = c.totalPass + UInt32.ofNat (checks.countP (passed o outcome)) ∧
      c'.totalFail = c.totalFail + UInt32.ofNat (checks.countP (failed o outcome)) := by
  induction checks generalizing c with
  | nil =>
    cases ran
    simp
  | cons i rest ih =>
    rw [runChecks, Option.bind_eq_bind, Option.bind_eq_some_iff] at ran
    obtain ⟨next, stepped, others⟩ := ran
    obtain ⟨pass, fail⟩ := checkStep_totals stepped
    obtain ⟨passes, fails⟩ := ih others
    have add : ∀ (total : UInt32) (b : Bool) (n : Nat),
        total + UInt32.ofNat b.toNat + UInt32.ofNat n =
          total + UInt32.ofNat (n + if b = true then 1 else 0) := by
      intro total b n
      rw [UInt32.add_assoc, ← UInt32.ofNat_add, Nat.add_comm]
      cases b <;> rfl
    rw [passes, fails, pass, fail, List.countP_cons, List.countP_cons, add, add]
    exact ⟨rfl, rfl⟩

theorem passed_iff (bounded : o.retryCount.toNat < 2 ^ 32 - 1) (i : Fin 7) :
    passed o outcome i = true ↔ Verified o outcome i := by
  obtain ⟨n, ran, last⟩ := runCheck_last (outcome i) bounded
  rw [passed, ran, Bool.and_eq_true, Bool.not_eq_true', decide_eq_true_eq, Option.some_inj]
  constructor
  · rintro ⟨run, pass⟩
    exact ⟨run, n, last, pass⟩
  · rintro ⟨run, m, last', pass⟩
    refine ⟨run, ?_⟩
    rw [lastAttempt_unique last last']
    exact pass

theorem totals_all_passed {c : Context}
    (ran : runChecks o outcome (List.finRange 7) newContext = some c) :
    (c.totalFail = 0 ∧ c.totalPass = 7) ↔ ∀ i, passed o outcome i = true := by
  obtain ⟨passes, fails⟩ := runChecks_totals ran
  have most : (List.finRange 7).countP (passed o outcome) ≤ 7 := List.countP_le_length
  rw [passes, fails]
  constructor
  · rintro ⟨-, seven⟩ i
    have counted : (List.finRange 7).countP (passed o outcome) = (List.finRange 7).length := by
      have value := congrArg UInt32.toNat seven
      simp [newContext] at value
      rw [List.length_finRange]
      omega
    exact List.countP_eq_length.mp counted i (List.mem_finRange i)
  · intro all
    have seven : (List.finRange 7).countP (passed o outcome) = 7 :=
      (List.countP_eq_length.mpr fun i _ => all i).trans List.length_finRange
    have none : (List.finRange 7).countP (failed o outcome) = 0 := by
      rw [List.countP_eq_zero]
      intro i _
      have here := all i
      unfold passed at here
      unfold failed
      grind
    rw [seven, none]
    decide

end Totals

theorem flags_bits {o : Options} {outcome : Fin 7 → Nat → UInt32} {c : Context}
    (bounded : o.retryCount.toNat < 2 ^ 32 - 1)
    (ran : runChecks o outcome (List.finRange 7) newContext = some c)
    (records : ∀ i, Recorded o outcome i (c.results i)) (k : Nat) :
    bit (bootdiagUpdateBootMetaFlags true c) k = true ↔
      k = 2 ∨ (∃ i : Fin 7, k = 3 + i.val ∧ Blocks o outcome i) ∨
        (k = 10 ∧ ∀ i, Verified o outcome i) := by
  have failures : bit (failBits c (List.finRange 7) (setBit 0 2)) k = true ↔
      k = 2 ∨ ∃ i : Fin 7, k = 3 + i.val ∧ Blocks o outcome i := by
    have zero : bit 0 k = false := Nat.zero_testBit k
    rw [bit_failBits, bit_setBit 0 (by decide), zero]
    simp only [Bool.false_or, decide_eq_true_eq, List.mem_finRange, true_and,
      recorded_fail_iff (records _)]
    apply or_congr eq_comm
    apply exists_congr
    intro i
    rw [and_comm, eq_comm]
  have complete : (c.totalFail = 0 ∧ c.totalPass = 7) ↔ ∀ i, Verified o outcome i := by
    rw [totals_all_passed ran]
    exact forall_congr' fun i => passed_iff bounded i
  simp only [bootdiagUpdateBootMetaFlags, if_true]
  by_cases all : c.totalFail = 0 ∧ c.totalPass = 7
  · rw [if_pos all, bit_setBit _ (by decide), Bool.or_eq_true, failures,
      decide_eq_true_eq, or_assoc]
    simp [complete.mp all, eq_comm]
  · rw [if_neg all, failures]
    simp [mt complete.mpr all]

/-- The flags of a run tell which checks failed, whether all were run and passed, and the exit
    code. Failing is returning FAIL at the last attempt; a timeout leaves no trace of its own. -/
theorem flags_tell_run (overflow : Bytes → Int32) (args : List Bytes) (o : Options)
    (parsed : parseArgs overflow defaults args = some o)
    (bounded : o.retryCount.toNat < 2 ^ 32 - 1) (outcome : Fin 7 → Nat → UInt32) :
    ∃ c code, runChecks o outcome (List.finRange 7) newContext = some c ∧
      main overflow args outcome = some code ∧
      (∀ k, bit (bootdiagUpdateBootMetaFlags true c) k = true ↔
        k = 2 ∨ (∃ i : Fin 7, k = 3 + i.val ∧ Blocks o outcome i) ∨
          (k = 10 ∧ ∀ i, Verified o outcome i)) ∧
      (code = 0 ↔ ∀ k, 3 ≤ k → k < 6 → bit (bootdiagUpdateBootMetaFlags true c) k = false) := by
  obtain ⟨c, ran, records⟩ := @runChecks_records o outcome bounded (List.finRange 7) newContext
  have recorded : ∀ i, Recorded o outcome i (c.results i) :=
    fun i => (records i).1 (List.mem_finRange i)
  have bits := flags_bits bounded ran recorded
  refine ⟨c, bootdiagGateCheck c, ran, ?_, bits, ?_⟩
  · rw [main, parsed]
    simp [ran]
  · rw [gate_open_iff recorded]
    constructor
    · intro none k above below
      rw [← Bool.not_eq_true, bits]
      rintro (two | ⟨i, here, blocks⟩ | ⟨ten, -⟩)
      · omega
      · exact none ⟨i, by omega, blocks⟩
      · omega
    · rintro clear ⟨i, critical, blocks⟩
      have unset := clear (3 + i.val) (by omega) (by omega)
      rw [(bits _).mpr (.inr (.inl ⟨i, rfl, blocks⟩))] at unset
      cases unset

def mixedOutcome (i : Fin 7) (attempt : Nat) : UInt32 :=
  if i.val = 0 ∧ attempt = 0 then resultFail
  else if i.val = 2 then resultTimeout
  else if i.val = 3 then resultFail
  else resultPass

def mixedArgs : List Bytes := [text "--skip=2", text "--retry=1"]

theorem mixed_flags_tell_run :
    ∃ o c, parseArgs (fun _ => 0) defaults mixedArgs = some o ∧
      runChecks o mixedOutcome (List.finRange 7) newContext = some c ∧
      bit (bootdiagUpdateBootMetaFlags true c) 6 = true ∧
      (∀ k, 3 ≤ k → k < 6 → bit (bootdiagUpdateBootMetaFlags true c) k = false) ∧
      bit (bootdiagUpdateBootMetaFlags true c) 10 = false := by
  have read : (parseArgs (fun _ => 0) defaults mixedArgs).map
      (fun o => (o.retryCount, o.skipChecks 1, o.skipChecks 3)) = some (1, true, false) := by
    decide +kernel
  have exits : main (fun _ => 0) mixedArgs mixedOutcome = some 0 := by decide +kernel
  obtain ⟨o, parsed, options⟩ := Option.map_eq_some_iff.mp read
  simp only [Prod.mk.injEq] at options
  obtain ⟨retries, skipped, taken⟩ := options
  obtain ⟨c, code, ran, ended, bits, opens⟩ := flags_tell_run (fun _ => 0) mixedArgs o parsed
    (by rw [retries]; decide) mixedOutcome
  have fourth : Blocks o mixedOutcome 3 := by
    refine ⟨taken, 1, ?_, by decide⟩
    rw [LastAttempt, retries]
    decide
  rw [exits, Option.some_inj] at ended
  refine ⟨o, c, parsed, ran, (bits 6).mpr (.inr (.inl ⟨3, rfl, fourth⟩)), opens.mp ended.symm, ?_⟩
  rw [← Bool.not_eq_true, bits]
  rintro (two | ⟨i, here, -⟩ | ⟨-, verified⟩)
  · omega
  · omega
  · rw [(verified 1).1] at skipped
    cases skipped

end MetaFlags
