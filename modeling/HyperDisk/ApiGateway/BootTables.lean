import Mathlib.Data.String.Basic
import HyperDisk.ApiGateway.BootReports
import HyperDisk.Foundations.KeyedFolds

/- The two views of the stored boot reports, the totals and the table of machines. Each handler
   goes through the reports on its own: one counts, the other groups by machine. -/
namespace BootTables
open BootReports WeightedMaps WeightedLists KeyedFolds

def succeeded (result : String) : Bool := result == "ok" || result == "success"

structure BootStats where
  machines : Nat
  boots : Nat
  success : Nat
  failed : Nat
  avgDurationMs : UInt64
  minDurationMs : UInt32
  maxDurationMs : UInt32

structure Tally where
  machines : Finset String
  success : Nat
  failed : Nat
  totalDuration : UInt64
  minDuration : UInt32
  maxDuration : UInt32

def newTally : Tally := ⟨∅, 0, 0, 0, 0xFFFFFFFF, 0⟩

def Tally.add (t : Tally) (r : BootReport) : Tally where
  machines := insert r.machineId t.machines
  success := if succeeded r.result then t.success + 1 else t.success
  failed := if succeeded r.result then t.failed else t.failed + 1
  totalDuration := t.totalDuration + r.durationMs.toUInt64
  minDuration := if r.durationMs < t.minDuration then r.durationMs else t.minDuration
  maxDuration := if t.maxDuration < r.durationMs then r.durationMs else t.maxDuration

def tally (reports : List BootReport) : Tally := reports.foldl Tally.add newTally

def bootStatsHandler (s : AppState) : BootStats :=
  let t := tally s.bootReports
  let boots := s.bootReports.length
  { machines := t.machines.card
    boots := boots
    success := t.success
    failed := t.failed
    avgDurationMs := if 0 < boots then t.totalDuration / UInt64.ofNat boots else 0
    minDurationMs := if boots = 0 then 0 else t.minDuration
    maxDurationMs := t.maxDuration }

structure MachineInfo where
  machineId : String
  mac : String
  boots : Nat
  success : Nat
  failed : Nat
  lastSeen : String
  lastBootId : String
  deriving DecidableEq, Repr

def MachineInfo.new (r : BootReport) : MachineInfo := ⟨r.machineId, r.mac, 0, 0, 0, "", ""⟩

def MachineInfo.see (e : MachineInfo) (r : BootReport) : String × String :=
  match r.timestamp with
  | some ts => if e.lastSeen < ts then (ts, r.bootId) else (e.lastSeen, e.lastBootId)
  | none => (e.lastSeen, e.lastBootId)

def MachineInfo.add (e : MachineInfo) (r : BootReport) : MachineInfo :=
  { e with
    boots := e.boots + 1
    success := if succeeded r.result then e.success + 1 else e.success
    failed := if succeeded r.result then e.failed else e.failed + 1
    lastSeen := (e.see r).1
    lastBootId := (e.see r).2 }

def machineMap (reports : List BootReport) : Map String MachineInfo :=
  gathered BootReport.machineId MachineInfo.new MachineInfo.add reports

/-- `intoValues` is the order in which the hash map happens to give out its values. -/
def bootMachinesHandler (intoValues : Map String MachineInfo → List MachineInfo) (s : AppState) :
    List MachineInfo :=
  (intoValues (machineMap s.bootReports)).mergeSort fun a b => b.boots ≤ a.boots

def wins (r : BootReport) : Nat := if succeeded r.result then 1 else 0

def losses (r : BootReport) : Nat := if succeeded r.result then 0 else 1

theorem weigh_one (reports : List BootReport) : weigh (fun _ => 1) reports = reports.length := by
  induction reports with
  | nil => rfl
  | cons r rest ih => rw [weigh, ih, List.length_cons, Nat.add_comm]

theorem weigh_outcomes (reports : List BootReport) :
    weigh wins reports + weigh losses reports = reports.length := by
  induction reports with
  | nil => rfl
  | cons r rest ih =>
    rw [weigh, weigh, List.length_cons, ← ih]
    unfold wins losses
    split <;> omega

theorem tally_snoc (reports : List BootReport) (r : BootReport) :
    tally (reports ++ [r]) = (tally reports).add r := List.foldl_append

theorem tally_counts (reports : List BootReport) :
    (tally reports).success = weigh wins reports ∧ (tally reports).failed = weigh losses reports ∧
      (tally reports).machines = (reports.map BootReport.machineId).toFinset := by
  induction reports using List.reverseRecOn with
  | nil => exact ⟨rfl, rfl, rfl⟩
  | append_singleton reports r ih =>
    obtain ⟨success, failed, machines⟩ := ih
    rw [tally_snoc, weigh_snoc, weigh_snoc, ← success, ← failed]
    refine ⟨?_, ?_, ?_⟩
    · unfold Tally.add wins
      split <;> rfl
    · unfold Tally.add losses
      split <;> rfl
    · rw [List.map_append, List.toFinset_append, ← machines]
      simp [Tally.add]

def duration (r : BootReport) : Nat := r.durationMs.toNat

theorem add_durations (t : Tally) (r : BootReport) :
    (t.add r).minDuration.toNat = min t.minDuration.toNat (duration r) ∧
      (t.add r).maxDuration.toNat = max t.maxDuration.toNat (duration r) := by
  unfold Tally.add duration
  constructor
  · dsimp only
    split <;> rename_i order <;> rw [UInt32.lt_iff_toNat_lt] at order <;> omega
  · dsimp only
    split <;> rename_i order <;> rw [UInt32.lt_iff_toNat_lt] at order <;> omega

theorem tally_bounds (reports : List BootReport) :
    reports.length * (tally reports).minDuration.toNat ≤ weigh duration reports ∧
      weigh duration reports ≤ reports.length * (tally reports).maxDuration.toNat := by
  induction reports using List.reverseRecOn with
  | nil => exact ⟨by simp, by simp [weigh]⟩
  | append_singleton reports r ih =>
    obtain ⟨least, greatest⟩ := add_durations (tally reports) r
    obtain ⟨low, high⟩ := ih
    have length : (reports ++ [r]).length = reports.length + 1 := List.length_append
    rw [tally_snoc, weigh_snoc, length, least, greatest, Nat.add_mul, Nat.add_mul, Nat.one_mul,
      Nat.one_mul]
    constructor
    · exact Nat.add_le_add
        (Nat.le_trans (Nat.mul_le_mul_left _ (Nat.min_le_left _ _)) low) (Nat.min_le_right _ _)
    · exact Nat.add_le_add
        (Nat.le_trans high (Nat.mul_le_mul_left _ (Nat.le_max_left _ _))) (Nat.le_max_right _ _)

theorem weigh_duration_lt {reports : List BootReport} (few : reports.length ≤ 2 ^ 32) :
    weigh duration reports < 2 ^ 64 := by
  have bound := (tally reports).maxDuration.toNat_lt
  calc weigh duration reports
      ≤ reports.length * (tally reports).maxDuration.toNat := (tally_bounds reports).2
    _ ≤ 2 ^ 32 * (2 ^ 32 - 1) := Nat.mul_le_mul few (by omega)
    _ < 2 ^ 64 := by decide

theorem tally_total {reports : List BootReport} (few : reports.length ≤ 2 ^ 32) :
    (tally reports).totalDuration.toNat = weigh duration reports := by
  induction reports using List.reverseRecOn with
  | nil => rfl
  | append_singleton reports r ih =>
    have small := weigh_duration_lt few
    rw [List.length_append, List.length_singleton] at few
    rw [weigh_snoc] at small ⊢
    rw [tally_snoc, Tally.add, UInt64.toNat_add, UInt32.toNat_toUInt64, ih (by omega)]
    exact Nat.mod_eq_of_lt small

theorem average_between {s : AppState} (nonempty : s.bootReports ≠ [])
    (few : s.bootReports.length ≤ 2 ^ 32) :
    (bootStatsHandler s).minDurationMs.toNat ≤ (bootStatsHandler s).avgDurationMs.toNat ∧
      (bootStatsHandler s).avgDurationMs.toNat ≤ (bootStatsHandler s).maxDurationMs.toNat := by
  have positive : 0 < s.bootReports.length := List.length_pos_iff.mpr nonempty
  have count : (UInt64.ofNat s.bootReports.length).toNat = s.bootReports.length :=
    UInt64.toNat_ofNat_of_lt' (Nat.lt_of_le_of_lt few (by decide))
  obtain ⟨low, high⟩ := tally_bounds s.bootReports
  simp only [bootStatsHandler, if_pos positive, if_neg (Nat.ne_of_gt positive), UInt64.toNat_div,
    count, tally_total few]
  constructor
  · rw [Nat.le_div_iff_mul_le positive, Nat.mul_comm]
    exact low
  · apply Nat.div_le_of_le_mul
    exact high

/-- The latest time among the reports, and the first boot reported with it. -/
structure Latest (reports : List BootReport) (e : MachineInfo) : Prop where
  greatest : ∀ r ∈ reports, ∀ ts, r.timestamp = some ts → ts ≤ e.lastSeen
  first : (e.lastSeen = "" ∧ e.lastBootId = "") ∨
    (e.lastSeen ≠ "" ∧ ∃ r, reports.find? (fun r => r.timestamp = some e.lastSeen) = some r ∧
      r.bootId = e.lastBootId)

theorem empty_le (text : String) : "" ≤ text := by
  apply not_lt.mp
  intro before
  rw [String.lt_iff_toList_lt] at before
  exact absurd before (List.not_lt_nil _)

theorem greatest_snoc {reports : List BootReport} {r : BootReport} {latest : String}
    (before : ∀ r' ∈ reports, ∀ ts, r'.timestamp = some ts → ts ≤ latest)
    (here : ∀ ts, r.timestamp = some ts → ts ≤ latest) :
    ∀ r' ∈ reports ++ [r], ∀ ts, r'.timestamp = some ts → ts ≤ latest := by
  intro r' member
  rcases List.mem_append.mp member with old | new
  · exact before r' old
  · rw [List.mem_singleton.mp new]
    exact here

theorem latest_kept {reports : List BootReport} {e : MachineInfo} {r : BootReport}
    (h : Latest reports e) (notLater : ∀ ts, r.timestamp = some ts → ts ≤ e.lastSeen) :
    Latest (reports ++ [r]) e := by
  refine ⟨greatest_snoc h.greatest notLater, h.first.imp id ?_⟩
  rintro ⟨present, first, found, same⟩
  refine ⟨present, first, ?_, same⟩
  rw [List.find?_append, found]
  rfl

theorem latest_add (reports : List BootReport) (e : MachineInfo) (r : BootReport)
    (h : Latest reports e) : Latest (reports ++ [r]) (e.add r) := by
  have unchanged : e.see r = (e.lastSeen, e.lastBootId) →
      (∀ ts, r.timestamp = some ts → ts ≤ e.lastSeen) → Latest (reports ++ [r]) (e.add r) := by
    intro same notLater
    have kept := latest_kept h notLater
    constructor
    · simpa only [MachineInfo.add, same] using kept.greatest
    · simpa only [MachineInfo.add, same] using kept.first
  cases stamp : r.timestamp with
  | none =>
    apply unchanged
    · rw [MachineInfo.see, stamp]
    · intro ts found
      rw [stamp] at found
      cases found
  | some ts =>
    by_cases later : e.lastSeen < ts
    · have seen : e.see r = (ts, r.bootId) := by
        rw [MachineInfo.see, stamp]
        exact if_pos later
      have unseen : reports.find? (fun r' => r'.timestamp = some ts) = none := by
        apply List.find?_eq_none.mpr
        intro r' member
        simp only [decide_eq_true_eq]
        intro same
        exact absurd (h.greatest r' member ts same) (not_le.mpr later)
      constructor
      · simp only [MachineInfo.add, seen]
        apply greatest_snoc
        · intro r' member ts' found
          exact le_trans (h.greatest r' member ts' found) later.le
        · intro ts' found
          rw [stamp] at found
          exact (Option.some.inj found).symm.le
      · right
        simp only [MachineInfo.add, seen]
        refine ⟨fun empty => ?_, r, ?_, rfl⟩
        · rw [empty] at later
          exact absurd (empty_le e.lastSeen) (not_le.mpr later)
        · rw [List.find?_append, unseen, List.find?_singleton, stamp]
          simp
    · apply unchanged
      · rw [MachineInfo.see, stamp]
        exact if_neg later
      · intro ts' found
        rw [stamp] at found
        exact (Option.some.inj found) ▸ not_lt.mp later

structure Describes (own : List BootReport) (e : MachineInfo) : Prop where
  named : ∀ machineId, (∀ r ∈ own, r.machineId = machineId) → e.machineId = machineId
  outcomes : e.boots = e.success + e.failed
  latest : Latest own e

theorem describes_new (r : BootReport) : Describes [r] ((MachineInfo.new r).add r) := by
  refine ⟨fun k all => all r List.mem_cons_self, ?_, ?_⟩
  · simp only [MachineInfo.add, MachineInfo.new]
    split <;> rfl
  · exact latest_add [] (MachineInfo.new r) r ⟨by simp, Or.inl ⟨rfl, rfl⟩⟩

theorem describes_add (own : List BootReport) (e : MachineInfo) (r : BootReport)
    (h : Describes own e) : Describes (own ++ [r]) (e.add r) := by
  refine ⟨?_, ?_, latest_add own e r h.latest⟩
  · intro k all
    exact h.named k fun r' member => all r' (List.mem_append_left _ member)
  · have before := h.outcomes
    simp only [MachineInfo.add]
    split <;> omega

theorem summary_describes {own : List BootReport} {e : MachineInfo}
    (sum : summary MachineInfo.new MachineInfo.add own = some e) : Describes own e :=
  summary_rule describes_new describes_add sum

theorem summary_named {reports : List BootReport} {k : String} {e : MachineInfo}
    (sum : summary MachineInfo.new MachineInfo.add (reports.filter fun r =>
      r.machineId = k) = some e) :
    e.machineId = k := by
  apply (summary_describes sum).named
  intro r member
  simpa using (List.mem_filter.mp member).2

theorem row_describes {reports : List BootReport} {e : MachineInfo}
    (member : e ∈ values (machineMap reports)) :
    Describes (reports.filter fun r => r.machineId = e.machineId) e := by
  obtain ⟨k, sum⟩ := mem_values member
  rw [summary_named sum]
  exact summary_describes sum

theorem column_total {column : MachineInfo → Nat} {share : BootReport → Nat}
    (start : ∀ r, column (.new r) = 0) (adds : ∀ e r, column (e.add r) = column e + share r)
    (reports : List BootReport) :
    weigh column (values (machineMap reports)) = weigh share reports := by
  rw [weigh_values]
  exact total_gathered start adds reports

theorem boots_total (reports : List BootReport) :
    weigh MachineInfo.boots (values (machineMap reports)) = reports.length := by
  rw [← weigh_one]
  apply column_total
  · intro r
    rfl
  · intro e r
    rfl

theorem success_total (reports : List BootReport) :
    weigh MachineInfo.success (values (machineMap reports)) = weigh wins reports := by
  apply column_total
  · intro r
    rfl
  · intro e r
    simp only [MachineInfo.add, wins]
    split <;> rfl

theorem failed_total (reports : List BootReport) :
    weigh MachineInfo.failed (values (machineMap reports)) = weigh losses reports := by
  apply column_total
  · intro r
    rfl
  · intro e r
    simp only [MachineInfo.add, losses]
    split <;> rfl

theorem rows_ordered (rows : List MachineInfo) :
    (rows.mergeSort fun a b => b.boots ≤ a.boots).Pairwise fun a b => b.boots ≤ a.boots := by
  have sorted : (rows.mergeSort fun a b => b.boots ≤ a.boots).Pairwise
      fun a b => decide (b.boots ≤ a.boots) = true := by
    apply List.pairwise_mergeSort
    · intro a b c first second
      simp only [decide_eq_true_eq] at first second ⊢
      exact Nat.le_trans second first
    · intro a b
      simp only [Bool.or_eq_true, decide_eq_true_eq]
      exact Nat.le_total b.boots a.boots
  simpa using sorted

/-- The table of machines adds up to the totals, whatever order the hash map gives its values
    out in. -/
theorem tables_agree (s : AppState) (intoValues : Map String MachineInfo → List MachineInfo)
    (complete : ∀ m, (intoValues m).Perm (values m)) :
    ((bootMachinesHandler intoValues s).map MachineInfo.machineId).Nodup ∧
      (bootMachinesHandler intoValues s).length = (bootStatsHandler s).machines ∧
      weigh MachineInfo.boots (bootMachinesHandler intoValues s) = (bootStatsHandler s).boots ∧
      weigh MachineInfo.success (bootMachinesHandler intoValues s) = (bootStatsHandler s).success ∧
      weigh MachineInfo.failed (bootMachinesHandler intoValues s) = (bootStatsHandler s).failed ∧
      (bootStatsHandler s).boots = (bootStatsHandler s).success + (bootStatsHandler s).failed ∧
      (∀ row ∈ bootMachinesHandler intoValues s, row.boots = row.success + row.failed) ∧
      (bootMachinesHandler intoValues s).Pairwise (fun a b => b.boots ≤ a.boots) ∧
      (∀ row ∈ bootMachinesHandler intoValues s,
        Latest (s.bootReports.filter fun r => r.machineId = row.machineId) row) ∧
      (s.bootReports ≠ [] → s.bootReports.length ≤ 2 ^ 32 →
        (bootStatsHandler s).minDurationMs.toNat ≤ (bootStatsHandler s).avgDurationMs.toNat ∧
          (bootStatsHandler s).avgDurationMs.toNat ≤ (bootStatsHandler s).maxDurationMs.toNat) := by
  have rows : (bootMachinesHandler intoValues s).Perm (values (machineMap s.bootReports)) :=
    (List.mergeSort_perm _ _).trans (complete _)
  have described : ∀ row ∈ bootMachinesHandler intoValues s,
      Describes (s.bootReports.filter fun r => r.machineId = row.machineId) row :=
    fun row member => row_describes (rows.mem_iff.mp member)
  obtain ⟨won, lost, machines⟩ := tally_counts s.bootReports
  refine ⟨?_, ?_, ?_, ?_, ?_, ?_, ?_, rows_ordered _, ?_, average_between⟩
  · apply (rows.map _).nodup_iff.mpr
    exact values_nodup s.bootReports fun k e => summary_named
  · rw [rows.length_eq, machineMap, values_length, ← machines]
    rfl
  · rw [weigh_perm rows]
    exact boots_total s.bootReports
  · rw [weigh_perm rows, success_total, ← won]
    rfl
  · rw [weigh_perm rows, failed_total, ← lost]
    rfl
  · change s.bootReports.length = (tally s.bootReports).success + (tally s.bootReports).failed
    rw [won, lost, weigh_outcomes]
  · intro row member
    exact (described row member).outcomes
  · intro row member
    exact (described row member).latest

def twoMachines : AppState where
  bootReports :=
    [⟨"b1", "m1", "aa", "done", 30, "ok", some "2026-01-01"⟩,
      ⟨"b2", "m2", "bb", "done", 50, "timeout", none⟩,
      ⟨"b3", "m1", "aa", "done", 40, "success", some "2026-01-01"⟩]
  poisoned := false

theorem twoMachines_agree :
    (bootMachinesHandler values twoMachines).length = (bootStatsHandler twoMachines).machines ∧
      (bootStatsHandler twoMachines).minDurationMs.toNat ≤
        (bootStatsHandler twoMachines).avgDurationMs.toNat := by
  obtain ⟨_, machines, _, _, _, _, _, _, _, average⟩ :=
    tables_agree twoMachines values fun m => List.Perm.refl _
  exact ⟨machines, (average (by decide) (by decide)).1⟩

end BootTables
