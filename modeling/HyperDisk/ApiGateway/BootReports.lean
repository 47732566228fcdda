import HyperDisk.Foundations.StepRuns
import HyperDisk.Foundations.TrimmedLogs

/- The boot reports that the API gateway keeps in memory. Each handler holds the mutex for all it
   does with the reports, so a run of the gateway is a sequence of calls. A poisoned mutex is
   ignored by every handler but the one that stores reports. -/
namespace BootReports
open StepRuns TrimmedLogs

structure BootReport where
  bootId : String
  machineId : String
  mac : String
  phase : String
  durationMs : UInt32
  result : String
  timestamp : Option String
  deriving DecidableEq, Repr

structure BootReportResponse where
  accepted : Bool
  bootId : String
  deriving DecidableEq, Repr

structure AppState where
  bootReports : List BootReport
  poisoned : Bool
  deriving DecidableEq, Repr

def newState : AppState := ⟨[], false⟩

def stamped (report : BootReport) (now : String) : BootReport :=
  match report.timestamp with
  | none => { report with timestamp := some now }
  | some _ => report

def bootReportHandler (s : AppState) (report : BootReport) (now : String) :
    AppState × BootReportResponse :=
  let report := stamped report now
  let s := if s.poisoned then s else { s with bootReports := push 10000 1000 s.bootReports report }
  (s, ⟨true, report.bootId⟩)

structure SessionsResponse where
  count : Nat
  sessions : List BootReport
  deriving DecidableEq, Repr

def bootSessionsHandler (s : AppState) : SessionsResponse := ⟨s.bootReports.length, s.bootReports⟩

structure ClearResponse where
  cleared : Nat
  remaining : Nat
  deriving DecidableEq, Repr

def bootSessionsClearHandler (s : AppState) : AppState × ClearResponse :=
  ({ s with bootReports := [] }, ⟨s.bootReports.length, 0⟩)

inductive Call where
  | report (report : BootReport) (now : String)
  | clear
  deriving DecidableEq, Repr

def callStep (s : AppState) : Call → AppState
  | .report report now => (bootReportHandler s report now).1
  | .clear => (bootSessionsClearHandler s).1

/-- What a gateway with unlimited memory would hold. -/
def acceptStep (all : List BootReport) : Call → List BootReport
  | .report report now => all ++ [stamped report now]
  | .clear => []

def accepted (calls : List Call) : List BootReport := run acceptStep [] calls

def Recent (s : AppState) (all : List BootReport) : Prop :=
  s.poisoned = false ∧ Window 10000 1000 s.bootReports all

theorem step_recent (s : AppState) (all : List BootReport) (call : Call) (h : Recent s all) :
    Recent (callStep s call) (acceptStep all call) := by
  obtain ⟨sound, window⟩ := h
  cases call with
  | report report now =>
    have next : callStep s (.report report now) =
        { s with bootReports := push 10000 1000 s.bootReports (stamped report now) } :=
      if_neg (by rw [sound]; decide)
    rw [next]
    exact ⟨sound, push_window (by decide) window _⟩
  | clear => exact ⟨sound, window_nil⟩

theorem run_recent (calls : List Call) : Recent (run callStep newState calls) (accepted calls) := by
  have meets : Meets callStep (fun _ _ => True) newState calls :=
    meets_iff_actions.mpr fun _ _ => trivial
  have every := simulation ⟨rfl, window_nil⟩ (fun s all call h _ => step_recent s all call h) meets
    calls.length
  rw [List.take_length] at every
  exact every

/-- The gateway keeps the latest reports since the last clear: all of them up to ten thousand,
    and at least nine thousand and one of them after that. -/
theorem reports_window (calls : List Call) :
    (run callStep newState calls).bootReports <:+ accepted calls ∧
      ((accepted calls).length ≤ 10000 →
        (run callStep newState calls).bootReports.length = (accepted calls).length) ∧
      (10000 < (accepted calls).length →
        9001 ≤ (run callStep newState calls).bootReports.length ∧
          (run callStep newState calls).bootReports.length ≤ 10000) := by
  obtain ⟨_, window⟩ := run_recent calls
  refine ⟨window.suffix, window.short, ?_⟩
  intro many
  obtain ⟨low, high⟩ := window.long many
  exact ⟨by omega, high⟩

end BootReports
