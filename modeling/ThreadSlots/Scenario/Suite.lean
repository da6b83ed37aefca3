import ThreadSlots.Log.Emitter
import ThreadSlots.Scenario.Report

/-!
# Running several scenarios with a log

A suite runs each scenario in each mode and logs the start and the end of every one, between an
entry for the start of the run and one for its end. The summary repeats the reports, with the
counters as they stand in the end.
-/

namespace ThreadSlots

open Log (Emitter Entry)

/-- The result of a whole run. -/
structure Summary where
  runId : String
  size : ScenarioSize
  passed : Nat
  failed : Nat
  reports : List Report
  tally : Tally
  deriving DecidableEq, Repr

/-- The counters as fields, in report order. -/
def Tally.fields (m : Tally) : List (String × Json) :=
  m.toList.map fun (name, n) => (name, .nat n)

namespace Summary

/-- Every report passed. -/
def allPassed (s : Summary) : Bool := s.failed == 0

/-- The summary as a record. -/
def toJson (s : Summary) : Json :=
  .obj [
    ("run_id", .str s.runId),
    ("config", .obj [
      ("threads", .nat s.size.threads), ("iterations", .nat s.size.iterations),
      ("variables", .nat s.size.population)]),
    ("passed", .nat s.passed),
    ("failed", .nat s.failed),
    ("reports", .arr (s.reports.map Report.toJson)),
    ("metrics", .obj s.tally.fields)]

end Summary

/-- The state of a run. -/
structure SuiteState where
  process : Process
  emitter : Emitter

/-- Actions of a run, which changes the process and writes a log. -/
abbrev Suite := ExceptT RunError (StateM SuiteState)

namespace Suite

/-- Append an entry to the log. -/
def log (entry : Entry) : Suite Unit := do
  let (result, emitter) := (← get).emitter.append entry
  modify ({ · with emitter := emitter })
  match result with
  | .ok () => pure ()
  | .error e => throw (.file e)

/-- Hand the log to its device. -/
def flush : Suite Unit := do
  match (← get).emitter.flush with
  | .ok () => pure ()
  | .error e => throw (.file e)

/-- An entry without a trace id of its own, about scenarios. -/
def entry (clock : Clock) (level : Log.Level) (event : String) : Entry :=
  (Entry.new clock "" level event).withStream .scenario

/-- The entry for the start of a run. -/
def startEntry (clock : Clock) (scenarios : List Scenario) (mode : ThreadMode)
    (size : ScenarioSize) : Entry :=
  ((entry clock .info "run_start").withThreads size.threads).withDetails
    (.record [
      ("scenarios", .arr (scenarios.map (.str ·.name))), ("mode", .str mode.name),
      ("iterations", .nat size.iterations)])

/-- The entry for the start of a scenario. -/
def scenarioStartEntry (clock : Clock) (scenario : Scenario) (mode : ThreadMode) : Entry :=
  (entry clock .debug "scenario_start").withScenario scenario.name mode.name

/-- The entry for the end of a scenario. -/
def scenarioEndEntry (clock : Clock) (report : Report) : Entry :=
  let level := if report.passed then .info else .error
  let e := (((((entry clock level "scenario_end").withScenario report.scenario.name
    report.mode.name).withOutcome report.outcome).withThreads report.threads).withChecks
    report.checks).withDurationMs report.durationMs
  match report.failure with
  | some failure => e.withDetails (.record [("failure", .str failure)])
  | none => e

/-- The entry for the end of a run. -/
def endEntry (clock : Clock) (failed : Nat) (tally : Tally) : Entry :=
  ((entry clock .info "run_end").withOutcome (if failed = 0 then .pass else .fail)).withMetrics
    (.record tally.fields)

/-- Run one scenario between the entries for its start and its end, at the given times. -/
def runOne (begun ended : Clock) (size : ScenarioSize) (scenario : Scenario) (mode : ThreadMode)
    (elapsedMs : Nat) : Suite Report := do
  log (scenarioStartEntry begun scenario mode)
  let (result, process) := scenario.run mode size (← get).process elapsedMs
  modify ({ · with process := process })
  let report ← liftExcept result
  log (scenarioEndEntry ended report)
  return report
where
  /-- The result of a scenario, or its failure. -/
  liftExcept : Except RunError Report → Suite Report
    | .ok report => pure report
    | .error e => throw e

/-- Run scenarios, each in its mode, in order, with a reading of the clock for each entry. The `i`-th
scenario takes `elapsed i` milliseconds. -/
def runEach (readings : Readings) (size : ScenarioSize) (elapsed : Nat → Nat) :
    List (Scenario × ThreadMode) → Suite (List Report)
  | [] => return []
  | (scenario, mode) :: rest => do
    let report ← runOne (readings 0) (readings 1) size scenario mode (elapsed 0)
    return report :: (← runEach (readings.drop 2) size (fun i => elapsed (i + 1)) rest)

/-- The scenarios of a run, each with every mode that `mode` stands for. -/
def plan (scenarios : List Scenario) (mode : ThreadMode) : List (Scenario × ThreadMode) :=
  scenarios.flatMap fun s => mode.expand.map fun m => (s, m)

/-- Run the scenarios in every mode that `mode` stands for, and log it, with a reading of the clock for
each entry. -/
def run (readings : Readings) (scenarios : List Scenario) (mode : ThreadMode) (size : ScenarioSize)
    (elapsed : Nat → Nat) : Suite Summary := do
  log (startEntry (readings 0) scenarios mode size)
  let reports ← runEach (readings.drop 1) size elapsed (plan scenarios mode)
  let failed := reports.countP fun r => !r.passed
  let tally := (← get).process.tally
  log (endEntry (readings (2 * reports.length + 1)) failed tally)
  flush
  return {
    runId := (← get).emitter.runId
    size := size
    passed := reports.length - failed
    failed := failed
    reports := reports
    tally := tally }

/-- Run the scenarios from a state: the summary, or why there is none, and the state after it. -/
def start (readings : Readings) (scenarios : List Scenario) (mode : ThreadMode) (size : ScenarioSize)
    (state : SuiteState) (elapsed : Nat → Nat := fun _ => 0) :
    Except RunError Summary × SuiteState :=
  (ExceptT.run (run readings scenarios mode size elapsed)).run state

end Suite

end ThreadSlots
