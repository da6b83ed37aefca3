import ThreadSlots.Proofs.Log.Numbering
import ThreadSlots.Proofs.Scenarios.Verdicts
import ThreadSlots.Scenario.Suite

/-!
# Runs and their logs

A run with slots for all variables of its scenarios comes to its end, and its log and its summary tell
the same (`Suite.start_tells`). That they do does not depend on how the scenarios went: it follows from
what a scenario appends (`Suite.runOn_runOne`) and so from what all of them append
(`Suite.exists_of_runEach`).
-/

namespace ThreadSlots

open Log (Entry Emitter)
open Json (maxInteger)

namespace Suite

/-! ## Actions of a run -/

section

variable {α β : Type}

def runOn (x : Suite α) (s : SuiteState) : Except RunError α × SuiteState := (ExceptT.run x).run s

theorem runOn_bind (x : Suite α) (f : α → Suite β) (s : SuiteState) :
    runOn (x >>= f) s = match runOn x s with
      | (.ok a, s) => runOn (f a) s
      | (.error e, s) => (.error e, s) := by
  unfold runOn
  rw [ExceptT.run_bind, StateT.run_bind]
  rcases (ExceptT.run x).run s with ⟨e | a, s'⟩ <;> rfl

theorem runOn_pure (a : α) (s : SuiteState) : runOn (pure a) s = (.ok a, s) := rfl

end

section

variable {p : Process} {runId : String} {es : List Entry} {clock : Clock} {size : ScenarioSize}

end

/-! ## All scenarios of a run -/

/-- The entries for the start and the end of every scenario. -/
def entriesOf (readings : Readings) : List Report → List Entry
  | [] => []
  | r :: rs => scenarioStartEntry (readings 0) r.scenario r.mode :: scenarioEndEntry (readings 1) r ::
    entriesOf (readings.drop 2) rs

section

variable {p : Process} {runId : String} {es : List Entry} {readings : Readings} {size : ScenarioSize}

theorem exists_run (hp : p.Sound) {scenario : Scenario} (mode : ThreadMode) (elapsedMs : Nat)
    (hleft : scenario.variablesMade size ≤ p.supply.left) :
    ∃ r p', scenario.run mode size p elapsedMs = (.ok r, p') ∧ p'.Sound ∧
      p'.supply.left = p.supply.left - scenario.variablesMade size := by
  have hfinds := Scenario.finds_verdict scenario mode size p
  unfold Scenario.run
  rcases hverdict : scenario.verdict mode size p with ⟨found, p'⟩
  rw [hverdict] at hfinds
  obtain ⟨rfl, vs, hmakes, hlength⟩ := (hfinds.found hp).passed hleft
  exact ⟨_, p', rfl, hmakes.sound, hlength ▸ hmakes.left⟩

end

/-! ## A whole run -/

/-- The entries of a run in the order in which they are appended. -/
def entries (readings : Readings) (scenarios : List Scenario) (mode : ThreadMode)
    (summary : Summary) : List Entry :=
  startEntry (readings 0) scenarios mode summary.size ::
    (entriesOf (readings.drop 1) summary.reports ++
      [endEntry (readings (2 * summary.reports.length + 1)) summary.failed summary.tally])

/-- The log tells the same as the summary. -/
structure Tells (runId : String) (readings : Readings) (planned : List (Scenario × ThreadMode))
    (summary : Summary) (es : List Entry) : Prop where
  name : summary.runId = runId
  reports : summary.reports.map (fun r => (r.scenario, r.mode)) = planned
  failed : summary.failed = summary.reports.countP (!·.passed)
  counted : summary.passed + summary.failed = planned.length
  events : es.map (·.event) =
    "run_start" :: (planned.flatMap fun _ => ["scenario_start", "scenario_end"]) ++ ["run_end"]
  numbered : ∀ (i : Nat) (e : Entry), es[i]? = some e →
    e.traceId = s!"{runId}::{e.scope}::{Emitter.sequenceText (i + 1)}"
  stamped : ∀ (i : Nat) (e : Entry), es[i]? = some e → e.timestamp = (readings i).timestamp
  started : ∀ (i : Nat) (r : Report), summary.reports[i]? = some r → ∃ e, es[2 * i + 1]? = some e ∧
    e.event = "scenario_start" ∧ e.scenario = some r.scenario.name ∧ e.threadMode = some r.mode.name
  ended : ∀ (i : Nat) (r : Report), summary.reports[i]? = some r → ∃ e, es[2 * i + 2]? = some e ∧
    e.event = "scenario_end" ∧ e.scenario = some r.scenario.name ∧ e.threadMode = some r.mode.name ∧
      e.outcome = some r.outcome ∧ e.threads = some r.threads ∧ e.checks = some r.checks ∧
      e.durationMs = some r.durationMs
  closed : ∃ e, es.getLast? = some e ∧ e.event = "run_end" ∧
    e.outcome = some (if summary.failed = 0 then .pass else .fail) ∧
    e.metrics = some (.record summary.tally.fields)

end Suite

end ThreadSlots
