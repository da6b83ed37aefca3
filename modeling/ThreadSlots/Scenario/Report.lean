import ThreadSlots.FileError
import ThreadSlots.Scenario.Bodies

/-!
# Running a scenario

A scenario's trial runs on one fresh thread, which clears itself in the end; the isolation scenario
starts several threads at once. The report says how it went. How long a scenario takes is no matter
of the storage engine: the time that has gone by is given.
-/

namespace ThreadSlots

/-- Why there is no verdict. -/
inductive RunError where
  | storage (e : StorageError)
  | file (e : FileError)
  /-- A thread of the scenario panicked. -/
  | threadPanicked (scenario : Scenario)
  deriving DecidableEq, Repr

/-- The failure in words. -/
def RunError.message : RunError → String
  | .storage e => s!"storage error: {e.message}"
  | .file e => s!"io error: {e.message}"
  | .threadPanicked scenario => s!"scenario thread panicked in {scenario.name}"

/-- The failure with all its parts. -/
def RunError.describe : RunError → String
  | .storage e => s!"Storage({e.describe})"
  | .file e => s!"Io({e.describe})"
  | .threadPanicked scenario => s!"ThreadPanicked \x7b scenario: {Text.quoted scenario.name} \x7d"

/-- How a scenario went. -/
structure Report where
  scenario : Scenario
  mode : ThreadMode
  outcome : Log.Outcome
  threads : Nat
  checks : Nat
  durationMs : Nat := 0
  failure : Option String := none
  deriving DecidableEq, Repr

namespace Report

/-- Every condition held. -/
def passed (r : Report) : Bool := r.outcome == .pass

/-- The report as a record. -/
def toJson (r : Report) : Json :=
  .obj (
    [("scenario", .str r.scenario.name), ("mode", .str r.mode.name),
      ("outcome", .str r.outcome.name), ("threads", .nat r.threads), ("checks", .nat r.checks),
      ("duration_ms", .nat r.durationMs)] ++
    (r.failure.map fun s => ("failure", Json.str s)).toList)

/-- The report of a verdict. Conditions are counted in 64 bits, and no duration is longer than 64 bits
can tell. -/
def ofVerdict (scenario : Scenario) (mode : ThreadMode) (threads elapsedMs : Nat)
    (verdict : Verdict) : Report :=
  let durationMs := min elapsedMs Json.maxInteger
  match verdict with
  | .ok checks =>
    let checks := checks % (Json.maxInteger + 1)
    { scenario, mode, outcome := .pass, threads, checks, durationMs }
  | .error failure =>
    { scenario, mode, outcome := .fail, threads, checks := 0, durationMs, failure := some failure }

end Report

namespace Scenario

/-- A result, or why there is none. -/
def settled {α : Type} (scenario : Scenario) : Except Stop α → Except RunError α
  | .ok a => .ok a
  | .error (.refused e) => .error (.storage e)
  | .error (.panicked _) => .error (.threadPanicked scenario)

/-- End a thread that has no more to do. -/
def retire (mode : ThreadMode) (p : Process) (t : Thread) : Except Stop Unit × Process :=
  let (result, scene) := (clearOnExit mode.kind nestingLimit).runOn { process := p, thread := t }
  (result, (scene.unwind 0).process.settle)

/-- Run a trial on one fresh thread. The thread clears itself even if the storage engine refused. -/
def onThread (scenario : Scenario) (mode : ThreadMode) (trial : Trial Unit) (p : Process) :
    Except RunError Verdict × Process :=
  let (_, thread, process) := p.startThread mode.kind none
  let (verdict, scene) := trial.verdict.runOn { process := process, thread := thread }
  let (cleared, scene) := (ThreadSlots.clearThread nested).runOn scene
  let (retired, process) := retire mode scene.process scene.thread
  (do
    let _ ← settled scenario cleared
    let _ ← settled scenario retired
    settled scenario verdict, process)

/-- A thread that takes part in the isolation scenario. -/
structure Participant where
  thread : Thread
  sighting : Except Stop Sighting

/-- A participant does a move, unless it was stopped. -/
def Participant.move (x : Participant) (p : Process) (move : Move) : Participant × Process :=
  match x.sighting with
  | .error _ => (x, p)
  | .ok s =>
    let (result, scene) := (move s).runOn { process := p, thread := x.thread }
    ({ thread := scene.thread, sighting := result }, scene.process)

/-- A participant does several moves. -/
def Participant.moves (x : Participant) (p : Process) : List Move → Participant × Process
  | [] => (x, p)
  | m :: ms =>
    let (x, p) := x.move p m
    x.moves p ms

/-- Start the participants with the numbers from `id` on. -/
def startParticipants (mode : ThreadMode) (p : Process) (id : Nat) :
    (n : Nat) → List Participant × Process
  | 0 => ([], p)
  | n + 1 =>
    let (_, thread, p) := p.startThread mode.kind none
    let (rest, p) := startParticipants mode p (id + 1) n
    ({ thread := thread, sighting := .ok { id := id } } :: rest, p)

/-- Every participant does the moves, one participant after the other. -/
def moveAll (ms : List Move) (p : Process) : List Participant → List Participant × Process
  | [] => ([], p)
  | x :: xs =>
    let (x, p) := x.moves p ms
    let (xs, p) := moveAll ms p xs
    (x :: xs, p)

/-- End the participants: what each found. -/
def retireAll (mode : ThreadMode) (p : Process) :
    List Participant → List (Except RunError Verdict) × Process
  | [] => ([], p)
  | x :: xs =>
    let (retired, p) := retire mode p x.thread
    let (rest, p) := retireAll mode p xs
    ((do
      let _ ← settled .isolation retired
      let s ← settled .isolation x.sighting
      return s.verdict) :: rest, p)

/-- The verdict of several: the sum of what was checked, or the first failure. -/
def together : List Verdict → Verdict
  | [] => .ok 0
  | .error what :: _ => .error what
  | .ok n :: rest => (together rest).map (n + ·)

/-- Several threads set one variable, each to its own number, and read it back. -/
def runIsolation (mode : ThreadMode) (size : ScenarioSize) (p : Process) :
    Except RunError Verdict × Process :=
  let (made, scene) :=
    (makeVariable foreign).runOn { process := p, thread := { id := 0 } }
  match settled .isolation made with
  | .error e => (.error e, scene.process)
  | .ok v =>
    let (xs, p) := startParticipants mode scene.process 0 (max size.threads 1)
    let (xs, p) := moveAll (openingMoves v) p xs
    let (xs, p) := moveAll (readingMoves v size.iterations) p xs
    let (found, p) := retireAll mode p xs
    (do return together (← found.mapM id), p)

/-- How many threads the scenario's report names. -/
def reportedThreads (scenario : Scenario) (size : ScenarioSize) : Nat :=
  match scenario with
  | .isolation => size.threads
  | _ => 1

/-- What the scenario finds. -/
def verdict (scenario : Scenario) (mode : ThreadMode) (size : ScenarioSize) (p : Process) :
    Except RunError Verdict × Process :=
  match scenario with
  | .lifecycle => onThread scenario mode (lifecycleTrial size) p
  | .isolation => runIsolation mode size p
  | .removeAll => onThread scenario mode removeAllTrial p
  | .growth => onThread scenario mode growthTrial p
  | .boundedBookkeeping => onThread scenario mode (boundedBookkeepingTrial size) p
  | .allocationOrder => onThread scenario mode (allocationOrderTrial size) p

/-- Run the scenario, which takes so many milliseconds: its report and the process after it. -/
def run (scenario : Scenario) (mode : ThreadMode) (size : ScenarioSize) (p : Process)
    (elapsedMs : Nat := 0) : Except RunError Report × Process :=
  let (found, p) := verdict scenario mode size p
  (found.map (Report.ofVerdict scenario mode (scenario.reportedThreads size) elapsedMs), p)

end Scenario

end ThreadSlots
