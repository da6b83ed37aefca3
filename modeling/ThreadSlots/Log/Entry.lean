import ThreadSlots.Calendar
import ThreadSlots.Json.Names
import ThreadSlots.Json.Printer

/-!
# Log entries

A log is a sequence of lines, each a JSON object that records one event of a run. Every entry says
when it happened, where it belongs (`traceId`), how severe it is and which event it records; all
else is optional. A line lists the fields in one fixed order and leaves out those that are absent.
-/

namespace ThreadSlots.Log

/-- How severe an event is. -/
inductive Level where
  | trace
  | debug
  | info
  | warn
  | error
  deriving DecidableEq, Repr

namespace Level

def all : List Level := [.trace, .debug, .info, .warn, .error]

/-- The level's name in a line. -/
def name : Level → String
  | .trace => "trace"
  | .debug => "debug"
  | .info => "info"
  | .warn => "warn"
  | .error => "error"

/-- The level's name as a title. -/
def title : Level → String
  | .trace => "Trace"
  | .debug => "Debug"
  | .info => "Info"
  | .warn => "Warn"
  | .error => "Error"

theorem mem_all (l : Level) : l ∈ all := by cases l <;> decide

end Level

/-- How a piece of work went. -/
inductive Outcome where
  | pass
  | fail
  | skip
  | error
  deriving DecidableEq, Repr

namespace Outcome

def all : List Outcome := [.pass, .fail, .skip, .error]

/-- The outcome's name in a line. -/
def name : Outcome → String
  | .pass => "pass"
  | .fail => "fail"
  | .skip => "skip"
  | .error => "error"

/-- The outcome's name as a title. -/
def title : Outcome → String
  | .pass => "Pass"
  | .fail => "Fail"
  | .skip => "Skip"
  | .error => "Error"

theorem mem_all (o : Outcome) : o ∈ all := by cases o <;> decide

end Outcome

/-- The kind of work that an entry comes from. -/
inductive Stream where
  | unit
  | scenario
  | perf
  deriving DecidableEq, Repr

namespace Stream

def all : List Stream := [.unit, .scenario, .perf]

/-- The stream's name in a line. -/
def name : Stream → String
  | .unit => "unit"
  | .scenario => "scenario"
  | .perf => "perf"

/-- The stream's name as a title. -/
def title : Stream → String
  | .unit => "Unit"
  | .scenario => "Scenario"
  | .perf => "Perf"

theorem mem_all (s : Stream) : s ∈ all := by cases s <;> decide

end Stream

/-- One record of a log. -/
structure Entry where
  timestamp : String
  /-- Where the entry belongs: `<run_id>::<scope>::<seq>`. -/
  traceId : String
  level : Level
  event : String
  runId : Option String := none
  stream : Option Stream := none
  scenario : Option String := none
  /-- The kind of threads that the scenario ran on. -/
  threadMode : Option String := none
  outcome : Option Outcome := none
  threads : Option Nat := none
  /-- How many conditions were checked. -/
  checks : Option Nat := none
  durationMs : Option Nat := none
  /-- The storage counters at the time of the event. -/
  metrics : Option Json := none
  /-- Free-form details. -/
  details : Option Json := none
  deriving Repr

namespace Entry

/-- An entry with nothing but the required fields, stamped by the clock. -/
def new (clock : Clock) (traceId : String) (level : Level) (event : String) : Entry :=
  { timestamp := clock.timestamp, traceId := traceId, level := level, event := event }

def withStream (e : Entry) (stream : Stream) : Entry := { e with stream := some stream }

/-- Name the scenario and the kind of threads it ran on. -/
def withScenario (e : Entry) (scenario mode : String) : Entry :=
  { e with scenario := some scenario, threadMode := some mode }

def withOutcome (e : Entry) (outcome : Outcome) : Entry := { e with outcome := some outcome }

def withThreads (e : Entry) (n : Nat) : Entry := { e with threads := some n }

def withChecks (e : Entry) (n : Nat) : Entry := { e with checks := some n }

def withDurationMs (e : Entry) (n : Nat) : Entry := { e with durationMs := some n }

def withMetrics (e : Entry) (v : Json) : Entry := { e with metrics := some v }

def withDetails (e : Entry) (v : Json) : Entry := { e with details := some v }

/-- The fields of the entry's line, in order. -/
def fields (e : Entry) : List (String × Json) :=
  let optional (name : String) (v : Option Json) : List (String × Json) :=
    v.toList.map fun v => (name, v)
  [("timestamp", .str e.timestamp), ("trace_id", .str e.traceId),
    ("level", .str e.level.name), ("event", .str e.event)] ++
  optional "run_id" (e.runId.map .str) ++
  optional "stream" (e.stream.map (.str ·.name)) ++
  optional "scenario" (e.scenario.map .str) ++
  optional "thread_mode" (e.threadMode.map .str) ++
  optional "outcome" (e.outcome.map (.str ·.name)) ++
  optional "threads" (e.threads.map .nat) ++
  optional "checks" (e.checks.map .nat) ++
  optional "duration_ms" (e.durationMs.map .nat) ++
  optional "metrics" e.metrics ++
  optional "details" e.details

/-- The entry's line, without a line feed. -/
def line (e : Entry) : String := (Json.obj e.fields).render

end Entry

end ThreadSlots.Log
