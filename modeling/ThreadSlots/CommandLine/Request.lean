import ThreadSlots.Scenario.Basic

/-!
# What a command line asks for

A command line names one of two commands, `run` or `validate-log`, followed by options. An option is
written `--name value` or `--name=value`; its value never starts with a hyphen in the first form,
except for the lone hyphen. Every option may be given once, `--scenario` as often as wanted.
Arguments are read from left to right, and the first that settles the matter wins: a wrong one is
refused, and `--help` or `-h` asks for help whatever follows.
-/

namespace ThreadSlots.CommandLine

/-- How the scenarios are to be run. -/
structure RunOptions where
  /-- The scenarios that were named, in order. -/
  scenarios : List Scenario := []
  mode : ThreadMode := .both
  size : ScenarioSize := {}
  /-- The file that receives the log. -/
  log : String := "fastlocal-harness.log.jsonl"
  /-- The file that receives the summary, if any. -/
  summary : Option String := none
  runId : String := "local"
  deriving DecidableEq, Repr

/-- The scenarios to run: those that were named, or all of them. -/
def RunOptions.chosen (o : RunOptions) : List Scenario :=
  if o.scenarios.isEmpty then Scenario.all else o.scenarios

/-- What a command line asks for. -/
inductive Request where
  | run (options : RunOptions)
  | validateLog (input : String)
  | help
  /-- The command line is wrong. -/
  | refused
  deriving DecidableEq, Repr

/-! ## Values -/

/-- The largest number an option takes. -/
def largestNumber : Nat := 18446744073709551615

/-- The number that decimal digits write, if there is at least one and nothing else. -/
def digits? (cs : List Char) : Option Nat :=
  if cs ≠ [] ∧ cs.all Char.isDigit then
    some (cs.foldl (fun n c => 10 * n + (c.toNat - '0'.toNat)) 0)
  else none

/-- The number of an option: decimal digits, perhaps after a plus sign. -/
def number? (value : String) : Option Nat :=
  let digits := match value.toList with
    | '+' :: cs => cs
    | cs => cs
  (digits? digits).filter (· ≤ largestNumber)

/-- The path of an option, which may not be empty. -/
def path? (value : String) : Option String := if value.isEmpty then none else some value

/-! ## Options -/

/-- The options of `run`. -/
inductive RunOption where
  | scenario
  | mode
  | threads
  | iterations
  | population
  | log
  | summary
  | runId
  deriving DecidableEq, Repr

namespace RunOption

def all : List RunOption :=
  [.scenario, .mode, .threads, .iterations, .population, .log, .summary, .runId]

/-- The option's name after the two hyphens. -/
def name : RunOption → String
  | .scenario => "scenario"
  | .mode => "mode"
  | .threads => "threads"
  | .iterations => "iterations"
  | .population => "variables"
  | .log => "log"
  | .summary => "summary"
  | .runId => "run-id"

/-- Take the option's value into account, if it is a right one. -/
def accept? (option : RunOption) (value : String) (o : RunOptions) : Option RunOptions :=
  match option with
  | .scenario => (Scenario.ofOption? value).map fun s => { o with scenarios := o.scenarios ++ [s] }
  | .mode => (ThreadMode.ofName? value).map fun m => { o with mode := m }
  | .threads => (number? value).map fun n => { o with size := { o.size with threads := n } }
  | .iterations =>
    (number? value).map fun n => { o with size := { o.size with iterations := n } }
  | .population =>
    (number? value).map fun n => { o with size := { o.size with population := n } }
  | .log => (path? value).map fun p => { o with log := p }
  | .summary => (path? value).map fun p => { o with summary := some p }
  | .runId => some { o with runId := value }

end RunOption

/-- The options of `run` that were read, and which ones they were. -/
structure RunSoFar where
  options : RunOptions := {}
  given : List RunOption := []

/-- Take one more option of `run` into account. -/
def RunSoFar.add? (name value : String) (r : RunSoFar) : Option RunSoFar := do
  let option ← RunOption.all.find? (·.name == name)
  if option ≠ .scenario ∧ option ∈ r.given then
    none
  else
    let options ← option.accept? value r.options
    return { options := options, given := option :: r.given }

/-- The option of `validate-log`. -/
def inputOption : String := "input"

/-- Take the input of `validate-log` into account. -/
def addInput? (name value : String) : Option String → Option (Option String)
  | none => if name = inputOption then (path? value).map some else none
  | some _ => none

/-! ## Reading -/

/-- What reading the arguments of a command leads to. -/
inductive Reading (α : Type) where
  | read (a : α)
  | help
  | refused

/-- An argument that stands for itself, not for an option. -/
def isPlain (arg : String) : Bool :=
  match arg.toList with
  | ['-'] => true
  | '-' :: _ => false
  | _ => true

/-- The argument asks for help. -/
def asksForHelp (arg : String) : Bool :=
  match arg.toList with
  | '-' :: 'h' :: _ => true
  | _ => arg == "--help"

/-- The name of an option, and its value if that is part of the argument. -/
def option? (arg : String) : Option (String × Option String) :=
  match arg.toList with
  | '-' :: '-' :: cs =>
    match cs.dropWhile (· ≠ '=') with
    | '=' :: value => some (String.ofList (cs.takeWhile (· ≠ '=')), some (String.ofList value))
    | _ => some (String.ofList cs, none)
  | _ => none

/-- Read options one after the other, each taken into account by `add?`. -/
def readOptions {α : Type} (add? : String → String → α → Option α) (a : α) :
    List String → Reading α
  | [] => .read a
  | ["--"] => .read a
  | arg :: rest =>
    if asksForHelp arg then .help
    else
      match option? arg, rest with
      | some (name, some value), rest =>
        match add? name value a with
        | some a => readOptions add? a rest
        | none => .refused
      | some (name, none), value :: rest =>
        match if isPlain value then add? name value a else none with
        | some a => readOptions add? a rest
        | none => .refused
      | some (_, none), [] => .refused
      | none, _ => .refused

/-- The request of a command, given its arguments. -/
def Reading.request {α : Type} (make : α → Request) : Reading α → Request
  | .read a => make a
  | .help => .help
  | .refused => .refused

/-- The names of the commands. -/
def commandNames : List String := ["run", "validate-log", "help"]

/-- What the arguments ask for. -/
def Request.ofArguments : List String → Request
  | "run" :: rest => (readOptions RunSoFar.add? {} rest).request fun r => .run r.options
  | "validate-log" :: rest =>
    (readOptions addInput? none rest).request fun
      | some input => .validateLog input
      | none => .refused
  | ["help"] => .help
  | ["help", name] => if commandNames.contains name then .help else .refused
  | arg :: _ => if asksForHelp arg then .help else .refused
  | [] => .refused

end ThreadSlots.CommandLine
