import ThreadSlots.CommandLine.Host
import ThreadSlots.CommandLine.Request
import ThreadSlots.Log.Validation
import ThreadSlots.Scenario.Suite
import ThreadSlots.Text.Padding
import ThreadSlots.Text.Quoted

/-!
# The commands

`run` runs scenarios, writes their log and perhaps a summary, and says how each scenario went.
`validate-log` says what is wrong with a log. Both fail with a last line that gives the reason: a
file that could not be used, scenarios that failed, or a log that is not valid.
-/

namespace ThreadSlots.CommandLine

/-- A command either succeeds or gives a reason, in the form in which it is described. -/
abbrev Attempt (m : Type → Type) := ExceptT String m

/-- How a scenario went, as a line. -/
def reportLine (r : Report) : String :=
  s!"{Text.padEnd 20 r.scenario.name} {Text.padEnd 8 r.mode.name} {r.outcome.title} " ++
    s!"({r.checks} checks, {r.durationMs} ms)" ++ (r.failure.map (": " ++ ·)).getD ""

section Commands

variable {m : Type → Type} [Monad m]

/-- The result of a host's action on a file, with the reason described. -/
def onFile {α : Type} (x : m (Except FileError α)) : Attempt m α := do
  match ← (x : m _) with
  | .ok a => return a
  | .error e => throw e.describe

/-- Say several lines. -/
def sayAll (host : Host m) : List String → Attempt m Unit
  | [] => pure ()
  | line :: lines => do
    host.say line
    sayAll host lines

/-- Run scenarios. The log is made before anything runs, and holds what was logged even if the run
came to nothing. -/
def run (host : Host m) (o : RunOptions) : Attempt m Unit := do
  onFile (host.write o.log "")
  let clock ← host.now
  let environment ← host.environment
  let (result, state) := Suite.start clock o.chosen o.mode o.size
    { process := { environment := environment }
      emitter := { runId := o.runId, sink := .file } }
  let stored ← host.write o.log state.emitter.text
  match result, stored with
  | .error e, _ => throw e.describe
  | .ok _, .error e => throw (RunError.file e).describe
  | .ok summary, .ok () => do
    sayAll host (summary.reports.map reportLine)
    host.say s!"{summary.passed} passed, {summary.failed} failed; log at {o.log}"
    if let some path := o.summary then
      onFile (host.write path summary.toJson.indented)
      host.say s!"Summary written to {path}"
    if !summary.allPassed then
      throw (Text.quoted s!"{summary.failed} scenario run(s) failed")

/-- Validate a log. -/
def validateLog (host : Host m) (input : String) : Attempt m Unit := do
  let content ← onFile (host.read input)
  let findings ← onFile (pure (Log.validateContent content))
  sayAll host (findings.violations.map (·.describe))
  if findings.violations.isEmpty then
    host.say s!"{input}: {findings.lines} line(s) valid"
  else
    throw (Text.quoted (s!"{findings.violations.length} validation error(s) " ++
      s!"in {findings.lines} line(s) of {input}"))

/-- What a process ends with: 0 for success, 1 for a failure, whose reason is said last. -/
def exitCode (host : Host m) (x : Attempt m Unit) : m Nat := do
  match ← x.run with
  | .ok () => return 0
  | .error reason =>
    host.say s!"Error: {reason}"
    return 1

/-- Do what the command line asks for: the code that the process ends with. -/
def Request.execute (host : Host m) : Request → m Nat
  | .run options => exitCode host (CommandLine.run host options)
  | .validateLog input => exitCode host (CommandLine.validateLog host input)
  | .help => return 0
  | .refused => return 2

end Commands

end ThreadSlots.CommandLine
