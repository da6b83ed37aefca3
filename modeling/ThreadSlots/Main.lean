import Std.Time.DateTime.Timestamp
import ThreadSlots.CommandLine.Commands

/-!
# The program

Reads the command line and carries it out on the machine's files.
-/

namespace ThreadSlots.CommandLine

/-- The refusal that a failed file operation stands for. Some operations give the system's number of
it with the opposite sign. -/
def refusalOf : IO.Error → FileError
  | .noFileOrDirectory .. => .notFound
  | .permissionDenied .. => .permissionDenied
  | .inappropriateType _ code _ =>
    if [code, 0 - code].any (some ·.toNat = FileError.notDirectory.code?) then .notDirectory
    else .isDirectory
  | .invalidArgument .. => .nameTooLong
  | .resourceExhausted .. => .storageFull
  | _ => .notFound

/-- The result of a file operation, or its refusal. -/
def attempt {α : Type} (x : IO α) : IO (Except FileError α) :=
  tryCatch (Except.ok <$> x) fun e => return .error (refusalOf e)

/-- The environment variables that the settings depend on. -/
def readEnvironment : IO Environment := do
  let entry (name : String) : IO (List (String × ByteArray)) := do
    match ← IO.getEnv name with
    | some value => return [(name, value.toUTF8)]
    | none => return []
  return { entries := (← entry Settings.sentinelPolicyVariable) ++
    (← entry Settings.deathWatchVariable) }

/-- The actions on the machine the program runs on. -/
def machine : Host IO where
  now := do
    let t ← Std.Time.Timestamp.now
    return { seconds := t.val.second.val, nanos := t.val.nano.val.toNat }
  environment := readEnvironment
  read path := attempt (IO.FS.readBinFile path)
  write path content := attempt (IO.FS.withFile path .write fun file => do
    file.putStr content
    file.flush)
  say line := IO.eprintln line

/-- How the program is called. -/
def usage : String :=
  "Usage: threadslots run [--scenario <SCENARIO>]... [--mode <MODE>] [--threads <THREADS>]\n" ++
  "         [--iterations <ITERATIONS>] [--variables <VARIABLES>] [--log <LOG>]\n" ++
  "         [--summary <SUMMARY>] [--run-id <RUN_ID>]\n" ++
  "       threadslots validate-log --input <INPUT>\n" ++
  "       threadslots help"

end ThreadSlots.CommandLine

/-- Carry out the command line. A wrong one is answered with the usage. -/
def main (arguments : List String) : IO UInt32 := do
  let request := ThreadSlots.CommandLine.Request.ofArguments arguments
  match request with
  | .help => IO.println ThreadSlots.CommandLine.usage
  | .refused => IO.eprintln ThreadSlots.CommandLine.usage
  | _ => pure ()
  return UInt32.ofNat (← request.execute ThreadSlots.CommandLine.machine)
