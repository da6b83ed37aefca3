import ThreadSlots.FileError
import ThreadSlots.Log.Entry

/-!
# Writing logs

An emitter appends entries to a log, one line each. It numbers the entries that come without a
trace id: such an entry receives `<run_id>::<scope>::<seq>`, where the scope is its scenario or
`run`, and the number counts up from 1. It also fills in the run where an entry names none.

A log goes to memory, to a file, or to a file on a device that has no space left. Writing to a file
only gathers the text; when more than a buffer's length has been gathered, or on request, it is
handed to the device, which is when a full device refuses it.
-/

namespace ThreadSlots.Log

/-- Where a log goes. -/
inductive Sink where
  /-- Memory, which can be read back at any time. -/
  | memory
  /-- A file, which can be read back once it is closed. -/
  | file
  /-- A file on a full device, with the number of bytes that wait for it. -/
  | fullDevice (waiting : Nat)
  deriving DecidableEq, Repr

namespace Sink

/-- How many bytes a file gathers before it hands them to the device. -/
def bufferSize : Nat := 8192

/-- Write `bytes` bytes. What does not fit beside the bytes that wait is only taken after those were
handed over, and what fills the buffer alone is handed over at once. -/
def write (bytes : Nat) : Sink → Except FileError Sink
  | .fullDevice waiting =>
    if bufferSize < waiting + bytes ∧ 0 < waiting then .error .storageFull
    else if bufferSize ≤ bytes then .error .storageFull
    else .ok (.fullDevice (waiting + bytes))
  | sink => .ok sink

/-- Hand everything to the device. -/
def flush : Sink → Except FileError Unit
  | .fullDevice waiting => if waiting = 0 then .ok () else .error .storageFull
  | _ => .ok ()

end Sink

/-- A log being written. -/
structure Emitter where
  /-- The run that the entries belong to. -/
  runId : String
  /-- How many trace ids have been filled in. -/
  issued : Nat := 0
  sink : Sink := .memory
  /-- The lines written so far, the last one first. -/
  written : List String := []
  deriving Repr

namespace Emitter

/-- The number of a trace id, with zeros in front up to three digits. -/
def sequenceText (n : Nat) : String := Text.zeroPadded 3 n

/-- The next trace id of a scope. -/
def issueTraceId (emitter : Emitter) (scope : String) : String × Emitter :=
  let n := emitter.issued + 1
  (s!"{emitter.runId}::{scope}::{sequenceText n}", { emitter with issued := n })

/-- Append a line: its text, then a line feed. -/
def write (emitter : Emitter) (line : String) : Except FileError Unit × Emitter :=
  match emitter.sink.write line.utf8ByteSize with
  | .error e => (.error e, emitter)
  | .ok sink =>
    match sink.write 1 with
    | .error e => (.error e, { emitter with sink := sink })
    | .ok sink => (.ok (), { emitter with sink := sink, written := line :: emitter.written })

/-- Append an entry of the run, made now under the next trace id of a scope. -/
def emit (emitter : Emitter) (clock : Clock) (level : Level) (scope event : String) :
    Except FileError Entry × Emitter :=
  let (traceId, emitter) := emitter.issueTraceId scope
  let entry := { Entry.new clock traceId level event with runId := some emitter.runId }
  let (result, emitter) := emitter.write entry.line
  (result.map fun _ => entry, emitter)

/-- Append `n` such entries, each whatever became of those before it: what became of the last one, if
any. -/
def emitMany (emitter : Emitter) (clock : Clock) (level : Level) (scope event : String) :
    (n : Nat) → Except FileError (Option Entry) × Emitter
  | 0 => (.ok none, emitter)
  | n + 1 =>
    let (_, emitter) := emitter.emitMany clock level scope event n
    let (result, emitter) := emitter.emit clock level scope event
    (result.map some, emitter)

/-- The entry with its trace id and run filled in where they are absent. -/
def complete (emitter : Emitter) (entry : Entry) : Entry × Emitter :=
  let (traceId, emitter) :=
    if entry.traceId.isEmpty then emitter.issueTraceId (entry.scenario.getD "run")
    else (entry.traceId, emitter)
  ({ entry with traceId := traceId, runId := some (entry.runId.getD emitter.runId) }, emitter)

/-- Append an entry. -/
def append (emitter : Emitter) (entry : Entry) : Except FileError Unit × Emitter :=
  let (entry, emitter) := emitter.complete entry
  emitter.write entry.line

/-- Hand everything written so far to the device. -/
def flush (emitter : Emitter) : Except FileError Unit := emitter.sink.flush

/-- The text of everything written so far. -/
def text (emitter : Emitter) : String :=
  String.join (emitter.written.reverse.map (· ++ "\n"))

/-- What a log in memory holds. -/
def buffered? (emitter : Emitter) : Option String :=
  match emitter.sink with
  | .memory => some emitter.text
  | _ => none

/-- What a log in a file holds once the file is closed. -/
def content? (emitter : Emitter) : Option String :=
  match emitter.sink with
  | .file => some emitter.text
  | _ => none

end Emitter

end ThreadSlots.Log
