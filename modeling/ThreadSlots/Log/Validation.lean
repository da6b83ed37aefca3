import ThreadSlots.FileError
import ThreadSlots.Json.Parser
import ThreadSlots.Log.Entry
import ThreadSlots.Text.Blank
import ThreadSlots.Text.Lines

/-!
# Validation of logs

`validateLine` reads one line of a log. It first checks the rules that relate fields to each other
and reports every violation in one fixed order; only a line without any is then read field by
field, which can fail once more. `validateText` validates every line that is not blank and numbers
the lines as they stand in the text.

The rules: four fields are required; levels, outcomes, streams and thread modes given as texts have
one of the known names; a trace id has exactly three parts between double colons; events that end a
piece of work carry an outcome; and an entry about a scenario names its kind of threads.
-/

namespace ThreadSlots.Log

/-- What is wrong with a line. -/
inductive Fault where
  /-- The line is no JSON value. -/
  | notJson
  /-- The line is no JSON object. -/
  | notObject
  | missing (field : String)
  /-- The field has a text that names nothing. -/
  | unknownName (field value : String)
  | malformedTraceId (traceId : String)
  /-- The event ends a piece of work and does not say how it went. -/
  | noOutcome (event : String)
  /-- The entry is about a scenario and does not name its kind of threads. -/
  | noThreadMode
  /-- A field has a value of the wrong type. -/
  | wrongType
  deriving DecidableEq, Repr

namespace Fault

/-- The field that a fault is reported for. -/
def field : Fault → String
  | .notJson => "<json>"
  | .notObject => "<root>"
  | .missing field => field
  | .unknownName field _ => field
  | .malformedTraceId _ => "trace_id"
  | .noOutcome _ => "outcome"
  | .noThreadMode => "thread_mode"
  | .wrongType => "<deserialization>"

/-- The fault in words. -/
def message : Fault → String
  | .notJson => "invalid JSON:"
  | .notObject => "expected JSON object"
  | .missing _ => "required field missing"
  | .unknownName field value => s!"invalid {field}: '{value}'"
  | .malformedTraceId traceId =>
    s!"trace_id should follow <run_id>::<scope>::<seq> format, got: '{traceId}'"
  | .noOutcome event => s!"'{event}' events must carry an outcome"
  | .noThreadMode => "scenario events must name their thread_mode"
  | .wrongType => "failed to deserialize:"

end Fault

/-- A fault of the line with the given number. -/
structure Violation where
  line : Nat
  fault : Fault
  deriving DecidableEq, Repr

/-- The violation in words. -/
def Violation.describe (v : Violation) : String :=
  s!"line {v.line}: field '{v.fault.field}': {v.fault.message}"

/-- The fields that every line must have. -/
def requiredFields : List String := ["timestamp", "trace_id", "level", "event"]

/-- The kinds of threads that an entry may name. -/
def threadModes : List String := ["carried", "generic"]

/-- The events that end a piece of work. -/
def closingEvents : List String := ["scenario_end", "run_end"]

/-- The parts of a trace id: the texts between its double colons, found from the left. -/
def traceParts : List Char → List (List Char)
  | [] => [[]]
  | ':' :: ':' :: cs => [] :: traceParts cs
  | c :: cs =>
    match traceParts cs with
    | part :: parts => (c :: part) :: parts
    | [] => [[c]]

/-- The text of a field, if it has one. -/
def textField? (fields : List (String × Json)) (name : String) : Option String :=
  (fields.lookup name).bind Json.text?

/-- The field is present, whatever its value. -/
def hasField (fields : List (String × Json)) (name : String) : Bool :=
  (fields.lookup name).isSome

/-- A fault if the field is a text that is not among the allowed ones. -/
def nameFaults (fields : List (String × Json)) (name : String) (allowed : List String) :
    List Fault :=
  match textField? fields name with
  | some value => if allowed.contains value then [] else [.unknownName name value]
  | none => []

/-- A fault if the trace id is a text that does not have three parts. -/
def traceFaults (fields : List (String × Json)) : List Fault :=
  match textField? fields "trace_id" with
  | some traceId =>
    if (traceParts traceId.toList).length = 3 then [] else [.malformedTraceId traceId]
  | none => []

/-- A fault if the event ends a piece of work and there is no outcome. -/
def outcomeFaults (fields : List (String × Json)) : List Fault :=
  match textField? fields "event" with
  | some event =>
    if closingEvents.contains event && !hasField fields "outcome" then [.noOutcome event] else []
  | none => []

/-- A fault if there is a scenario and no thread mode. -/
def scenarioFaults (fields : List (String × Json)) : List Fault :=
  if hasField fields "scenario" && !hasField fields "thread_mode" then [.noThreadMode] else []

/-- The faults of an object, in the order in which they are reported. -/
def faults (fields : List (String × Json)) : List Fault :=
  (requiredFields.filter fun name => !hasField fields name).map .missing ++
  nameFaults fields "level" (Level.all.map Level.name) ++
  nameFaults fields "outcome" (Outcome.all.map Outcome.name) ++
  nameFaults fields "stream" (Stream.all.map Stream.name) ++
  nameFaults fields "thread_mode" threadModes ++
  traceFaults fields ++ outcomeFaults fields ++ scenarioFaults fields

/-- An optional field: absent and null mean nothing, any other value must be readable. -/
def optionalField? {α : Type} (fields : List (String × Json)) (name : String)
    (read : Json → Option α) : Option (Option α) :=
  match fields.lookup name with
  | none => some none
  | some .null => some none
  | some v => (read v).map some

/-- The entry that the fields describe, if each has a value of its type. -/
def Entry.ofFields? (fields : List (String × Json)) : Option Entry := do
  return {
    timestamp := ← textField? fields "timestamp"
    traceId := ← textField? fields "trace_id"
    level := ← (fields.lookup "level").bind (Json.oneOf? Level.all Level.name)
    event := ← textField? fields "event"
    runId := ← optionalField? fields "run_id" Json.text?
    stream := ← optionalField? fields "stream" (Json.oneOf? Stream.all Stream.name)
    scenario := ← optionalField? fields "scenario" Json.text?
    threadMode := ← optionalField? fields "thread_mode" Json.text?
    outcome := ← optionalField? fields "outcome" (Json.oneOf? Outcome.all Outcome.name)
    threads := ← optionalField? fields "threads" Json.nat?
    checks := ← optionalField? fields "checks" Json.nat?
    durationMs := ← optionalField? fields "duration_ms" Json.nat?
    metrics := ← optionalField? fields "metrics" some
    details := ← optionalField? fields "details" some
  }

/-- The entry of an object, or everything that is wrong with it. -/
def Entry.ofObject (fields : List (String × Json)) : Except (List Fault) Entry :=
  match faults fields with
  | [] =>
    match Entry.ofFields? fields with
    | some entry => .ok entry
    | none => .error [.wrongType]
  | found => .error found

/-- The entry that a line writes, or everything that is wrong with it. -/
def Entry.ofLine (line : String) : Except (List Fault) Entry :=
  match Json.parse? line with
  | none => .error [.notJson]
  | some (.obj fields) => Entry.ofObject fields
  | some _ => .error [.notObject]

/-- The entry of the line with the given number, or its violations. -/
def validateLine (line : String) (number : Nat) : Except (List Violation) Entry :=
  (Entry.ofLine line).mapError fun found => found.map fun fault => ⟨number, fault⟩

/-- What validating a whole text finds. -/
structure Findings where
  /-- The number of lines that are not blank. -/
  lines : Nat
  violations : List Violation
  deriving DecidableEq, Repr

/-- The findings in lines of which the first has the given number. -/
def validateLines (number : Nat) : List (List Char) → Findings
  | [] => ⟨0, []⟩
  | cs :: rest =>
    let line := Text.trim cs
    let later := validateLines (number + 1) rest
    if line.isEmpty then later
    else
      let found := match validateLine (String.ofList line) number with
        | .ok _ => []
        | .error found => found
      ⟨later.lines + 1, found ++ later.violations⟩

/-- The findings in a text. Blank lines are skipped, but they count for the line numbers. -/
def validateText (text : String) : Findings :=
  validateLines 1 (Text.lines text.toList)

/-- The findings in the content of a file, which must be UTF-8. -/
def validateContent (content : ByteArray) : Except FileError Findings :=
  match String.fromUTF8? content with
  | some text => .ok (validateText text)
  | none => .error .notText

end ThreadSlots.Log
