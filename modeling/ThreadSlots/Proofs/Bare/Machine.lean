import ThreadSlots.Session

/-!
# Threads that keep nothing

A thread without storage, as its code sees it: nothing is set, so every read calls the initializer,
every write is lost at once, and there is nothing to remove or to count. There are no tables here and
no values. All that a turn depends on is what a thread is `Given`, which stays the same, and how often
each initializer has made a value; all that it leaves is that number, and events.

The machine knows the commands about the thread's own storage alone (`Command.IsOwn`).
-/

namespace ThreadSlots

open Std (ExtTreeMap)

/-- The command is about the thread's own storage, be it one variable or the whole. To destroy the
tables of other threads is not. -/
def Command.IsOwn : Command → Prop
  | .access _ .ambient _ => True
  | .onThread op => op ≠ .destroy
  | _ => False

namespace Bare

/-- What a thread is given. -/
structure Given where
  /-- The variable that a handle stands for. -/
  resolve? : Nat → Option Variable
  /-- The policy of tables. -/
  policy : SentinelPolicy
  /-- The thread's name. -/
  label : Option String

/-- What a thread leaves. -/
structure Trace where
  /-- How often each variable's initializer has made a value, by slot. -/
  draws : ExtTreeMap Nat Nat
  /-- The events so far, the latest first. -/
  events : List Event

/-- What a thread does that keeps nothing. -/
def Turn (α : Type) : Type := Trace → Except Stop α × Trace

namespace Turn

variable {α β : Type}

protected def pure (a : α) : Turn α := fun t => (.ok a, t)

protected def bind (x : Turn α) (f : α → Turn β) : Turn β := fun t =>
  match x t with
  | (.ok a, t) => f a t
  | (.error stop, t) => (.error stop, t)

instance : Monad Turn where
  pure := Turn.pure
  bind := Turn.bind

def stop (s : Stop) : Turn α := fun t => (.error s, t)

/-- The turn, with a panic caught. -/
def caught (x : Turn α) : Turn (Except String α) := fun t =>
  match x t with
  | (.ok a, t) => (.ok (.ok a), t)
  | (.error (.panicked message), t) => (.ok (.error message), t)
  | (.error (.refused e), t) => (.error (.refused e), t)

def say (e : Event) : Turn Unit := fun t => (.ok (), { t with events := e :: t.events })

/-- How often the initializer has made a value before; it counts as one more. -/
def draw (v : Variable) : Turn Nat := fun t =>
  let n := t.draws.getD v.slot 0
  (.ok n, { t with draws := t.draws.insert v.slot (n + 1) })

variable (given : Given) (enter : Script → Turn (Option Value))

/-- Run the nested code of an initializer, if it has any: the value that the code ends with. -/
def runNested (initial : Initializer) : Turn (Option Value) :=
  match initial.nested with
  | some nested => enter nested
  | none => pure none

/-- Call the initializer. -/
def makeInitial (v : Variable) : Turn Value := do
  let result ← runNested enter v.initial
  match v.initial.outcome (← draw v) result with
  | .ok made =>
    let value := v.kind.fit made
    if !v.initial.silent then
      say (.initialized v.handle value)
    return value
  | .error message =>
    if !v.initial.silent then
      say (.initializerPanicked v.handle)
    stop (.panicked message)

/-- Call the initializer and hand the value to nested code. -/
def withInitial (v : Variable) (body : Option (Value → Script)) : Turn Value := do
  let value ← makeInitial enter v
  if let some nested := body then
    let _ ← enter (nested value)
  return value

/-- What is done to a variable that is not set and does not stay set. -/
def access (v : Variable) : Access → Turn Reply
  | .get => return .value (← makeInitial enter v)
  | .withValue body => return .value (← withInitial enter v body)
  | .set _ | .store (some _) | .remove => return .done
  | .store none =>
    if given.policy.rejectsSentinel then
      stop (.refused (.sentinelStored v.slot))
    else
      return .done
  | .replace _ | .take => return .previous none
  | .isSet => return .flag false

/-- The thread has no table, and one that it asks for is new and not carried. -/
def upkeep : Upkeep → Reply
  | .clear | .discard | .destroy => .done
  | .isCarrying | .hasTable | .release _ => .flag false
  | .liveCount => .number 0
  | .threadName => .name given.label
  | .adopt _ => .adopted false (describeContext { policy := given.policy })
  | .adoptSize => .adoptedSize false 0

/-- One command. Those about anything else do nothing here. -/
def command : Command → Turn Reply
  | .access handle _ op =>
    match given.resolve? handle with
    | none => return .noVariable
    | some v => access given enter v op
  | .onThread op => return upkeep given op
  | _ => return .done

/-- One command; a refusal is a reply. -/
def perform (c : Command) : Turn Reply := fun t =>
  match command given enter c t with
  | (.error (.refused e), t) => (.ok (.refused e), t)
  | ended => ended

def reportStep (name : String) : Except String Reply → Turn Unit
  | .ok reply => say (.stepped name reply)
  | .error _ => pure ()

def script : Script → Turn (Option Value)
  | .done result => pure result
  | .panic message => stop (.panicked message)
  | .step name c next => do
    let answer ← caught (perform given enter c)
    reportStep name answer
    script (next answer)

end Turn

/-- Nested code that nests at most `depth` levels. -/
def enter (given : Given) : (depth : Nat) → Script → Turn (Option Value)
  | 0 => fun _ => do
    Turn.say .tooDeep
    return none
  | depth + 1 => Turn.script given (enter given depth)

/-- The commands one after the other, each to its end: their answers. A panicking one answers with its
message. -/
def answers (given : Given) (depth : Nat) (t : Trace) :
    List Command → List (Except String Reply) × Trace
  | [] => ([], t)
  | c :: cs =>
    let (result, t) := Turn.perform given (enter given depth) c t
    let (rest, t) := answers given depth t cs
    (answer result :: rest, t)

end Bare

end ThreadSlots
