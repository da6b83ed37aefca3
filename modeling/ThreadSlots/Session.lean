import ThreadSlots.Lifetime

/-!
# Sessions of several threads

A session is a process and its threads, which take turns: each step does one command on one thread,
starts a thread, or ends one. The main thread is there from the start and outlives the session.

A thread's code may use thread-locals of its own, whose destructors do commands when the thread ends.
-/

namespace ThreadSlots

/-- A thread of a session. -/
structure Actor where
  name : String
  kind : ThreadKind
  /-- The thread-locals that its own code has used, the latest first. -/
  late : List Late
  thread : Thread

/-- The process and its threads. -/
structure Session where
  process : Process := {}
  /-- The threads that have not ended, in the order in which they were started. -/
  actors : List Actor
  /-- How deeply nested code may nest. -/
  depth : Nat := nestingLimit

namespace Session

/-- The name of the thread that is there from the start. -/
def mainName : String := "main"

/-- A fresh process with the given environment. Its main thread goes by its own name. -/
def start (environment : Environment) (depth : Nat := nestingLimit) : Session where
  process := { environment := environment, threadNames := [(mainName, 0)] }
  actors := [{
    name := mainName
    kind := .generic
    late := []
    thread := { id := 0, label := some mainName } }]
  depth := depth

/-- The thread of a name. -/
def actor? (s : Session) (name : String) : Option Actor := s.actors.find? (·.name == name)

/-- Put a thread's new state in place of the old one. -/
def setThread (s : Session) (name : String) (t : Thread) : Session :=
  { s with actors := s.actors.map fun a => if a.name == name then { a with thread := t } else a }

/-- The thread's code uses one more thread-local. -/
def addLate (s : Session) (name : String) (code : Late) : Session :=
  { s with
    actors := s.actors.map fun a => if a.name == name then { a with late := code :: a.late } else a }

end Session

/-- What the thread's own table looks like between steps. -/
structure Glance where
  carrying : Bool
  tracked : Nat
  /-- Capacity and size of the table, if there is one. -/
  table : Option (Nat × Nat)
  deriving DecidableEq, Repr

/-- Look at the thread's own table when fallback tables have the given epoch. Nothing is used or made
for that. -/
def Thread.glance (t : Thread) (epoch : UInt64) : Glance :=
  let own := (t.own? epoch).map t.table
  { carrying := t.carried?.isSome
    tracked := (own.bind fun table => (table.get? reservedSlot).bind Cell.liveSet?).elim 0 (·.size)
    table := own.map fun table => (table.capacity, table.size) }

/-- One step of a session. -/
inductive Step where
  | run (actor : String) (command : Command)
  /-- A thread is started. Before all else its code may use a thread-local whose destructor does the
  given commands. -/
  | spawn (actor : String) (kind : ThreadKind) (label : Option String)
      (late : Option (List Command))
  /-- The thread's code uses a thread-local whose destructor does the given commands. -/
  | use (actor : String) (late : List Command)
  /-- The thread's code returns, or panics with a message. -/
  | join (actor : String) (panics : Option String)

/-- How a thread ended. -/
structure Ending where
  /-- The message of the panic that ended it. -/
  panic : Option String
  /-- The answers to what the destructors of its code's own thread-locals did, if it used any; a
  panicking command answers with its message. -/
  late : Option (List (Except String Reply))
  deriving Repr

/-- What a step led to. -/
inductive StepResult where
  | replied (r : Reply)
  | panicked (message : String)
  /-- Whether the new thread carries a table and, if it was asked for a name, its name. -/
  | spawned (carrying : Bool) (label : Option (Option String))
  | joined (e : Ending)
  /-- No thread has the name. -/
  | noThread
  deriving Repr

/-- A step's result, its events in order, and a glance at the thread after it. -/
structure StepReport where
  result : StepResult
  events : List Event := []
  glance : Option Glance := none
  deriving Repr

/-- A command's answer, or the message it panicked with. -/
def answer : Except Stop Reply → Except String Reply
  | .ok r => .ok r
  | .error (.refused e) => .ok (.refused e)
  | .error (.panicked message) => .error message

namespace Session

/-- Run an action on a thread, and let the workers settle after it. -/
def act {α : Type} (p : Process) (t : Thread) (x : Storage α) : Except Stop α × Scene :=
  let (result, scene) := x.runOn { process := p, thread := t }
  (result, { scene with process := scene.process.settle })

/-- One command on a thread. -/
def command (s : Session) (name : String) (c : Command) : StepReport × Session :=
  match s.actor? name with
  | none => ({ result := .noThread }, s)
  | some a =>
    let (result, scene) := act s.process a.thread (perform (enter s.depth) c)
    ({ result := match answer result with
        | .ok reply => .replied reply
        | .error message => .panicked message
       events := scene.events.reverse
       glance := some (scene.thread.glance scene.process.epoch) },
      { s with process := scene.process }.setThread name scene.thread)

/-- Start a thread. -/
def spawn (s : Session) (name : String) (kind : ThreadKind) (label : Option String)
    (late : Option (List Command)) : StepReport × Session :=
  let late := Late.first late
  let (carrying, thread, process) := s.process.startThread kind label late.length
  ({ result := .spawned carrying (if kind = .withContext then some label else none) },
    { s with
      process := { process with threadNames := (name, thread.id) :: process.threadNames }
      actors := s.actors ++ [{ name := name, kind := kind, late := late, thread := thread }] })

/-- A thread's code uses a thread-local of its own. -/
def use (s : Session) (name : String) (commands : List Command) : StepReport × Session :=
  match s.actor? name with
  | none => ({ result := .noThread }, s)
  | some a =>
    let locals := a.thread.locals
    ({ result := .replied .done },
      (s.setThread name { a.thread with locals := { locals with uses := locals.uses + 1 } }).addLate
        name { since := locals.uses, commands })

/-- Do the commands of a destructor, each to its end. -/
def runLate (depth : Nat) (sc : Scene) : List Command → List (Except String Reply) × Scene
  | [] => ([], sc)
  | c :: cs =>
    let (result, sc) := (perform (enter depth) c).runOn sc
    let (rest, sc) := runLate depth sc cs
    (answer result :: rest, sc)

/-- Run the destructors of thread-locals of the thread's own code, the latest first. Before each of
them, what was used after it is destroyed. -/
def runDestructors (depth : Nat) (sc : Scene) : List Late → List (Except String Reply) × Scene
  | [] => ([], sc)
  | code :: earlier =>
    let (answers, sc) := runLate depth (sc.unwind (code.since + 1)) code.commands
    let (rest, sc) := runDestructors depth sc earlier
    (answers ++ rest, sc)

/-- Run the destructors of all thread-locals, given those of the thread's own code. -/
def tearDown (depth : Nat) (sc : Scene) (late : List Late) : List (Except String Reply) × Scene :=
  let (answers, sc) := runDestructors depth sc late
  (answers, sc.unwind 0)

/-- End a thread: it clears itself, and then its thread-locals are destroyed. -/
def exit (depth : Nat) (p : Process) (a : Actor) (panics : Option String) : Ending × Scene :=
  let (result, scene) := (clearOnExit a.kind depth).runOn { process := p, thread := a.thread }
  let panic := match panics, result with
    | some message, _ => some message
    | none, .error (.panicked message) => some message
    | none, _ => none
  let (late, scene) := tearDown depth scene a.late
  ({ panic := panic, late := if a.late.isEmpty then none else some late },
    { scene with process := scene.process.settle })

/-- Wait for a thread to end. -/
def join (s : Session) (name : String) (panics : Option String) : StepReport × Session :=
  match s.actor? name with
  | none => ({ result := .noThread }, s)
  | some a =>
    let (ending, scene) := exit s.depth s.process a panics
    ({ result := .joined ending, events := scene.events.reverse },
      { s with process := scene.process, actors := s.actors.filter (·.name != name) })

/-- One step. -/
def step (s : Session) : Step → StepReport × Session
  | .run name c => s.command name c
  | .spawn name kind label late => s.spawn name kind label late
  | .use name late => s.use name late
  | .join name panics => s.join name panics

/-- All steps in order. -/
def run (s : Session) : List Step → List StepReport × Session
  | [] => ([], s)
  | x :: xs =>
    let (report, s) := s.step x
    let (reports, s) := s.run xs
    (report :: reports, s)

/-- End the given threads, in order: each one's name and report. -/
def joinAll (s : Session) : List String → List (String × StepReport) × Session
  | [] => ([], s)
  | name :: names =>
    let (report, s) := s.join name none
    let (reports, s) := s.joinAll names
    ((name, report) :: reports, s)

/-- End all threads but the main one, in the order in which they were started. -/
def close (s : Session) : List (String × StepReport) × Session :=
  s.joinAll ((s.actors.map (·.name)).filter (· != mainName))

end Session

end ThreadSlots
