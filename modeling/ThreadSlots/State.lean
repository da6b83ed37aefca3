import Std.Data.ExtTreeMap
import Std.Data.ExtTreeSet
import ThreadSlots.SlotSupply
import ThreadSlots.Script
import ThreadSlots.Table
import ThreadSlots.Watcher

/-!
# The state of a process and its threads

What threads share is the `Process`: the supply of slots, the counters, the settings once they were
read, the fallback epoch, and the death watch. What a thread has for itself is the `Thread`: its
slot tables, which no other thread can reach, and its thread-locals.

Two thread-locals hold tables. A carrying thread has its table in one of them. Any other thread gets
a fallback table on first use, stamped with the epoch of that moment; a table of another epoch
counts as absent. A third one reports the thread's death.

The first use of a thread-local registers its destructor. When the thread ends, the destructors run
one after the other, the one registered last first; what was destroyed can neither be reached nor set
again.
-/

namespace ThreadSlots

open Std (ExtTreeMap ExtTreeSet)

/-- A job of the death watch or of a watcher. -/
inductive Job where
  /-- Stop tracking the thread, which has died. -/
  | forget (thread : ThreadId)
  /-- Record a label, then panic if asked. -/
  | record (label : String) (panics : Bool)
  deriving DecidableEq, Repr

/-- What the threads of a process share. -/
structure Process.State where
  supply : SlotSupply := {}
  tally : Tally := {}
  environment : Environment := {}
  /-- The settings, once they were read or installed. -/
  settings : Option Settings := none
  /-- Fallback tables of another epoch count as absent. -/
  epoch : UInt64 := 1
  /-- The variables that were made, by slot. -/
  bySlot : ExtTreeMap Nat Variable := ∅
  /-- The slots of the variables by handle, except for handles that were given up or never received
  a slot. -/
  byHandle : ExtTreeMap Nat Nat := ∅
  /-- The next handle. -/
  nextHandle : Nat := 0
  /-- How often each variable's initializer has made a value, by slot. -/
  draws : ExtTreeMap Nat Nat := ∅
  /-- The threads that hold values and are watched for their death. -/
  tracked : ExtTreeSet ThreadId := ∅
  /-- The watchers; the first one belongs to the death watch. -/
  watchers : Array (Watcher Job) := #[{}]
  /-- The names of the watchers. -/
  watcherNames : List (String × Nat) := [("global", 0)]
  /-- The identity of the next thread. -/
  nextThread : ThreadId := 1
  /-- The names of the threads, the latest bearer of a name first. -/
  threadNames : List (String × ThreadId) := []
  /-- The labels that jobs have recorded, the latest first. -/
  recorded : List String := []

/-- A process: its state, and beside it what has happened and no operation reads. -/
structure Process extends Process.State where
  /-- How many slots were taken from the supply and not for a variable. -/
  burned : Nat := 0

/-- A table of values and bookkeeping. -/
abbrev SlotTable := Table Cell

/-- Identifies a table of a thread. -/
abbrev TableId := Nat

/-- A fallback table and the epoch it was made in. -/
structure Fallback where
  epoch : UInt64
  table : TableId
  deriving DecidableEq, Repr

/-- A thread-local that may hold something. -/
inductive LocalCell (α : Type) where
  | unused
  /-- It was first used after so many others, and its destructor has not run. -/
  | inUse (since : Nat) (content : Option α)
  | destroyed
  deriving DecidableEq, Repr

namespace LocalCell

variable {α : Type}

/-- What it holds, if it can be reached. -/
def content? : LocalCell α → Option α
  | .inUse _ content => content
  | _ => none

/-- Change what it holds, if it can be reached. -/
def put (content : Option α) : LocalCell α → LocalCell α
  | .inUse since _ => .inUse since content
  | cell => cell

/-- After how many others it was first used, if its destructor is still to run. -/
def since? : LocalCell α → Option Nat
  | .inUse since _ => some since
  | _ => none

end LocalCell

/-- The thread-locals that hold tables. -/
structure Locals where
  carried : LocalCell TableId := .unused
  fallback : LocalCell Fallback := .unused
  /-- How many thread-locals were used so far, those of the thread's own code included. Not counted
  is the one that reports the thread's death. -/
  uses : Nat := 0
  deriving DecidableEq, Repr

namespace Locals

/-- Reach for the carried table. -/
def useCarried (l : Locals) : Locals :=
  match l.carried with
  | .unused => { l with carried := .inUse l.uses none, uses := l.uses + 1 }
  | _ => l

/-- Reach for the fallback table. -/
def useFallback (l : Locals) : Locals :=
  match l.fallback with
  | .unused => { l with fallback := .inUse l.uses none, uses := l.uses + 1 }
  | _ => l

/-- Carry the table, or none. -/
def setCarried (l : Locals) (table : Option TableId) : Locals :=
  { l with carried := l.carried.put table }

/-- Have the fallback table, or none. -/
def setFallback (l : Locals) (fallback : Option Fallback) : Locals :=
  { l with fallback := l.fallback.put fallback }

end Locals

/-- The thread-local that reports a thread's death. -/
inductive Sentinel where
  | absent
  /-- It was first used after so many other thread-locals, and reports to the given watchers, in this
  order. -/
  | installed (since : Nat) (watchers : List Nat)
  /-- It was destroyed. -/
  | destroyed
  deriving DecidableEq, Repr

/-- After how many others it was first used, if its destructor is still to run. -/
def Sentinel.since? : Sentinel → Option Nat
  | .installed since _ => some since
  | _ => none

/-- What a thread has for itself. -/
structure Thread.State where
  id : ThreadId
  /-- Every table the thread has made. -/
  tables : ExtTreeMap TableId SlotTable := ∅
  /-- The identity of the next table. -/
  nextTable : TableId := 0
  /-- The thread-locals that hold tables. -/
  locals : Locals := {}
  sentinel : Sentinel := .absent
  /-- The explicit tables by name. -/
  names : List (String × TableId) := []
  /-- The name the thread was given. -/
  label : Option String := none

/-- A thread: its state, and beside it what has happened and no operation reads. -/
structure Thread extends Thread.State where
  /-- A panic has come out of a removal hook while the thread was being cleared. -/
  interrupted : Bool := false
  /-- The explicit tables that were made with values in them. -/
  filled : List TableId := []

namespace Thread

/-- The table with the given identity. -/
def table (t : Thread) (id : TableId) : SlotTable := t.tables.getD id {}

/-- Let a table do something. A refused call makes no table. -/
def updateTable {β : Type} (t : Thread) (id : TableId)
    (f : SlotTable → Except StorageError β × SlotTable) : Except StorageError β × Thread :=
  match t.tables[id]? with
  | some table =>
    -- the thread lets go of the table, which can be changed in place then
    let others := t.tables.erase id
    let (result, table) := f table
    (result, { t with tables := others.insert id table })
  | none =>
    match f {} with
    | (.ok b, table) => (.ok b, { t with tables := t.tables.insert id table })
    | (.error e, _) => (.error e, t)

/-- The explicit table with the given name. -/
def named? (t : Thread) (name : String) : Option TableId := t.names.lookup name

/-- Name a table, taking the name from an earlier one. -/
def bind (t : Thread) (name : String) (id : TableId) : Thread :=
  { t with names := (name, id) :: t.names.filter (·.1 != name) }

/-- The table the thread carries. -/
def carried? (t : Thread) : Option TableId := t.locals.carried.content?

/-- The thread's fallback table, of whatever epoch. -/
def fallback? (t : Thread) : Option Fallback := t.locals.fallback.content?

/-- The thread's fallback table if it has the given epoch. -/
def fallbackOf? (t : Thread) (epoch : UInt64) : Option TableId :=
  (t.fallback?.filter (·.epoch = epoch)).map (·.table)

/-- The table that operations of the thread work on when fallback tables have the given epoch. -/
def own? (t : Thread) (epoch : UInt64) : Option TableId := t.carried? <|> t.fallbackOf? epoch

end Thread

namespace Process

/-- Count an event. -/
def count (p : Process) (c : Counter) : Process :=
  { p with tally := p.tally.increment c }

/-- The settings in effect, which are fixed by reading them. -/
def readSettings (p : Process) : Settings × Process :=
  match p.settings with
  | some c => (c, p)
  | none => (p.environment.settings, { p with settings := some p.environment.settings })

/-- The watcher with the given number. -/
def watcher (p : Process) (i : Nat) : Watcher Job := p.watchers.getD i {}

/-- Change a watcher. -/
def updateWatcher (p : Process) (i : Nat) (f : Watcher Job → Watcher Job) : Process :=
  { p with watchers := p.watchers.modify i f }

/-- What is left of a job after it ran. Its panic, if any, concerns only who runs it. -/
def runJob (p : Process) : Job → Process
  | .forget thread => { p with tracked := p.tracked.erase thread }.count .deathJobsRun
  | .record label _ => { p with recorded := label :: p.recorded }

/-- Let the worker of a watcher run every job it can. A panicking job does not stop it. -/
def settleWatcher (p : Process) (i : Nat) : Process :=
  let (jobs, w) := (p.watcher i).settle
  jobs.foldl runJob (p.updateWatcher i fun _ => w)

/-- Let all workers run every job they can. -/
def settle (p : Process) : Process :=
  (List.range p.watchers.size).foldl settleWatcher p

/-- A thread's sentinel is destroyed: each watcher it reports to learns of the death. -/
def reportDeath (p : Process) (thread : ThreadId) : Sentinel → Process
  | .installed _ watchers =>
    watchers.foldl (fun p i => p.updateWatcher i (·.reportDeath thread)) p
  | _ => p

end Process

end ThreadSlots
