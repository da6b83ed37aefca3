import Std.Data.ExtTreeMap
import ThreadSlots.Settings
import ThreadSlots.Tally
import ThreadSlots.StorageError
import ThreadSlots.Value

/-!
# Scripts: what runs on a thread

A thread does one command after the other, and the code that a variable calls back (its initializer,
its removal hook) or that is handed a value may do commands in turn. A `Script` is such nested code:
a tree that does a command, looks at what came of it and goes on, also after a panic of the command;
it may panic itself at any point, and may end with a value. It is data, so storage and scripts can be
defined one after the other, and one function runs any script.

Variables are named by handles, numbered in the order of their declaration; explicit tables have
names, kept per thread.
-/

namespace ThreadSlots

/-- What a slot shows to an observer. -/
inductive Content where
  | value (v : Value)
  /-- The bookkeeping of the thread's own variables. -/
  | liveSet
  deriving DecidableEq, Repr

/-- The answer to a command. -/
inductive Reply where
  | done
  | flag (b : Bool)
  | number (n : Nat)
  | value (v : Value)
  /-- The value that was set before, if any. -/
  | previous (v : Option Value)
  | text (s : String)
  /-- A name, if there is one. -/
  | name (s : Option String)
  /-- The storage engine refused. -/
  | refused (e : StorageError)
  /-- No variable has the handle. -/
  | noVariable
  /-- No table has the name. -/
  | noTable
  /-- No watcher has the name. -/
  | noWatcher
  /-- A new variable: its handle and slot. -/
  | declared (handle slot : Nat)
  /-- A row of new variables: handle and slot of the first and of the last. -/
  | declaredRow (first last : Nat × Nat)
  /-- Another handle of a variable. -/
  | handle (n : Nat)
  /-- Two variables are equal, have equal hashes, and the first has the smaller slot. -/
  | compared (equal equalHash less : Bool)
  /-- The thread was asked to carry a table: whether it does, and its table in words. -/
  | adopted (carrying : Bool) (description : String)
  /-- The same, with the number of values in the table. -/
  | adoptedSize (carrying : Bool) (size : Nat)
  | table (capacity size : Nat) (policy : SentinelPolicy) (slots : List Nat) (description : String)
  /-- Whether a slot is set, and what it shows. -/
  | slot (isSet : Bool) (content : Option Content)
  | tally (m : Tally)
  | supply (last : Option Nat) (taken : Nat)
  | settings (c : Settings)
  | policy (p : SentinelPolicy)
  /-- The settings were installed, or are handed back. -/
  | installed (returned : Option Settings)
  | jobs (labels : List String)
  | several (replies : List Reply)
  deriving Repr

/-- Where an operation on a variable finds its table. -/
inductive Place where
  /-- The calling thread's own table. -/
  | ambient
  /-- The thread's explicit table of that name. -/
  | table (name : String)
  deriving DecidableEq, Repr

/-- What is asked of the calling thread's own storage. -/
inductive Upkeep where
  /-- Clear every variable set on the thread and discard its table. -/
  | clear
  /-- Invalidate the fallback tables of all threads. -/
  | destroy
  /-- Discard the thread's table. -/
  | discard
  | isCarrying
  | liveCount
  | hasTable
  | threadName
  /-- Carry a table from now on and name it. -/
  | adopt (table : String)
  /-- Carry a table from now on, and say how many values it has. -/
  | adoptSize
  /-- Stop carrying the table and name it. -/
  | release (table : String)
  deriving DecidableEq, Repr

/-- What is asked of explicit tables. -/
inductive TableCommand where
  /-- Make a table, with a policy of its own or that of the process, holding the given values. -/
  | new (table : String) (policy : Option SentinelPolicy) (raw : List (Nat × Value))
  /-- Name the thread's own table, made if it has none. -/
  | current (table : String)
  /-- Name the thread's own table if it has one. -/
  | currentIfSet (table : String)
  | copy (source table : String)
  | drop (table : String)
  | same (a b : String)
  | info (table : String)
  | peek (table : String) (slot : Nat)
  deriving Repr

/-- What is asked of the process. -/
inductive ProcessCommand where
  | tally
  | supply
  /-- Use up slot indices without making variables. -/
  | burn (n : Nat)
  | settings
  | policy
  /-- The settings that the environment asks for. -/
  | environmentSettings
  | install (settings : Settings)
  deriving Repr

/-- What is asked of the watchers. -/
inductive WatchCommand where
  /-- How many threads the death watch tracks. -/
  | trackedThreads
  /-- Wait until it tracks that many. -/
  | awaitTracked (n : Nat)
  | new (watcher : String)
  /-- Record the label once the calling thread has died, then panic if asked. -/
  | watch (watcher label : String) (panics : Bool)
  /-- Cancel the jobs of the named thread, or of the calling one. -/
  | unwatch (watcher : String) (thread : Option String)
  | count (watcher : String)
  | isActive (watcher : String)
  /-- Wait until the watcher's worker has left, for a limited time if asked. -/
  | await (watcher : String) (limited : Bool)
  /-- The labels recorded since this was asked last. -/
  | jobs
  deriving Repr

mutual

/-- Nested code. -/
inductive Script where
  /-- End, with a value if there is one to hand over. -/
  | done (result : Option Value)
  | panic (message : String)
  /-- Do a command, report its reply under a name, and go on with the reply, or with the message if
  the command panicked. -/
  | step (name : String) (command : Command) (next : Except String Reply → Script)

/-- How a variable makes its initial value. -/
structure Initializer where
  /-- What it does first. -/
  nested : Option Script
  /-- The value it makes, or the message it panics with, given how often one was made before, on
  whichever thread, and the value that the nested code ended with. -/
  outcome : Nat → Option Value → Except String Value
  /-- Whether a call leaves no trace among the events. -/
  silent : Bool

/-- What happens to a value that is removed. -/
structure Hook where
  /-- What is done with the value first. -/
  nested : Option (Value → Script)
  /-- The message to panic with after that, if any. -/
  panics : Value → Option String

/-- What is done to one variable. -/
inductive Access where
  | get
  /-- Read the value and hand it to nested code. -/
  | withValue (body : Option (Value → Script))
  | set (value : Literal)
  /-- Set, and answer the value that was set before. -/
  | replace (value : Literal)
  /-- Store a value or the unset sentinel. -/
  | store (entry : Option Literal)
  | take
  | remove
  | isSet

/-- One thing that a thread does. -/
inductive Command where
  /-- Make a variable. -/
  | declare (kind : Kind) (initial : Initializer) (hook : Option Hook)
  /-- Make `n` variables alike. -/
  | declareRow (n : Nat) (kind : Kind) (initial : Initializer) (hook : Option Hook)
  | access (handle : Nat) (place : Place) (op : Access)
  /-- Set the variables from one handle up to below another to multiples of their handles. -/
  | setRow (first last : Nat) (factor : Int)
  | getRow (first last : Nat)
  | slotOf (handle : Nat)
  | describe (handle : Nat)
  /-- Make another handle of a variable. -/
  | duplicate (handle : Nat)
  /-- Give up a handle. -/
  | drop (handle : Nat)
  | compare (a b : Nat)
  | onThread (op : Upkeep)
  | onTables (op : TableCommand)
  | onProcess (op : ProcessCommand)
  | onWatchers (op : WatchCommand)

end

/-- The named commands one after the other, whatever they answer, up to a panic. -/
def Script.ofList : List (String × Command) → Script
  | [] => .done none
  | (name, command) :: rest => .step name command fun
    | .ok _ => .ofList rest
    | .error message => .panic message

/-- A variable with an independent value on every thread. -/
structure Variable where
  /-- The slot of its values in every table. -/
  slot : Nat
  /-- The handle it was declared under, which stands for it in events. -/
  handle : Nat
  kind : Kind
  initial : Initializer
  onRemoval : Option Hook

/-- The variables that hold a value in one table, by slot. -/
abbrev LiveSet := Std.ExtTreeMap Nat Variable

/-- What a slot of a thread's table holds. -/
inductive Cell where
  | value (v : Value)
  /-- The table's live set, in the reserved slot. -/
  | liveSet (set : LiveSet)

namespace Cell

/-- The value, if there is one of the given type. -/
def value? (kind : Kind) : Cell → Option Value
  | .value v => if v.kind = kind then some v else none
  | .liveSet _ => none

/-- The live set, if there is one. -/
def liveSet? : Cell → Option LiveSet
  | .value _ => none
  | .liveSet set => some set

/-- What the cell shows to an observer. -/
def content : Cell → Content
  | .value v => .value v
  | .liveSet _ => .liveSet

end Cell

/-- What callbacks leave behind while a command runs. -/
inductive Event where
  /-- An initializer made a value. -/
  | initialized (handle : Nat) (value : Value)
  /-- An initializer panicked. -/
  | initializerPanicked (handle : Nat)
  /-- A removal hook began with the removed value. -/
  | removed (handle : Nat) (value : Value)
  /-- A step of nested code was done. -/
  | stepped (name : String) (reply : Reply)
  /-- Nested code was not run because too much of it was running already. -/
  | tooDeep
  deriving Repr

end ThreadSlots
