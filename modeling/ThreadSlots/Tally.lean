/-!
# Counters of storage events

Eight counters that only ever grow, one per kind of rare event. Reading and writing values counts
nothing; creating, growing and clearing tables does. A report shows what a counter of 64 bits shows.
-/

namespace ThreadSlots

/-- The events that are counted. -/
inductive Counter where
  /-- A variable received its slot. -/
  | variablesRegistered
  /-- A slot table was made. -/
  | tablesCreated
  /-- A slot table grew. -/
  | tableExpansions
  /-- An initializer was called. -/
  | initializations
  /-- A pass over a thread's variables found a table to clear. -/
  | removeAllPasses
  /-- The fallback tables of all threads were invalidated. -/
  | fallbackDestroys
  /-- A thread was put under the death watch. -/
  | threadsWatched
  /-- The death watch forgot a thread that had died. -/
  | deathJobsRun
  deriving DecidableEq, Repr

namespace Counter

/-- The counters in the order in which they are reported. -/
def all : List Counter :=
  [.variablesRegistered, .tablesCreated, .tableExpansions, .initializations, .removeAllPasses,
    .fallbackDestroys, .threadsWatched, .deathJobsRun]

/-- The counter's name in reports. -/
def name : Counter → String
  | .variablesRegistered => "variables_registered"
  | .tablesCreated => "tables_created"
  | .tableExpansions => "table_expansions"
  | .initializations => "initializations"
  | .removeAllPasses => "remove_all_passes"
  | .fallbackDestroys => "fallback_destroys"
  | .threadsWatched => "threads_watched"
  | .deathJobsRun => "death_jobs_run"

/-- The counter with the given name. -/
def ofName? (s : String) : Option Counter :=
  all.find? (·.name == s)

theorem mem_all (c : Counter) : c ∈ all := by cases c <;> decide

end Counter

/-- How often each event has happened. -/
structure Tally where
  variablesRegistered : Nat := 0
  tablesCreated : Nat := 0
  tableExpansions : Nat := 0
  initializations : Nat := 0
  removeAllPasses : Nat := 0
  fallbackDestroys : Nat := 0
  threadsWatched : Nat := 0
  deathJobsRun : Nat := 0
  deriving DecidableEq, Repr

namespace Tally

/-- How often the event has happened. -/
def get (m : Tally) : Counter → Nat
  | .variablesRegistered => m.variablesRegistered
  | .tablesCreated => m.tablesCreated
  | .tableExpansions => m.tableExpansions
  | .initializations => m.initializations
  | .removeAllPasses => m.removeAllPasses
  | .fallbackDestroys => m.fallbackDestroys
  | .threadsWatched => m.threadsWatched
  | .deathJobsRun => m.deathJobsRun

/-- The event happened `n` more times. -/
def add (m : Tally) (n : Nat) : Counter → Tally
  | .variablesRegistered => { m with variablesRegistered := m.variablesRegistered + n }
  | .tablesCreated => { m with tablesCreated := m.tablesCreated + n }
  | .tableExpansions => { m with tableExpansions := m.tableExpansions + n }
  | .initializations => { m with initializations := m.initializations + n }
  | .removeAllPasses => { m with removeAllPasses := m.removeAllPasses + n }
  | .fallbackDestroys => { m with fallbackDestroys := m.fallbackDestroys + n }
  | .threadsWatched => { m with threadsWatched := m.threadsWatched + n }
  | .deathJobsRun => { m with deathJobsRun := m.deathJobsRun + n }

/-- The event happened once more. -/
def increment (m : Tally) (c : Counter) : Tally := m.add 1 c

/-- A counter that has counted this far shows zero again. -/
def range : Nat := 18446744073709551616

/-- The counters in report order, each with its name. -/
def toList (m : Tally) : List (String × Nat) :=
  Counter.all.map fun c => (c.name, m.get c % range)

@[simp] theorem get_add (m : Tally) (n : Nat) (c d : Counter) :
    (m.add n c).get d = m.get d + if c = d then n else 0 := by
  cases c <;> cases d <;> rfl

end Tally

end ThreadSlots
