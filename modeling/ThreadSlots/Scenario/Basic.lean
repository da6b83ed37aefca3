import ThreadSlots.Lifetime
import ThreadSlots.Log.Entry

/-!
# Scenarios

A scenario exercises one promise of the storage engine on fresh threads and counts the conditions it
checks. It runs on threads that carry their table, on generic threads, or on either kind in turn.
-/

namespace ThreadSlots

/-- The threads a scenario runs on. -/
inductive ThreadMode where
  /-- Threads that carry a table. -/
  | carried
  /-- Threads that use a fallback table. -/
  | generic
  /-- Each kind in turn. -/
  | both
  deriving DecidableEq, Repr

namespace ThreadMode

def all : List ThreadMode := [.carried, .generic, .both]

/-- The mode's name in settings, logs and reports. -/
def name : ThreadMode → String
  | .carried => "carried"
  | .generic => "generic"
  | .both => "both"

/-- The mode's name as a title. -/
def title : ThreadMode → String
  | .carried => "Carried"
  | .generic => "Generic"
  | .both => "Both"

/-- The single modes that a mode stands for. -/
def expand : ThreadMode → List ThreadMode
  | .carried => [.carried]
  | .generic => [.generic]
  | .both => [.carried, .generic]

/-- How the threads are started. -/
def kind : ThreadMode → ThreadKind
  | .generic => .generic
  | .carried | .both => .carried

/-- The mode with the given name. -/
def ofName? (s : String) : Option ThreadMode := all.find? (·.name == s)

theorem mem_all (m : ThreadMode) : m ∈ all := by cases m <;> decide

end ThreadMode

/-- The promises that can be exercised. -/
inductive Scenario where
  /-- A variable goes from unset to set and back, and is made anew after that. -/
  | lifecycle
  /-- No thread sees another thread's value. -/
  | isolation
  /-- Clearing a thread clears exactly the variables it has set. -/
  | removeAll
  /-- Values survive the growth of their table. -/
  | growth
  /-- The live set holds nothing but variables that are set. -/
  | boundedBookkeeping
  /-- Slots increase in the order in which variables are made. -/
  | allocationOrder
  deriving DecidableEq, Repr

namespace Scenario

def all : List Scenario :=
  [.lifecycle, .isolation, .removeAll, .growth, .boundedBookkeeping, .allocationOrder]

/-- The scenario's name in logs and reports. -/
def name : Scenario → String
  | .lifecycle => "lifecycle"
  | .isolation => "isolation"
  | .removeAll => "remove_all"
  | .growth => "growth"
  | .boundedBookkeeping => "bounded_bookkeeping"
  | .allocationOrder => "allocation_order"

/-- The scenario's name as a title. -/
def title : Scenario → String
  | .lifecycle => "Lifecycle"
  | .isolation => "Isolation"
  | .removeAll => "RemoveAll"
  | .growth => "Growth"
  | .boundedBookkeeping => "BoundedBookkeeping"
  | .allocationOrder => "AllocationOrder"

/-- The scenario's name on a command line. -/
def optionName : Scenario → String
  | .lifecycle => "lifecycle"
  | .isolation => "isolation"
  | .removeAll => "remove-all"
  | .growth => "growth"
  | .boundedBookkeeping => "bounded-bookkeeping"
  | .allocationOrder => "allocation-order"

/-- The scenario with the given name on a command line. -/
def ofOption? (s : String) : Option Scenario := all.find? (·.optionName == s)

theorem mem_all (s : Scenario) : s ∈ all := by cases s <;> decide

end Scenario

/-- How large the scenarios are. -/
structure ScenarioSize where
  /-- How many threads take part where several do. -/
  threads : Nat := 8
  /-- How often each loop is repeated. -/
  iterations : Nat := 200
  /-- How many variables are made to watch their order. -/
  population : Nat := 10000
  deriving DecidableEq, Repr

/-- What a scenario finds: the number of conditions it checked, all of which held, or the first that
did not. -/
abbrev Verdict := Except String Nat

end ThreadSlots
