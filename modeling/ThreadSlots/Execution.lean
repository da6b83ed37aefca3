import ThreadSlots.Variable

/-!
# Running commands and scripts

`Command.run` does one command on the calling thread, `perform` turns a refusal by the storage
engine into a reply, and `Script.run` does the commands of nested code one after the other, each
with `perform`. The code goes on after a panic if it has something to do then, and panics itself if
it has not.

Nested code nests at most `depth` levels in `enter depth`. Code that would go deeper is skipped and
leaves an event, so every script ends.
-/

namespace ThreadSlots

open Storage

/-! ## Callbacks -/

/-- A number of 64 bits with sign; counting past the largest one goes on at the smallest. -/
def wrap (i : Int) : Int := Int.bmod i 18446744073709551616

namespace Initializer

/-- Makes the type's first value and leaves no trace. -/
def plain (kind : Kind) : Initializer where
  nested := none
  outcome _ _ := .ok kind.zero
  silent := true

/-- Runs nested code, then panics, makes a constant, counts up from a number, or makes the type's
first value: the first of these that is asked for. -/
def ofParts (kind : Kind) (nested : Option Script) (panics : Option String)
    (value : Option Literal) (counter : Option Int) : Initializer where
  nested := nested
  outcome n _ :=
    match panics, value, counter with
    | some message, _, _ => .error message
    | none, some l, _ => .ok (kind.read l)
    | none, none, some start => .ok (kind.ofInt (wrap (start + n)))
    | none, none, none => .ok kind.zero
  silent := false

end Initializer

/-- Runs nested code, then panics if it is asked to, for every removed value or for one alone. -/
def Hook.ofParts (kind : Kind) (nested : Option Script) (panics : Option String)
    (only : Option Literal) : Hook where
  nested := nested.map fun s _ => s
  panics removed := panics.filter fun _ => only.all fun l => kind.read? l == some removed

/-! ## Variables -/

/-- The variable of a handle. -/
def lookup (handle : Nat) : Storage (Option Variable) := do
  let p ← process
  return p.byHandle[handle]?.bind (p.bySlot[·]?)

/-- Take the next handle. -/
def takeHandle : Storage Nat := do
  let handle := (← process).nextHandle
  modifyProcess fun p => { p with nextHandle := handle + 1 }
  return handle

/-- Let a handle stand for a variable. -/
def bindHandle (handle slot : Nat) : Storage Unit :=
  modifyProcess fun p => { p with byHandle := p.byHandle.insert handle slot }

/-- Allocate the slot of a variable. -/
def takeSlot : Storage Nat := do
  let (answer, supply) := (← process).supply.take
  let slot ← ofExcept answer
  modifyProcess fun p => { p with supply := supply }
  count .variablesRegistered
  return slot

/-- Make a variable with a slot of its own. -/
def enroll (variableAt : Nat → Variable) : Storage Variable := do
  let slot ← takeSlot
  let v := variableAt slot
  modifyProcess fun p => { p with bySlot := p.bySlot.insert slot v }
  return v

/-- Make a variable. Its handle is taken before its slot is allocated. -/
def declare (kind : Kind) (initial : Initializer) (hook : Option Hook) : Storage (Nat × Nat) := do
  let handle ← takeHandle
  let v ← enroll fun slot => { slot, handle, kind, initial, onRemoval := hook }
  bindHandle handle v.slot
  return (handle, v.slot)

/-- Make `n + 1` variables alike: handle and slot of the first and of the last. -/
def declareRow (kind : Kind) (initial : Initializer) (hook : Option Hook) :
    (n : Nat) → Storage ((Nat × Nat) × (Nat × Nat))
  | 0 => do
    let made ← declare kind initial hook
    return (made, made)
  | n + 1 => do
    let (first, _) ← declareRow kind initial hook n
    return (first, ← declare kind initial hook)

/-- The table of a place, made if it is the thread's own and there is none. -/
def Place.resolve : Place → Storage (Option TableId)
  | .ambient => some <$> current
  | .table name => return (← thread).named? name

/-- The table of a place, if there is one. -/
def Place.resolve? : Place → Storage (Option TableId)
  | .ambient => current?
  | .table name => return (← thread).named? name

/-- Do something to a variable at a place. -/
def Access.run (enter : Enter) (v : Variable) (place : Place) : Access → Storage Reply
  | .get => do
    let some table ← place.resolve | return .noTable
    return .value (← v.getIn enter table)
  | .withValue body => do
    let some table ← place.resolve | return .noTable
    return .value (← v.withIn enter table body)
  | .set value => do
    let some table ← place.resolve | return .noTable
    v.setIn table (v.kind.read value)
    return .done
  | .replace value => do
    let some table ← place.resolve | return .noTable
    return .previous (← v.replaceIn table (v.kind.read value))
  | .store entry => do
    let some table ← place.resolve | return .noTable
    v.storeIn enter table (entry.map v.kind.read)
    return .done
  | .take => do
    let some table ← place.resolve? | return .previous none
    return .previous (← v.takeIn table)
  | .remove => do
    let some table ← place.resolve? | return .done
    v.removeIn enter table
    return .done
  | .isSet => do
    let some table ← place.resolve? | return .flag false
    return .flag (← v.isSetIn table)

/-- Do something to the variable of a handle. -/
def accessHandle (enter : Enter) (handle : Nat) (place : Place) (op : Access) : Storage Reply := do
  let some v ← lookup handle | return .noVariable
  op.run enter v place

/-- Set the variables of `n` handles from `handle` on to multiples of their handles. A handle without
a variable is passed over. -/
def setRow (enter : Enter) (factor : Int) (handle : Nat) : (n : Nat) → Storage Reply
  | 0 => return .done
  | n + 1 => do
    match ← accessHandle enter handle .ambient (.set (.int (wrap (handle * factor)))) with
    | .done | .noVariable => setRow enter factor (handle + 1) n
    | reply => return reply

/-- The values of the variables of `n` handles from `handle` on. -/
def getRow (enter : Enter) (handle : Nat) : (n : Nat) → Storage (List Reply)
  | 0 => return []
  | n + 1 => do
    let reply ← accessHandle enter handle .ambient .get
    return reply :: (← getRow enter (handle + 1) n)

/-- A variable in words. -/
def Variable.describe (v : Variable) : String :=
  s!"ThreadLocalVariable \x7b slot: {describeSlot v.slot}, on_removal: {v.onRemoval.isSome} \x7d"

/-! ## Tables -/

/-- A table in words, as its owner sees it. -/
def describeTable (table : SlotTable) : String := s!"TableHandle({table.describe})"

/-- A carried table in words. -/
def describeContext (table : SlotTable) : String :=
  s!"FastThreadContext \x7b table: {describeTable table} \x7d"

/-- Put values into a new table. They are not tracked. -/
def preload (table : TableId) : List (Nat × Value) → Storage Unit
  | [] => pure ()
  | (n, value) :: rest => do
    modifyThread fun t => { t with filled := table :: t.filled }
    let slot ← ofExcept (SlotSupply.slot n)
    let _ ← store table slot (.value value)
    preload table rest

/-- Name a table. -/
def bindTable (name : String) (table : TableId) : Storage Unit := modifyThread (·.bind name table)

/-- The thread carries a table. -/
def isCarrying : Storage Bool := return (← carried?).isSome

def Upkeep.run (enter : Enter) : Upkeep → Storage Reply
  | .clear => do
    ThreadSlots.clearThread enter
    return .done
  | .destroy => do
    destroyFallbacks
    return .done
  | .discard => do
    Storage.discard
    return .done
  | .isCarrying => return .flag (← ThreadSlots.isCarrying)
  | .liveCount => return .number (← ThreadSlots.liveCount)
  | .hasTable => return .flag (← current?).isSome
  | .threadName => return .name (← thread).label
  | .adopt name => do
    let table ← Storage.adopt
    bindTable name table
    return .adopted (← ThreadSlots.isCarrying) (describeContext (← Storage.table table))
  | .adoptSize => do
    let table ← Storage.adopt
    return .adoptedSize (← ThreadSlots.isCarrying) (← Storage.table table).size
  | .release name => do
    let some table ← Storage.release | return .flag false
    bindTable name table
    return .flag true

/-- The slots that a description of a table lists are those below this one. -/
def listedSlots : Nat := 4096

def TableCommand.run : TableCommand → Storage Reply
  | .new name policy raw => do
    let table ← match policy with
      | some policy => newTable policy
      | none => freshTable
    preload table raw
    bindTable name table
    return .done
  | .current name => do
    bindTable name (← Storage.current)
    return .done
  | .currentIfSet name => do
    let some table ← current? | return .flag false
    bindTable name table
    return .flag true
  | .copy source name => do
    let some table := (← thread).named? source | return .noTable
    bindTable name table
    return .done
  | .drop name => do
    let known := ((← thread).named? name).isSome
    modifyThread fun t => { t with names := t.names.filter (·.1 != name) }
    return .flag known
  | .same a b => do
    let some x := (← thread).named? a | return .noTable
    let some y := (← thread).named? b | return .noTable
    return .flag (x = y)
  | .info name => do
    let some id := (← thread).named? name | return .noTable
    let table ← Storage.table id
    return .table table.capacity table.size table.policy
      (table.slots.filter (· < listedSlots)) (describeTable table)
  | .peek name n => do
    let some id := (← thread).named? name | return .noTable
    let slot ← ofExcept (SlotSupply.slot n)
    let table ← Storage.table id
    return .slot (table.contains slot) ((table.get? slot).map Cell.content)

/-! ## The process -/

def ProcessCommand.run : ProcessCommand → Storage Reply
  | .tally => return .tally (← process).tally
  | .supply => do
    let supply := (← process).supply
    return .supply supply.last? supply.taken
  | .burn n => do
    let before := (← process).supply
    let taken := before.takeLast n
    modifyProcess fun p =>
      { p with supply := taken.2, burned := p.burned + (taken.2.taken - before.taken) }
    match taken.1 with
    | none => return .done
    | some answer => return .number (← ofExcept answer)
  | .settings => return .settings (← Storage.settings)
  | .policy => return .policy (← Storage.settings).sentinelPolicy
  | .environmentSettings => return .settings (← process).environment.settings
  | .install c => do
    match (← process).settings with
    | some _ => return .installed (some c)
    | none =>
      modifyProcess fun p => { p with settings := some c }
      return .installed none

/-- Let the workers run while the thread waits. -/
def awaitWorkers : Storage Unit := modifyProcess Process.settle

def WatchCommand.run : WatchCommand → Storage Reply
  | .trackedThreads => return .number (← process).tracked.size
  | .awaitTracked _ => do
    awaitWorkers
    return .number (← process).tracked.size
  | .new name => do
    modifyProcess fun p =>
      { p with
        watchers := p.watchers.push {}
        watcherNames := (name, p.watchers.size) :: p.watcherNames }
    return .done
  | .watch name label panics => do
    let some i := (← process).watcherNames.lookup name | return .noWatcher
    Storage.watch i (.record label panics)
    return .done
  | .unwatch name target => do
    let some i := (← process).watcherNames.lookup name | return .noWatcher
    let id ← match target with
      | none => pure (some (← thread).id)
      | some thread => pure ((← process).threadNames.lookup thread)
    if let some id := id then
      modifyProcess (·.updateWatcher i (·.unwatch id))
    return .done
  | .count name => do
    let some i := (← process).watcherNames.lookup name | return .noWatcher
    return .number ((← process).watcher i).count
  | .isActive name => do
    let some i := (← process).watcherNames.lookup name | return .noWatcher
    return .flag ((← process).watcher i).isActive
  | .await name _ => do
    let some i := (← process).watcherNames.lookup name | return .noWatcher
    awaitWorkers
    return .flag !((← process).watcher i).isActive
  | .jobs => do
    let recorded := (← process).recorded
    modifyProcess fun p => { p with recorded := [] }
    return .jobs recorded.reverse

/-! ## Commands and scripts -/

/-- One command. -/
def Command.run (enter : Enter) : Command → Storage Reply
  | .declare kind initial hook => do
    let (handle, slot) ← ThreadSlots.declare kind initial hook
    return .declared handle slot
  | .declareRow n kind initial hook => do
    match n with
    | 0 => return .done
    | n + 1 =>
      let (first, last) ← ThreadSlots.declareRow kind initial hook n
      return .declaredRow first last
  | .access handle place op => accessHandle enter handle place op
  | .setRow first last factor => ThreadSlots.setRow enter factor first (last - first)
  | .getRow first last => return .several (← ThreadSlots.getRow enter first (last - first))
  | .slotOf handle => do
    let some v ← lookup handle | return .noVariable
    return .number v.slot
  | .describe handle => do
    let some v ← lookup handle | return .noVariable
    return .text v.describe
  | .duplicate handle => do
    let some v ← lookup handle | return .noVariable
    let copy ← takeHandle
    bindHandle copy v.slot
    return .handle copy
  | .drop handle => do
    let known := (← lookup handle).isSome
    modifyProcess fun p => { p with byHandle := p.byHandle.erase handle }
    return .flag known
  | .compare a b => do
    let some x ← lookup a | return .noVariable
    let some y ← lookup b | return .noVariable
    return .compared (x.slot = y.slot) (x.slot = y.slot) (x.slot < y.slot)
  | .onThread op => op.run enter
  | .onTables op => op.run
  | .onProcess op => op.run
  | .onWatchers op => op.run

/-- One command; a refusal is a reply. -/
def perform (enter : Enter) (c : Command) : Storage Reply :=
  tryCatch (c.run enter) fun
    | .refused e => pure (.refused e)
    | stop => throw stop

/-- Report the reply of a step of nested code. -/
def reportStep (name : String) : Except String Reply → Storage Unit
  | .ok reply => emit (.stepped name reply)
  | .error _ => pure ()

/-- Nested code, up to its end or a panic: the value it ends with. -/
def Script.run (enter : Enter) : Script → Storage (Option Value)
  | .done result => pure result
  | .panic message => panicWith message
  | .step name command next => do
    let answer ← caught (perform enter command)
    reportStep name answer
    Script.run enter (next answer)

/-- Run nested code inside which nested code nests at most `depth - 1` levels. -/
def enter : (depth : Nat) → Enter
  | 0 => fun _ => do
    emit .tooDeep
    return none
  | depth + 1 => Script.run (enter depth)

/-- How many levels of nested code may run inside each other. -/
def nestingLimit : Nat := 3

end ThreadSlots
