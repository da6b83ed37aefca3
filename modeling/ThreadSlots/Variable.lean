import ThreadSlots.Storage

/-!
# Operations on variables

A variable keeps its value for a thread in its slot of the thread's table. The first time it is set
in a table it joins the table's live set, which sits in the reserved slot of that same table; so the
pass that clears a thread finds exactly the variables the thread has set, and nothing has to be kept
per thread elsewhere. Outside such a pass a variable is in the live set exactly while it is set.

Initializers, removal hooks and the code that is handed a value may do storage operations
themselves. They run between the steps of an operation, never inside one, and are run by `enter`,
which decides how deeply they may nest.
-/

namespace ThreadSlots

open Storage

/-- Runs nested code: the value that it ends with. -/
abbrev Enter := Script → Storage (Option Value)

/-! ## The live set -/

/-- The live set of a table, if it has one. -/
def liveSet? (table : TableId) : Storage (Option LiveSet) :=
  return ((← Storage.table table).get? reservedSlot).bind Cell.liveSet?

/-- Give a table an empty live set if it has none. The thread that first sets a value in a table
is tracked if threads are watched for their death. -/
def ensureLiveSet (table : TableId) : Storage Unit := do
  if (← liveSet? table).isNone then
    let _ ← store table reservedSlot (.liveSet ∅)
    if (← settings).deathWatch then
      trackThread

/-- Replace the live set of a table. -/
def setLiveSet (table : TableId) (set : LiveSet) : Storage Unit :=
  updateTable table fun t => (.ok (), t.replace reservedSlot (some (.liveSet set)))

/-- Run the nested code of an initializer, if it has any: the value that the code ends with. -/
def Initializer.runNested (enter : Enter) (initial : Initializer) : Storage (Option Value) :=
  match initial.nested with
  | some nested => enter nested
  | none => pure none

/-- What a removal hook does with a value. -/
def Hook.run (enter : Enter) (hook : Hook) (value : Value) : Storage Unit := do
  if let some nested := hook.nested then
    let _ ← enter (nested value)
  if let some message := hook.panics value then
    panicWith message

namespace Variable

/-- Add the variable to the live set of a table. -/
def track (v : Variable) (table : TableId) : Storage Unit := do
  ensureLiveSet table
  if let some set ← liveSet? table then
    setLiveSet table (set.insert v.slot v)

/-- Take the variable out of the live set of a table. -/
def untrack (v : Variable) (table : TableId) : Storage Unit := do
  if let some set ← liveSet? table then
    setLiveSet table (set.erase v.slot)

/-! ## Reading and writing one table -/

/-- Call the removal hook with what the variable's slot held in a table, if that is a value of the
variable. -/
def callHook (enter : Enter) (v : Variable) (table : TableId) (removed : Option Cell) :
    Storage Unit := do
  match v.onRemoval, removed.bind (·.value? v.kind) with
  | some hook, some value =>
    part (.left table v.slot value (.hooked v.handle))
    emit (.removed v.handle value)
    hook.run enter value
  | _, _ => partFrom table v.slot removed .removed

/-- Unset the variable in a table and call its hook. -/
def clear (enter : Enter) (v : Variable) (table : TableId) : Storage Unit := do
  v.callHook enter table (← unset table v.slot)

/-- Store a value and track the variable if it was not set: what the slot held before, to which
`fate` happens. -/
def putIn (v : Variable) (table : TableId) (value : Value) (fate : Fate) :
    Storage (Option Cell) := do
  let stored ← store table v.slot (.value value)
  partFrom table v.slot stored.previous fate
  if stored.newlySet then
    v.track table
  return stored.previous

/-- How often the initializer has made a value before; it counts as one more. -/
def draw (v : Variable) : Storage Nat := do
  let n := (← process).draws.getD v.slot 0
  modifyProcess fun p => { p with draws := p.draws.insert v.slot (n + 1) }
  return n

/-- Call the initializer. -/
def makeInitial (enter : Enter) (v : Variable) : Storage Value := do
  let result ← v.initial.runNested enter
  match v.initial.outcome (← v.draw) result with
  | .ok made =>
    let value := v.kind.fit made
    if !v.initial.silent then
      emit (.initialized v.handle value)
    return value
  | .error message =>
    if !v.initial.silent then
      emit (.initializerPanicked v.handle)
    panicWith message

/-- Make the initial value and store it. -/
def makeIn (enter : Enter) (v : Variable) (table : TableId) : Storage Value := do
  count .initializations
  let value ← v.makeInitial enter
  let _ ← v.putIn table value .overwritten
  return value

/-- The value in a table, made on first use. -/
def getIn (enter : Enter) (v : Variable) (table : TableId) : Storage Value := do
  match ((← Storage.table table).get? v.slot).bind (·.value? v.kind) with
  | some value => return value
  | none => v.makeIn enter table

/-- Read the value in a table and hand it to nested code. -/
def withIn (enter : Enter) (v : Variable) (table : TableId) (body : Option (Value → Script)) :
    Storage Value := do
  let value ← v.getIn enter table
  if let some nested := body then
    let _ ← enter (nested value)
  return value

/-- Set the value in a table. -/
def setIn (v : Variable) (table : TableId) (value : Value) : Storage Unit := do
  let _ ← v.putIn table value .overwritten

/-- Set the value in a table: the value that it replaced. The hook is not called, since the old
value is handed back. -/
def replaceIn (v : Variable) (table : TableId) (value : Value) : Storage (Option Value) :=
  return (← v.putIn table value .returned).bind (·.value? v.kind)

/-- Whether the variable is set in a table. -/
def isSetIn (v : Variable) (table : TableId) : Storage Bool :=
  return (← Storage.table table).contains v.slot

/-- Store a value or the unset sentinel (`none`) into a table. The sentinel is refused under the
strict policy; under the lenient one it unsets the variable and calls its hook. -/
def storeIn (enter : Enter) (v : Variable) (table : TableId) (entry : Option Value) :
    Storage Unit := do
  let stored ← storeEntry table v.slot (entry.map .value)
  if entry.isSome then
    partFrom table v.slot stored.previous .overwritten
  if stored.newlySet then
    v.track table
  else if !(← v.isSetIn table) then
    v.untrack table
    v.callHook enter table stored.previous

/-- Unset the variable in a table: the value it had. The hook is not called, since the value is
handed back. -/
def takeIn (v : Variable) (table : TableId) : Storage (Option Value) := do
  v.untrack table
  let removed ← unset table v.slot
  partFrom table v.slot removed .returned
  return removed.bind (·.value? v.kind)

/-- Unset the variable in a table and call its hook. -/
def removeIn (enter : Enter) (v : Variable) (table : TableId) : Storage Unit := do
  v.untrack table
  v.clear enter table

/-! ## The thread's own table -/

/-- The thread's value, made on first use. -/
def get (enter : Enter) (v : Variable) : Storage Value := do v.getIn enter (← current)

/-- Set the thread's value. -/
def set (v : Variable) (value : Value) : Storage Unit := do v.setIn (← current) value

/-- Unset the thread's value and call the hook. A thread without a table has none. -/
def remove (enter : Enter) (v : Variable) : Storage Unit := do
  if let some table ← current? then
    v.removeIn enter table

/-- Whether the variable is set on the thread. -/
def isSet (v : Variable) : Storage Bool := do
  match ← current? with
  | some table => v.isSetIn table
  | none => return false

end Variable

/-! ## The thread as a whole -/

/-- Unset the given variables in a table, in order. -/
def clearEach (enter : Enter) (table : TableId) : List Variable → Storage Unit
  | [] => pure ()
  | v :: vs => do
    v.clear enter table
    clearEach enter table vs

/-- Clear every variable set in the thread's table, in the order of their slots. The table's live set
is taken out first, so the variables that a panicking hook leaves uncleared are in no live set. False
if the thread has no table. -/
def clearCurrent (enter : Enter) : Storage Bool := do
  match ← current? with
  | none => return false
  | some table =>
    if let some set := (← unset table reservedSlot).bind Cell.liveSet? then
      tryCatch (clearEach enter table (set.toList.map (·.2))) fun stop => do
        modifyThread ({ · with interrupted := true })
        throw stop
    count .removeAllPasses
    return true

/-- Stop tracking the thread and clear every variable set in its table. -/
def clearTable (enter : Enter) : Storage Bool := do
  if (← settings).deathWatch then
    untrackThread
  clearCurrent enter

/-- Clear every variable set on the calling thread, then discard its table. -/
def clearThread (enter : Enter) : Storage Unit := do
  if ← clearTable enter then
    discard

/-- The last clearing of an exiting thread that was started carrying a table. The table is released,
not emptied for further use. -/
def clearAndRelease (enter : Enter) : Storage Unit := do
  if ← clearTable enter then
    if (← release).isNone then
      discard

/-- The number of variables set on the calling thread. -/
def liveCount : Storage Nat := do
  match ← current? with
  | none => return 0
  | some table => return ((← liveSet? table).map (·.size)).getD 0

end ThreadSlots
