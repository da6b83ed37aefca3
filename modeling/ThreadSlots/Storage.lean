import ThreadSlots.State

/-!
# Resolving a thread's table

A `Storage` action runs on one thread: it changes the process and that thread, leaves events, and
ends with a result, a refusal or a panic. What it changed before a refusal or a panic stays changed.

Every operation first resolves the table it works on. A carrying thread has its table at hand.
Another thread uses its fallback table, which is made on first use; a fallback table of another
epoch is dropped here, on its own thread. A thread that can reach neither any more gets a table for
each operation, which nothing can reach afterwards.
-/

namespace ThreadSlots

/-- What became of a value that left its slot. -/
inductive Fate where
  /-- It was handed to the removal hook of the variable with the handle. -/
  | hooked (handle : Nat)
  /-- It was removed and there was no hook to hand it to. -/
  | removed
  /-- It was handed back. -/
  | returned
  /-- Another value was stored in its place. -/
  | overwritten
  deriving DecidableEq, Repr

/-- How values part from the tables that held them. -/
inductive Parting where
  /-- A value left its slot. -/
  | left (table : TableId) (slot : Nat) (value : Value) (fate : Fate)
  /-- A table was emptied in place, whatever it held. -/
  | emptied (table : TableId)
  deriving DecidableEq, Repr

/-- How a value came into a table. -/
structure Arrival where
  table : TableId
  slot : Nat
  value : Value
  deriving DecidableEq, Repr

/-- What a running action sees. -/
structure Scene.State where
  process : Process
  thread : Thread
  /-- The events so far, the latest first. -/
  events : List Event := []

/-- A scene: its state, and beside it what has happened and no operation reads. -/
structure Scene extends Scene.State where
  /-- What became of the values that were stored, the latest first. -/
  partings : List Parting := []
  /-- The values that were stored, the latest first. -/
  arrivals : List Arrival := []

/-- Why an action ended early. -/
inductive Stop where
  /-- The storage engine refused. -/
  | refused (e : StorageError)
  | panicked (message : String)
  deriving DecidableEq, Repr

/-- Actions on a thread's storage. -/
abbrev Storage := ExceptT Stop (StateM Scene)

namespace Storage

/-- Carry out an action: what it ends with, and the scene after it. -/
def runOn {α : Type} (x : Storage α) (sc : Scene) : Except Stop α × Scene := x.run.run sc

/-- Give up with a refusal. -/
def refuse {α : Type} (e : StorageError) : Storage α := throw (.refused e)

/-- Give up with a panic. -/
def panicWith {α : Type} (message : String) : Storage α := throw (.panicked message)

/-- Carry out an action; a panic is caught, and its message is the answer then. -/
def caught {α : Type} (x : Storage α) : Storage (Except String α) :=
  tryCatch (.ok <$> x) fun
    | .panicked message => pure (.error message)
    | stop => throw stop

/-- The result, or its refusal. -/
def ofExcept {α : Type} : Except StorageError α → Storage α
  | .ok a => pure a
  | .error e => refuse e

def process : Storage Process := return (← get).process

def thread : Storage Thread := return (← get).thread

def modifyProcess (f : Process → Process) : Storage Unit :=
  modify fun s => { s with process := f s.process }

def modifyThread (f : Thread → Thread) : Storage Unit :=
  modify fun s => { s with thread := f s.thread }

/-- Leave an event. -/
def emit (e : Event) : Storage Unit :=
  modify fun s => { s with events := e :: s.events }

/-- Note how values part from a table. -/
def part (parting : Parting) : Storage Unit :=
  modify fun s => { s with partings := parting :: s.partings }

/-- Note what becomes of what a slot held, if that is a value. -/
def partFrom (table : TableId) (slot : Nat) (cell : Option Cell) (fate : Fate) : Storage Unit := do
  if let some (.value value) := cell then
    part (.left table slot value fate)

/-- Note that a slot received a cell, if that is a value. -/
def arrive (table : TableId) (slot : Nat) : Cell → Storage Unit
  | .value value => modify fun s => { s with arrivals := ⟨table, slot, value⟩ :: s.arrivals }
  | .liveSet _ => pure ()

/-- Count an event. -/
def count (c : Counter) : Storage Unit := modifyProcess (·.count c)

/-- The settings in effect, which are fixed by reading them. -/
def settings : Storage Settings := do
  let (c, p) := (← process).readSettings
  modifyProcess fun _ => p
  return c

/-! ## Tables -/

/-- Make a table with the given policy. -/
def newTable (policy : SentinelPolicy) : Storage TableId := do
  count .tablesCreated
  let id := (← thread).nextTable
  modifyThread fun t =>
    { t with nextTable := id + 1, tables := t.tables.insert id { policy := policy } }
  return id

/-- Make a table with the policy of the process. -/
def freshTable : Storage TableId := do
  newTable (← settings).sentinelPolicy

/-- The table with the given identity. -/
def table (id : TableId) : Storage SlotTable := return (← thread).table id

/-- Replace the contents of a table. -/
def setTable (id : TableId) (table : SlotTable) : Storage Unit :=
  modifyThread fun t => { t with tables := t.tables.insert id table }

/-- Let a table do something: what it did. -/
def updateTable {β : Type} (id : TableId) (f : SlotTable → Except StorageError β × SlotTable) :
    Storage β := do
  let result ← modifyGet fun sc =>
    let (result, thread) := sc.thread.updateTable id f
    (result, { sc with thread := thread })
  ofExcept result

/-- Carry out a write to a table, counting its growth. -/
def write (id : TableId)
    (f : SlotTable → Except StorageError (Table.Outcome Cell) × SlotTable) :
    Storage (Table.Outcome Cell) := do
  let (outcome, grown) ← updateTable id fun table =>
    let before := table.capacity
    match f table with
    | (.ok outcome, table) => (.ok (outcome, decide (before < table.capacity)), table)
    | (.error e, table) => (.error e, table)
  if grown then
    count .tableExpansions
  return outcome

/-- Store a cell into a table, which may grow. -/
def store (id : TableId) (slot : Nat) (cell : Cell) : Storage (Table.Outcome Cell) := do
  let outcome ← write id (·.set slot cell)
  arrive id slot cell
  return outcome

/-- Store a cell or the unset sentinel into a table. -/
def storeEntry (id : TableId) (slot : Nat) (entry : Option Cell) : Storage (Table.Outcome Cell) := do
  let outcome ← write id (·.setEntry slot entry)
  if let some cell := entry then
    arrive id slot cell
  return outcome

/-- Unset a slot of a table: what it held. -/
def unset (id : TableId) (slot : Nat) : Storage (Option Cell) :=
  updateTable id fun table =>
    let removed := table.erase slot
    (.ok removed.previous, removed.table)

/-! ## The thread's own table -/

/-- Change the thread-locals that hold tables. -/
def modifyLocals (f : Locals → Locals) : Storage Unit :=
  modifyThread fun t => { t with locals := f t.locals }

/-- The table the thread carries. -/
def carried? : Storage (Option TableId) := do
  modifyLocals (·.useCarried)
  return (← thread).carried?

/-- The thread's fallback table. One of another epoch is dropped; if there is none then, a table
is made if `create` asks for it. -/
def fallback? (create : Bool) : Storage (Option TableId) := do
  let epoch := (← process).epoch
  modifyLocals (·.useFallback)
  match (← thread).locals.fallback with
  | .inUse _ content =>
    match content.filter (·.epoch = epoch) with
    | some f => return some f.table
    | none =>
      modifyLocals (·.setFallback none)
      if create then
        let id ← freshTable
        modifyLocals (·.setFallback (some ⟨epoch, id⟩))
        return some id
      else
        return none
  | _ => return none

/-- The thread's table, made on first use. -/
def current : Storage TableId := do
  match ← carried? with
  | some id => return id
  | none =>
    match ← fallback? true with
    | some id => return id
    | none => freshTable

/-- The thread's table if it has one. -/
def current? : Storage (Option TableId) := do
  match ← carried? with
  | some id => return some id
  | none => fallback? false

/-- Discard the thread's table: a carried one is emptied and stays carried, a fallback table is
dropped. -/
def discard : Storage Unit := do
  match ← carried? with
  | some id =>
    count .tablesCreated
    setTable id { policy := (← settings).sentinelPolicy }
    part (.emptied id)
  | none => modifyLocals (·.useFallback.setFallback none)

/-- Invalidate the fallback tables of all threads. -/
def destroyFallbacks : Storage Unit := do
  modifyProcess fun p => { p with epoch := p.epoch + 1 }
  count .fallbackDestroys

/-- Make the thread carry a table and return it. A live fallback table is kept as the carried one.
A thread that cannot carry a table any more gets one that it does not carry. -/
def adopt : Storage TableId := do
  match ← carried? with
  | some id => return id
  | none =>
    modifyLocals (·.useFallback)
    let fallback := (← thread).fallbackOf? (← process).epoch
    modifyLocals (·.setFallback none)
    let id ← match fallback with
      | some id => pure id
      | none => freshTable
    modifyLocals (·.setCarried (some id))
    return id

/-- Stop carrying a table: the table that was carried. -/
def release : Storage (Option TableId) := do
  let carried ← carried?
  modifyLocals (·.setCarried none)
  return carried

/-! ## Watching threads -/

/-- What a job that panics says. -/
def jobPanic : String := "job failed"

/-- Add a job to a watcher, to run when the calling thread has died. If the thread can no longer
report its death, the job runs at once, on this thread. -/
def watch (watcher : Nat) (job : Job) : Storage Unit := do
  let t ← thread
  match t.sentinel with
  | .destroyed =>
    modifyProcess (·.runJob job)
    match job with
    | .record _ true => panicWith jobPanic
    | _ => pure ()
  | .absent =>
    modifyThread ({ · with sentinel := .installed t.locals.uses [watcher] })
    modifyProcess (·.updateWatcher watcher (·.watch t.id job))
  | .installed since watchers =>
    if !watchers.contains watcher then
      modifyThread ({ · with sentinel := .installed since (watchers ++ [watcher]) })
    modifyProcess (·.updateWatcher watcher (·.watch t.id job))

/-- The number of the death watch's own watcher. -/
def deathWatcher : Nat := 0

/-- Track the calling thread, unless it is tracked already, and watch it for its death. -/
def trackThread : Storage Unit := do
  let id := (← thread).id
  if !(← process).tracked.contains id then
    modifyProcess fun p => { p with tracked := p.tracked.insert id }
    count .threadsWatched
    watch deathWatcher (.forget id)

/-- Stop tracking the calling thread and cancel its jobs in the death watch. -/
def untrackThread : Storage Unit := do
  let id := (← thread).id
  if (← process).tracked.contains id then
    modifyProcess fun p =>
      { p with tracked := p.tracked.erase id }.updateWatcher deathWatcher (·.unwatch id)

end Storage

end ThreadSlots
