import ThreadSlots.Session

/-!
# Threads that own maps

The storage engine as its users see it: each thread and each explicit table owns a finite map from
variables to values, and every operation reads, writes or deletes in one map. There are no tables
that grow, no live sets, no epochs and no watchers.

A thread without a map of its own gets an empty one when an operation needs it. It keeps that map
until it discards it or until all such maps are destroyed; a map that it carries is exempt from
destruction. The maps of a thread are numbered, since a name may stand for the thread's own map.

Initializers and removal hooks that touch no storage and do not panic are all that the machine knows
(`Variable.Pure`), and only the commands about variables, about the thread's own storage, and about
new tables (`Command.Plain`).
-/

namespace ThreadSlots

open Std (ExtTreeMap)

/-! ## What the machine is for -/

def Initializer.Pure (initial : Initializer) : Prop :=
  initial.nested = none ∧ ∀ n, ∃ value, initial.outcome n none = .ok value

def Hook.Pure (hook : Hook) : Prop := hook.nested = none ∧ ∀ value, hook.panics value = none

structure Variable.Pure (v : Variable) : Prop where
  initial : v.initial.Pure
  hook : ∀ hook, v.onRemoval = some hook → hook.Pure

/-- The reply without the words that describe a table, which tell its capacity. -/
def Reply.shown : Reply → Reply
  | .adopted carrying _ => .adopted carrying ""
  | reply => reply

def Event.shown : Event → Event
  | .stepped name reply => .stepped name reply.shown
  | event => event

mutual

/-- Code that does plain commands and does not read the words that describe a table. -/
inductive Script.Plain : Script → Prop where
  | done (result : Option Value) : Script.Plain (.done result)
  | panic (message : String) : Script.Plain (.panic message)
  | step (name : String) {c : Command} {next : Except String Reply → Script} (hc : Command.Plain c)
    (hnext : ∀ answer, Script.Plain (next answer))
    (hshown : ∀ reply, next (.ok reply) = next (.ok reply.shown)) : Script.Plain (.step name c next)

/-- The command is about variables with pure initializers and hooks, the thread's own storage, or a
new table; nested code does such commands alone. -/
inductive Command.Plain : Command → Prop where
  | declare (kind : Kind) {initial : Initializer} {hook : Option Hook} (hinitial : initial.Pure)
    (hhook : ∀ h, hook = some h → h.Pure) : Command.Plain (.declare kind initial hook)
  | access (handle : Nat) (place : Place) {op : Access}
    (hbody : ∀ body, op = .withValue (some body) → ∀ value, Script.Plain (body value)) :
    Command.Plain (.access handle place op)
  | onThread (op : Upkeep) : Command.Plain (.onThread op)
  | newTable (name : String) (policy : Option SentinelPolicy) :
    Command.Plain (.onTables (.new name policy []))

end

/-- The step does a plain command, or starts a thread whose code has no thread-locals of its own, or
ends one. -/
inductive Step.Plain : Step → Prop where
  | run (actor : String) {c : Command} (hc : c.Plain) : Step.Plain (.run actor c)
  | spawn (actor : String) (kind : ThreadKind) (label : Option String) :
    Step.Plain (.spawn actor kind label none)
  | join (actor : String) (panics : Option String) : Step.Plain (.join actor panics)

/-- What is compared of a step: its result and its events. -/
def StepReport.account (r : StepReport) : StepReport where
  result := match r.result with
    | .replied reply => .replied reply.shown
    | result => result
  events := r.events.map Event.shown

namespace Maps

/-! ## Maps and their owners -/

/-- A map from variables to values, by the slots of the variables. -/
structure ValueMap where
  policy : SentinelPolicy := .strict
  values : ExtTreeMap Nat (Variable × Value) := ∅

namespace ValueMap

def value? (m : ValueMap) (v : Variable) : Option Value := m.values[v.slot]?.map (·.2)

def insert (m : ValueMap) (v : Variable) (value : Value) : ValueMap :=
  { m with values := m.values.insert v.slot (v, value) }

def erase (m : ValueMap) (v : Variable) : ValueMap := { m with values := m.values.erase v.slot }

def emptied (m : ValueMap) : ValueMap := { policy := m.policy }

end ValueMap

/-- The call of the variable's removal hook with a value, if there is one and it has a hook. -/
def farewell (v : Variable) : Option Value → List Event
  | some value => if v.onRemoval.isSome then [.removed v.handle value] else []
  | none => []

/-- The calls of the removal hooks when a map is cleared, in the order of the slots. -/
def ValueMap.farewells (m : ValueMap) : List Event :=
  m.values.toList.flatMap fun (_, v, value) => farewell v (some value)

inductive Own where
  | nothing
  | kept (id : TableId)
  | carried (id : TableId)
  deriving DecidableEq, Repr

namespace Own

def id? : Own → Option TableId
  | .nothing => none
  | .kept id | .carried id => some id

def carried? : Own → Option TableId
  | .carried id => some id
  | _ => none

/-- What is left when the maps of all threads are destroyed. -/
def spared : Own → Own
  | .carried id => .carried id
  | _ => .nothing

end Own

structure Owner where
  maps : ExtTreeMap TableId ValueMap := ∅
  next : TableId := 0
  own : Own := .nothing
  names : List (String × TableId) := []
  label : Option String := none

def Owner.map (o : Owner) (id : TableId) : ValueMap := o.maps.getD id {}

/-- The hook calls when the thread's own map is cleared. -/
def Owner.farewells (o : Owner) : List Event :=
  (o.own.id?.map fun id => (o.map id).farewells).getD []

/-- What the thread has after others have destroyed the maps of all threads `n` times. -/
def Owner.outlast (o : Owner) (n : Nat) : Owner :=
  if n = 0 then o else { o with own := o.own.spared }

/-- What the threads share. -/
structure Shared where
  supply : SlotSupply := {}
  bySlot : ExtTreeMap Nat Variable := ∅
  byHandle : ExtTreeMap Nat Nat := ∅
  nextHandle : Nat := 0
  /-- How often each variable's initializer has made a value, by slot. -/
  draws : ExtTreeMap Nat Nat := ∅
  /-- The policy of a map that is made without one. -/
  policy : SentinelPolicy

/-- What they share once a variable with the next slot and the next handle was made. -/
def Shared.enrolled (s : Shared) (v : Variable) : Shared :=
  { s with
    supply := { s.supply with next := s.supply.next + 1 }
    bySlot := s.bySlot.insert s.supply.next v
    byHandle := s.byHandle.insert s.nextHandle s.supply.next
    nextHandle := s.nextHandle + 1 }

structure World where
  shared : Shared
  owner : Owner
  /-- The events so far, the latest first. -/
  events : List Event := []

namespace World

variable (w : World)

def setMap (id : TableId) (m : ValueMap) : World :=
  { w with owner := { w.owner with maps := w.owner.maps.insert id m } }

def makeMap (m : ValueMap) : World :=
  { w with
    owner :=
      { w.owner with
        maps := w.owner.maps.insert w.owner.next m
        next := w.owner.next + 1 } }

def setOwn (own : Own) : World := { w with owner := { w.owner with own := own } }

/-- The world with more events, of which the first one comes first. -/
def say (events : List Event) : World := { w with events := events.reverse ++ w.events }

end World

/-! ## Turns -/

structure Outcome (α : Type) where
  result : Except Stop α
  world : World
  /-- How often the maps of all threads were destroyed in the turn. -/
  destroys : Nat := 0

/-- What a thread does in one turn. -/
def Turn (α : Type) : Type := World → Outcome α

namespace Turn

variable {α β : Type}

protected def pure (a : α) : Turn α := fun w => { result := .ok a, world := w }

protected def bind (x : Turn α) (f : α → Turn β) : Turn β := fun w =>
  match x w with
  | ⟨.ok a, w, n⟩ => { f a w with destroys := n + (f a w).destroys }
  | ⟨.error stop, w, n⟩ => ⟨.error stop, w, n⟩

instance : Monad Turn where
  pure := Turn.pure
  bind := Turn.bind

theorem bind_eq {x : Turn α} {f : α → Turn β} {w w' : World} {a : α}
    (h : x w = { result := .ok a, world := w' }) : (x >>= f) w = f a w' := by
  show Turn.bind x f w = f a w'
  unfold Turn.bind
  rw [h]
  simp only [Nat.zero_add]

def stop (s : Stop) : Turn α := fun w => { result := .error s, world := w }

/-- The turn, with a panic caught. -/
def caught (x : Turn α) : Turn (Except String α) := fun w =>
  match x w with
  | ⟨.ok a, w, n⟩ => ⟨.ok (.ok a), w, n⟩
  | ⟨.error (.panicked message), w, n⟩ => ⟨.ok (.error message), w, n⟩
  | ⟨.error (.refused e), w, n⟩ => ⟨.error (.refused e), w, n⟩

def world : Turn World := fun w => { result := .ok w, world := w }

def modify (f : World → World) : Turn Unit := fun w => { result := .ok (), world := f w }

def modifyShared (f : Shared → Shared) : Turn Unit :=
  modify fun w => { w with shared := f w.shared }

def say (events : List Event) : Turn Unit := modify (·.say events)

/-! ## Maps of the thread -/

def map (id : TableId) : Turn ValueMap := return (← world).owner.map id

def setMap (id : TableId) (m : ValueMap) : Turn Unit := modify (·.setMap id m)

def newMap (policy : SentinelPolicy) : Turn TableId := do
  let id := (← world).owner.next
  modify (·.makeMap { policy := policy })
  return id

def freshMap : Turn TableId := do newMap (← world).shared.policy

def setOwn (own : Own) : Turn Unit := modify (·.setOwn own)

def bindName (name : String) (id : TableId) : Turn Unit :=
  modify fun w =>
    { w with
      owner := { w.owner with names := (name, id) :: w.owner.names.filter (·.1 != name) } }

def own? : Turn (Option TableId) := return (← world).owner.own.id?

/-- The thread's own map, made if there is none. -/
def own : Turn TableId := do
  match ← own? with
  | some id => return id
  | none => do
    let id ← freshMap
    setOwn (.kept id)
    return id

def isCarrying : Turn Bool := return (← world).owner.own.carried?.isSome

/-- A carried map is replaced by an empty one, any other is given up. -/
def discard : Turn Unit := do
  match (← world).owner.own.carried? with
  | some id => setMap id { policy := (← world).shared.policy }
  | none => setOwn .nothing

/-- Every thread gives up its own map, unless it carries it. -/
def destroy : Turn Unit := fun w =>
  { result := .ok (), world := w.setOwn w.owner.own.spared, destroys := 1 }

/-- Carry the thread's own map, or an empty one. -/
def adopt : Turn TableId := do
  let id ← match ← own? with
    | some id => pure id
    | none => freshMap
  setOwn (.carried id)
  return id

/-- Stop carrying a map, and give it up. -/
def release : Turn (Option TableId) := do
  match (← world).owner.own.carried? with
  | some id => do
    setOwn .nothing
    return some id
  | none => return none

/-! ## One variable in one map -/

def makeInitial (v : Variable) : Turn Value := do
  let n := (← world).shared.draws.getD v.slot 0
  modifyShared fun s => { s with draws := s.draws.insert v.slot (n + 1) }
  let value := match v.initial.outcome n none with
    | .ok made => v.kind.fit made
    | .error _ => v.kind.zero
  say (if v.initial.silent then [] else [.initialized v.handle value])
  return value

/-- Overwrite the value: the one that was there. -/
def put (v : Variable) (id : TableId) (value : Value) : Turn (Option Value) := do
  let m ← map id
  setMap id (m.insert v value)
  return m.value? v

def set (v : Variable) (id : TableId) (value : Value) : Turn Unit := do
  let _ ← put v id value

/-- The value, which is the initial one if there was none. -/
def get (v : Variable) (id : TableId) : Turn Value := do
  match (← map id).value? v with
  | some value => return value
  | none => do
    let value ← makeInitial v
    let _ ← put v id value
    return value

/-- Delete the value without calling the hook. -/
def take (v : Variable) (id : TableId) : Turn (Option Value) := do
  let m ← map id
  setMap id (m.erase v)
  return m.value? v

/-- Delete the value and call the hook with it. -/
def remove (v : Variable) (id : TableId) : Turn Unit := do
  say (farewell v (← take v id))

def isSet (v : Variable) (id : TableId) : Turn Bool := return ((← map id).value? v).isSome

/-- Overwrite the value, or delete it and call the hook where the sentinel means that. -/
def store (v : Variable) (id : TableId) : Option Value → Turn Unit
  | some value => set v id value
  | none => do
    if (← map id).policy.rejectsSentinel then
      stop (.refused (.sentinelStored v.slot))
    else
      remove v id

/-! ## The thread's own map as a whole -/

/-- Delete every value, calling the hooks in the order of the slots. False if there is no map. -/
def clearOwn : Turn Bool := do
  match ← own? with
  | none => return false
  | some id => do
    let m ← map id
    setMap id m.emptied
    say m.farewells
    return true

theorem clearOwn_eq (w : World) :
    clearOwn w =
      { result := .ok w.owner.own.id?.isSome
        world := match w.owner.own.id? with
          | none => w
          | some id => (w.setMap id (w.owner.map id).emptied).say w.owner.farewells } := by
  rw [clearOwn, bind_eq rfl]
  unfold Owner.farewells
  cases w.owner.own.id? <;> rfl

def clear : Turn Unit := do
  if ← clearOwn then
    discard

def liveCount : Turn Nat := do
  match ← own? with
  | none => return 0
  | some id => return (← map id).values.size

/-! ## Commands and scripts -/

def resolve : Place → Turn (Option TableId)
  | .ambient => some <$> own
  | .table name => return (← world).owner.names.lookup name

def resolve? : Place → Turn (Option TableId)
  | .ambient => own?
  | .table name => return (← world).owner.names.lookup name

variable (enter : Script → Turn (Option Value))

def withValue (v : Variable) (id : TableId) (body : Option (Value → Script)) : Turn Value := do
  let value ← get v id
  if let some nested := body then
    let _ ← enter (nested value)
  return value

def access (v : Variable) (place : Place) : Access → Turn Reply
  | .get => do
    let some id ← resolve place | return .noTable
    return .value (← get v id)
  | .withValue body => do
    let some id ← resolve place | return .noTable
    return .value (← withValue enter v id body)
  | .set value => do
    let some id ← resolve place | return .noTable
    set v id (v.kind.read value)
    return .done
  | .replace value => do
    let some id ← resolve place | return .noTable
    return .previous (← put v id (v.kind.read value))
  | .store entry => do
    let some id ← resolve place | return .noTable
    store v id (entry.map v.kind.read)
    return .done
  | .take => do
    let some id ← resolve? place | return .previous none
    return .previous (← take v id)
  | .remove => do
    let some id ← resolve? place | return .done
    remove v id
    return .done
  | .isSet => do
    let some id ← resolve? place | return .flag false
    return .flag (← isSet v id)

def upkeep : Upkeep → Turn Reply
  | .clear => do
    clear
    return .done
  | .destroy => do
    destroy
    return .done
  | .discard => do
    discard
    return .done
  | .isCarrying => return .flag (← isCarrying)
  | .liveCount => return .number (← liveCount)
  | .hasTable => return .flag (← own?).isSome
  | .threadName => return .name (← world).owner.label
  | .adopt name => do
    let id ← adopt
    bindName name id
    return .adopted (← isCarrying) ""
  | .adoptSize => do
    let id ← adopt
    return .adoptedSize (← isCarrying) (← map id).values.size
  | .release name => do
    let some id ← release | return .flag false
    bindName name id
    return .flag true

def declare (kind : Kind) (initial : Initializer) (hook : Option Hook) : Turn Reply := fun w =>
  let handle := w.shared.nextHandle
  match w.shared.supply.take with
  | (.ok slot, _) =>
    { result := .ok (.declared handle slot)
      world :=
        { w with
          shared := w.shared.enrolled { slot, handle, kind, initial, onRemoval := hook } } }
  | (.error e, _) =>
    { result := .error (.refused e)
      world := { w with shared := { w.shared with nextHandle := handle + 1 } } }

def lookup (handle : Nat) : Turn (Option Variable) := do
  let s := (← world).shared
  return s.byHandle[handle]?.bind (s.bySlot[·]?)

/-- One command. Those that are not plain do nothing here. -/
def command : Command → Turn Reply
  | .declare kind initial hook => declare kind initial hook
  | .access handle place op => do
    let some v ← lookup handle | return .noVariable
    access enter v place op
  | .onThread op => upkeep op
  | .onTables (.new name policy _) => do
    let id ← match policy with
      | some policy => newMap policy
      | none => freshMap
    bindName name id
    return .done
  | _ => return .done

/-- One command; a refusal is a reply. -/
def perform (c : Command) : Turn Reply := fun w =>
  match command enter c w with
  | ⟨.error (.refused e), w, n⟩ => ⟨.ok (.refused e), w, n⟩
  | ended => ended

def reportStep (name : String) : Except String Reply → Turn Unit
  | .ok reply => say [.stepped name reply]
  | .error _ => pure ()

def script : Script → Turn (Option Value)
  | .done result => pure result
  | .panic message => stop (.panicked message)
  | .step name c next => do
    let answer ← caught (perform enter c)
    reportStep name answer
    script (next answer)

end Turn

/-- Nested code that nests at most `depth` levels. -/
def enter : (depth : Nat) → Script → Turn (Option Value)
  | 0 => fun _ => do
    Turn.say [.tooDeep]
    return none
  | depth + 1 => Turn.script (enter depth)

/-! ## Sessions -/

structure Actor where
  name : String
  kind : ThreadKind
  owner : Owner

/-- The hook calls when the thread ends. One that was started carrying a map clears its own map. -/
def Actor.farewells (a : Actor) : List Event := if a.kind.carries then a.owner.farewells else []

/-- The threads that have not ended, and what they share. -/
structure Session where
  shared : Shared
  actors : List Actor
  depth : Nat
  destroys : Nat := 0

namespace Session

def start (environment : Environment) (depth : Nat) : Session where
  shared := { policy := environment.settings.sentinelPolicy }
  actors := [{
    name := ThreadSlots.Session.mainName
    kind := .generic
    owner := { label := some ThreadSlots.Session.mainName } }]
  depth := depth

def actor? (s : Session) (name : String) : Option Actor := s.actors.find? (·.name == name)

/-- The session after a turn of the named thread. -/
def after {α : Type} (s : Session) (name : String) (ended : Outcome α) : Session :=
  { s with
    shared := ended.world.shared
    actors := s.actors.map fun a =>
      { a with
        owner :=
          if a.name == name then ended.world.owner else a.owner.outlast ended.destroys }
    destroys := s.destroys + ended.destroys }

def command (s : Session) (name : String) (c : Command) : StepReport × Session :=
  match s.actor? name with
  | none => ({ result := .noThread }, s)
  | some a =>
    let ended := Turn.perform (enter s.depth) c { shared := s.shared, owner := a.owner }
    ({ result := match answer ended.result with
        | .ok reply => .replied reply
        | .error message => .panicked message
       events := ended.world.events.reverse }, s.after name ended)

/-- What a thread owns when its code starts. One that carries a map begins with an empty one. -/
def newOwner (s : Session) (kind : ThreadKind) (label : Option String) : Owner where
  maps :=
    if kind.carries then
      (∅ : ExtTreeMap TableId ValueMap).insert 0 { policy := s.shared.policy }
    else ∅
  next := if kind.carries then 1 else 0
  own := if kind.carries then .carried 0 else .nothing
  names := if kind = .withContext then [(contextName, 0)] else []
  label := if kind = .withContext then label else none

def spawn (s : Session) (name : String) (kind : ThreadKind) (label : Option String) :
    StepReport × Session :=
  ({ result := .spawned kind.carries (if kind = .withContext then some label else none) },
    { s with
      actors := s.actors ++ [{ name := name, kind := kind, owner := s.newOwner kind label }] })

def join (s : Session) (name : String) (panics : Option String) : StepReport × Session :=
  match s.actor? name with
  | none => ({ result := .noThread }, s)
  | some a =>
    ({ result := .joined { panic := panics, late := none }, events := a.farewells },
      { s with actors := s.actors.filter (·.name != name) })

def step (s : Session) : Step → StepReport × Session
  | .run name c => s.command name c
  | .spawn name kind label _ => s.spawn name kind label
  | .use _ _ => ({ result := .replied .done }, s)
  | .join name panics => s.join name panics

def run (s : Session) : List Step → List StepReport × Session
  | [] => ([], s)
  | x :: xs =>
    let (report, s) := s.step x
    let (reports, s) := s.run xs
    (report :: reports, s)

end Session

end Maps

end ThreadSlots
