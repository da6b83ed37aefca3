import ThreadSlots.Scenario.Basic

/-!
# What the scenarios do

A `Trial` does storage operations and checks conditions in between; the first condition that fails
ends it. Each scenario but one is a trial on a single thread. In the isolation scenario several
threads each do a list of moves: every thread stores its number before any of them reads back, and
between two moves any other thread may take its turn.
-/

namespace ThreadSlots.Scenario

open Storage

/-! ## Trials -/

/-- Storage operations with conditions in between, of which a number has been checked. -/
abbrev Trial := ExceptT String (StateT Nat Storage)

namespace Trial

/-- Check a condition; `what` says what is wrong if it does not hold. -/
def check (holds : Bool) (what : String) : Trial Unit := do
  modify (· + 1)
  if !holds then
    throw what

/-- A storage operation. -/
def operate {α : Type} (x : Storage α) : Trial α := liftM x

/-- What the trial finds. -/
def verdict (x : Trial Unit) : Storage Verdict := do
  let (result, checks) ← x.run.run 0
  return result.map fun _ => checks

end Trial

open Trial

/-- What runs nested code, of which scenarios have none. -/
def nested : Enter := enter nestingLimit

/-- Make a variable of integers that starts from a constant. -/
def makeVariable (initial : Int) : Storage Variable :=
  enroll fun slot => {
    slot := slot
    handle := slot
    kind := .int
    initial := { nested := none, outcome := fun _ _ => .ok (.int initial), silent := true }
    onRemoval := none }

/-- Make `n` variables that start from `first i`, for `i` from a number on. -/
def makeVariables (first : Nat → Int) (i : Nat) : (n : Nat) → Storage (List Variable)
  | 0 => return []
  | n + 1 => do
    let v ← makeVariable (first i)
    return v :: (← makeVariables first (i + 1) n)

/-- The number that a value shows. -/
def shown : Value → String
  | .int i => toString i
  | _ => ""

/-! ## A variable's life -/

/-- One round of a variable's life. -/
def liveOnce (v : Variable) (round : Nat) : Trial Unit := do
  check (!(← operate v.isSet)) s!"round {round}: set before first access"
  check ((← operate (v.get nested)) == .int 0) s!"round {round}: initial value not 0"
  check (← operate v.isSet) s!"round {round}: get did not set"
  operate (v.set (.int (round + 5)))
  check ((← operate (v.get nested)) == .int (round + 5)) s!"round {round}: set value lost"
  check ((← operate liveCount) == 1) s!"round {round}: not tracked once"
  operate (v.remove nested)
  check (!(← operate v.isSet)) s!"round {round}: still set after remove"
  check ((← operate liveCount) == 0) s!"round {round}: still tracked after remove"

/-- `n` rounds of a variable's life, from a round on. -/
def liveOften (v : Variable) (round : Nat) : (n : Nat) → Trial Unit
  | 0 => pure ()
  | n + 1 => do
    liveOnce v round
    liveOften v (round + 1) n

def lifecycleTrial (size : ScenarioSize) : Trial Unit := do
  let v ← operate (makeVariable 0)
  liveOften v 0 size.iterations

/-! ## Clearing a thread -/

/-- Set every other variable and read the ones between, from the `i`-th on. -/
def touch (i : Nat) : List Variable → Storage Unit
  | [] => pure ()
  | v :: vs => do
    if i % 2 = 0 then
      v.set (.int (100 + i))
    else
      let _ ← v.get nested
    touch (i + 1) vs

/-- Check that none of the variables is set. -/
def checkUnset : List Variable → Trial Unit
  | [] => pure ()
  | v :: vs => do
    check (!(← operate v.isSet)) s!"slot {v.slot} still set"
    checkUnset vs

/-- Check that each variable starts from its number, counted from `i`. -/
def checkInitial (i : Nat) : List Variable → Trial Unit
  | [] => pure ()
  | v :: vs => do
    check ((← operate (v.get nested)) == .int i) s!"untouched slot {v.slot} lost its initializer"
    checkInitial (i + 1) vs

def removeAllTrial : Trial Unit := do
  let vs ← operate (makeVariables (fun i => i) 0 12)
  let touched := vs.take 8
  let untouched := vs.drop 8
  operate (touch 0 touched)
  check ((← operate liveCount) == 8) "expected 8 tracked"
  operate (ThreadSlots.clearThread nested)
  check ((← operate liveCount) == 0) "tracked set survived remove_all"
  checkUnset vs
  checkInitial 8 untouched
  check ((← operate liveCount) == untouched.length) "re-initialized variables not tracked"

/-! ## Growing a table -/

/-- Set each variable to seven times its number, counted from `i`. -/
def setMultiples (i : Nat) : List Variable → Storage Unit
  | [] => pure ()
  | v :: vs => do
    v.set (.int (i * 7))
    setMultiples (i + 1) vs

/-- Check that each variable has seven times its number, counted from `i`. -/
def checkMultiples (i : Nat) : List Variable → Trial Unit
  | [] => pure ()
  | v :: vs => do
    let value ← operate (v.get nested)
    check (value == .int (i * 7)) s!"slot {v.slot} read back {shown value}"
    checkMultiples (i + 1) vs

def growthTrial : Trial Unit := do
  let n := initialCapacity + 9
  let vs ← operate (makeVariables (fun _ => 0) 0 n)
  operate (setMultiples 0 vs)
  let capacity := (← operate (do Storage.table (← current))).capacity
  check (initialCapacity < capacity) s!"table did not grow (capacity {capacity})"
  checkMultiples 0 vs
  check ((← operate liveCount) == n) "not every value tracked"

/-! ## Bookkeeping -/

/-- Set each variable to the round, and remove every third again, counted from `i`. -/
def setAndThin (round i : Nat) : List Variable → Storage Unit
  | [] => pure ()
  | v :: vs => do
    v.set (.int round)
    if (i + round) % 3 = 0 then
      v.remove nested
    setAndThin round (i + 1) vs

/-- How many of the variables are set. -/
def countSet : List Variable → Storage Nat
  | [] => return 0
  | v :: vs => do
    let isSet ← v.isSet
    return (if isSet then 1 else 0) + (← countSet vs)

/-- `n` rounds of setting and thinning, from a round on. -/
def thinOften (vs : List Variable) (round : Nat) : (n : Nat) → Trial Unit
  | 0 => pure ()
  | n + 1 => do
    operate (setAndThin round 0 vs)
    let live ← operate (countSet vs)
    let tracked ← operate liveCount
    check (tracked == live) s!"round {round}: {tracked} tracked for {live} live values"
    thinOften vs (round + 1) n

def boundedBookkeepingTrial (size : ScenarioSize) : Trial Unit := do
  let vs ← operate (makeVariables (fun _ => 0) 0 16)
  thinOften vs 0 size.iterations

/-! ## The order of slots -/

/-- Check that the slots increase. -/
def checkIncreasing : List Variable → Trial Unit
  | v :: w :: vs => do
    check (v.slot < w.slot) s!"slot {w.slot} followed {v.slot}"
    checkIncreasing (w :: vs)
  | _ => pure ()

def allocationOrderTrial (size : ScenarioSize) : Trial Unit := do
  let vs ← operate (makeVariables (fun _ => 0) 0 (max size.population 2))
  checkIncreasing vs

/-! ## Isolation -/

/-- What one of the isolated threads has seen so far. -/
structure Sighting where
  /-- The thread's own number. -/
  id : Nat
  /-- The first value it read. -/
  first : Option Value := none
  /-- The number of conditions it has checked, or the first that failed. -/
  verdict : Verdict := .ok 0

/-- What a thread does without interruption. -/
abbrev Move := Sighting → Storage Sighting

/-- The value from which the shared variable starts on every thread. -/
def foreign : Int := 18446744073709551615

/-- Check a condition, unless one has failed already. -/
def Sighting.check (s : Sighting) (holds : Bool) (what : String) : Sighting :=
  { s with verdict := s.verdict.bind fun n => if holds then .ok (n + 1) else .error what }

/-- Do a move only as long as no condition has failed. -/
def whilePassing (move : Move) : Move := fun s =>
  match s.verdict with
  | .ok _ => move s
  | .error _ => return s

/-- What every thread does before any of them goes on: read the variable and store its number. -/
def openingMoves (v : Variable) : List Move :=
  [fun s => return { s with first := some (← v.get nested) },
    fun s => do
      v.set (.int s.id)
      return s]

/-- Check what was read first. -/
def checkFirst : Move := fun s =>
  return s.check (s.first == some (.int foreign)) s!"thread {s.id}: saw a foreign value first"

/-- Read the variable again and check that it holds the thread's own number. -/
def checkAgain (v : Variable) : Move := fun s => do
  let seen ← v.get nested
  return s.check (seen == .int s.id) s!"thread {s.id}: observed {shown seen}"

/-- What every thread does after all have stored. -/
def readingMoves (v : Variable) (iterations : Nat) : List Move :=
  checkFirst ::
    ((List.replicate iterations (checkAgain v) ++
      [fun s => do
          v.remove nested
          return s,
        fun s => do
          ThreadSlots.clearThread nested
          return s]).map whilePassing)

end ThreadSlots.Scenario
