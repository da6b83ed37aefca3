import ThreadSlots.Execution

/-!
# How threads start and end

A thread starts generic, without a table, or carrying one. A thread that was started carrying a
table clears itself when its code is done, also when that code panicked; a generic thread does not.

Then the thread-locals are destroyed, one after the other, the one that was used last first. The
thread's code may have thread-locals of its own, whose destructors do commands (`Late`): what was used
after such a one is destroyed by then, also the sentinel, which is how a watched thread's death becomes
known; what was used before it can still be reached, and what was not used yet can be used now.
-/

namespace ThreadSlots

open Storage

/-- How a thread is started. -/
inductive ThreadKind where
  /-- Without a table. -/
  | generic
  /-- Carrying a table. -/
  | carried
  /-- Carrying a table, which its code also receives as the explicit table `ctx`. -/
  | withContext
  deriving DecidableEq, Repr

/-- The thread carries a table when its code starts. -/
def ThreadKind.carries : ThreadKind → Bool
  | .generic => false
  | .carried | .withContext => true

/-- The name of the explicit table that a thread started with its context has. -/
def contextName : String := "ctx"

/-- What a new thread does before its code starts: whether it carries a table. -/
def prepare (kind : ThreadKind) : Storage Bool := do
  if kind.carries then
    let table ← adopt
    if kind = .withContext then
      bindTable contextName table
  isCarrying

/-- Start a thread, which has used some thread-locals of its own before: whether it carries a table,
and its state when its code starts. Only a thread that is started with its context goes by a name. -/
def Process.startThread (p : Process) (kind : ThreadKind) (label : Option String)
    (uses : Nat := 0) : Bool × Thread × Process :=
  let (result, scene) := (prepare kind).runOn
    { process := { p with nextThread := p.nextThread + 1 }
      thread :=
        { id := p.nextThread
          locals := { uses := uses }
          label := if kind = .withContext then label else none } }
  (result.toOption.getD false, scene.thread, scene.process)

/-- What an exiting thread still does in its own name. -/
def clearOnExit (kind : ThreadKind) (depth : Nat) : Storage Unit := do
  if kind.carries then
    clearAndRelease (enter depth)

/-! ## Destructors -/

/-- A thread-local of the storage engine. -/
inductive ThreadLocal where
  | carried
  | fallback
  | sentinel
  deriving DecidableEq, Repr

def ThreadLocal.all : List ThreadLocal := [.carried, .fallback, .sentinel]

/-- After how many others a thread-local was first used, if its destructor is still to run. -/
def Thread.since? (t : Thread) : ThreadLocal → Option Nat
  | .carried => t.locals.carried.since?
  | .fallback => t.locals.fallback.since?
  | .sentinel => t.sentinel.since?

/-- Destroy a thread-local. A table that it held is not reached through it any more; the watchers
that the sentinel knows learn of the thread's death. -/
def Scene.destroy (sc : Scene) : ThreadLocal → Scene
  | .carried =>
    { sc with
      thread := { sc.thread with locals := { sc.thread.locals with carried := .destroyed } } }
  | .fallback =>
    { sc with
      thread := { sc.thread with locals := { sc.thread.locals with fallback := .destroyed } } }
  | .sentinel =>
    { sc with
      process := sc.process.reportDeath sc.thread.id sc.thread.sentinel
      thread := { sc.thread with sentinel := .destroyed } }

/-- Put a thread-local before those that were used no later. -/
def Thread.insertUsed (t : Thread) (l : ThreadLocal) : List ThreadLocal → List ThreadLocal
  | [] => [l]
  | l' :: ls =>
    if (t.since? l').getD 0 ≤ (t.since? l).getD 0 then l :: l' :: ls else l' :: t.insertUsed l ls

/-- The thread-locals in use that were first used after `n` others or more, the latest first. Of two
that were used after equally many, the sentinel was used first. -/
def Thread.usedAfter (t : Thread) (n : Nat) : List ThreadLocal :=
  (ThreadLocal.all.filter fun l => (t.since? l).any (n ≤ ·)).foldr t.insertUsed []

/-- Run the destructors of the thread-locals that were first used after `n` others or more. -/
def Scene.unwind (sc : Scene) (n : Nat) : Scene :=
  (sc.thread.usedAfter n).foldl Scene.destroy sc

/-- A thread-local of the thread's own code. -/
structure Late where
  /-- After how many others it was first used. -/
  since : Nat
  /-- What its destructor does. -/
  commands : List Command

/-- The thread-locals of a thread whose code uses at most one, before all else. -/
def Late.first (commands : Option (List Command)) : List Late :=
  commands.toList.map fun commands => { since := 0, commands }

end ThreadSlots
