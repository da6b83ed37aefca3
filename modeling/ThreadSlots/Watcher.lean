import Std.Data.ExtTreeMap

/-!
# Watching threads for their death

A watcher is told to run a job once a thread has died. Its state is shared by the watched threads
and its worker, and every function below is one critical section on that state, so a run of a
watcher is any interleaving of them.

A dying thread only queues itself (`reportDeath`). A worker takes the jobs of the thread that has
waited longest (`workerTake`), runs them one by one outside the critical section (`workerRun`), and
leaves when nothing is watched any more (`workerExit`). A `watch` that finds no worker said to be
running starts one. Cancelling (`unwatch`) drops the jobs that no worker has taken.

`settle` lets the workers go on until they sleep or have left.
-/

namespace ThreadSlots

open Std (ExtTreeMap)

/-- Identifies a thread; no two threads of a process share one, not even one after the other. -/
abbrev ThreadId := Nat

/-- The state of a watcher, whose jobs have type `ι`. -/
structure Watcher (ι : Type) where
  /-- The watched threads with their jobs, in the order in which they were added. -/
  watched : ExtTreeMap ThreadId (List ι) := ∅
  /-- The watched threads that have died, in that order. -/
  dead : List ThreadId := []
  /-- A worker is said to be running. -/
  running : Bool := false
  /-- The workers that live, each with the jobs that it has taken and not run yet. -/
  workers : List (List ι) := []

namespace Watcher

variable {ι : Type}

/-- Run `job` once `thread` has died. -/
def watch (w : Watcher ι) (thread : ThreadId) (job : ι) : Watcher ι :=
  { w with
    watched := w.watched.insert thread (w.watched.getD thread [] ++ [job])
    running := true
    workers := if w.running then w.workers else w.workers ++ [[]] }

/-- Drop the jobs of a thread. -/
def unwatch (w : Watcher ι) (thread : ThreadId) : Watcher ι :=
  { w with watched := w.watched.erase thread }

/-- A thread has died. -/
def reportDeath (w : Watcher ι) (thread : ThreadId) : Watcher ι :=
  if w.watched.contains thread then { w with dead := w.dead ++ [thread] } else w

/-- A worker that has nothing to run takes the jobs of the thread that died first. -/
def workerTake (w : Watcher ι) (i : Nat) : Option (Watcher ι) :=
  match w.workers[i]?, w.dead with
  | some [], thread :: dead =>
    some
      { w with
        watched := w.watched.erase thread
        dead := dead
        workers := w.workers.set i (w.watched.getD thread []) }
  | _, _ => none

/-- A worker runs the next job it has taken. -/
def workerRun (w : Watcher ι) (i : Nat) : Option (ι × Watcher ι) :=
  match w.workers[i]? with
  | some (job :: taken) => some (job, { w with workers := w.workers.set i taken })
  | _ => none

/-- A worker leaves: it has nothing to run and nothing is watched. -/
def workerExit (w : Watcher ι) (i : Nat) : Option (Watcher ι) :=
  match w.workers[i]?, w.dead with
  | some [], [] =>
    if w.watched.isEmpty then
      some { w with running := false, workers := w.workers.eraseIdx i }
    else none
  | _, _ => none

/-- The number of threads with pending jobs. -/
def count (w : Watcher ι) : Nat := w.watched.size

/-- A worker lives, as far as is known. -/
def isActive (w : Watcher ι) : Bool := w.running

/-- The jobs of the dead threads, one thread after the other, and what stays watched. -/
def takeAll (watched : ExtTreeMap ThreadId (List ι)) :
    List ThreadId → List ι × ExtTreeMap ThreadId (List ι)
  | [] => ([], watched)
  | thread :: dead =>
    let (jobs, rest) := takeAll (watched.erase thread) dead
    (watched.getD thread [] ++ jobs, rest)

/-- Let the workers run every job they can, in order, and leave if nothing is watched after that. -/
def settle (w : Watcher ι) : List ι × Watcher ι :=
  match w.workers with
  | [] => ([], w)
  | workers =>
    let (jobs, watched) := takeAll w.watched w.dead
    (workers.flatten ++ jobs,
      { watched := watched
        dead := []
        running := w.running && !watched.isEmpty
        workers := if watched.isEmpty then [] else workers.map fun _ => [] })

end Watcher

end ThreadSlots
