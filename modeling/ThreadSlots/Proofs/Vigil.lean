import Mathlib.Logic.Function.Basic
import ThreadSlots.Proofs.Runs
import ThreadSlots.Proofs.Watcher

/-!
# One watcher, its worker and the threads it watches

A `Vigil` is a watcher with the sentinels of the threads and a history of what happened, the latest
first. `Vigil.Step` is one critical section of anyone: a thread watches itself, somebody cancels a
thread's jobs, a thread is watched by another watcher, a thread's sentinel is destroyed, or the
worker takes the jobs of a dead thread, runs one of them, sleeps or leaves. The steps of the threads
are what `Storage.watch` and `Scene.destroy` do (`runOn_watch`, `runOn_watch_destroyed`).

What carries the results is a ledger (`Sound.ledger`): every job that was ever asked for was run or
cancelled, or is taken, or waits, and is in one of these places only.
-/

namespace ThreadSlots

open Storage

/-! ## The steps of a thread -/

/-- The sentinel that reports to a further watcher, and is first used after so many other
thread-locals if it was not used before. -/
def Sentinel.attach (since i : Nat) : Sentinel → Sentinel
  | .absent => .installed since [i]
  | .installed since watchers =>
    .installed since (if watchers.contains i then watchers else watchers ++ [i])
  | .destroyed => .destroyed

theorem Sentinel.attach_destroyed (since i : Nat) (s : Sentinel) :
    s.attach since i = .destroyed ↔ s = .destroyed := by
  cases s <;> simp [attach]

theorem Sentinel.exists_attach {s : Sentinel} (h : s ≠ .destroyed) (since i : Nat) :
    ∃ since' watchers, s.attach since i = .installed since' watchers ∧ i ∈ watchers := by
  cases s with
  | absent => exact ⟨since, [i], rfl, List.mem_singleton_self i⟩
  | installed since' watchers =>
    refine ⟨since', _, rfl, ?_⟩
    split
    · next hi => exact List.contains_iff_mem.1 hi
    · exact List.mem_append_right _ (List.mem_singleton_self i)
  | destroyed => exact absurd rfl h

theorem Sentinel.mem_attach {since₀ : Nat} {watchers : List Nat} (since i : Nat) {k : Nat}
    (hk : k ∈ watchers) :
    ∃ since' watchers', (installed since₀ watchers).attach since i = .installed since' watchers' ∧
      k ∈ watchers' := by
  refine ⟨_, _, rfl, ?_⟩
  split
  · exact hk
  · exact List.mem_append_left _ hk

theorem runOn_watch {sc : Scene} (h : sc.thread.sentinel ≠ .destroyed) (i : Nat) (job : Job) :
    (watch i job).runOn sc = (.ok (),
      { sc with
        process := sc.process.updateWatcher i (·.watch sc.thread.id job)
        thread :=
          { sc.thread with sentinel := sc.thread.sentinel.attach sc.thread.locals.uses i } }) := by
  obtain ⟨⟨p, t, es⟩, ps⟩ := sc
  obtain ⟨⟨id, tables, nextTable, locals, sentinel, names, label⟩, interrupted, filled⟩ := t
  cases sentinel with
  | absent => simp [watch, Sentinel.attach]
  | installed since watchers =>
    by_cases hi : i ∈ watchers
    · simp [watch, Sentinel.attach, hi]
    · simp [watch, Sentinel.attach, hi]
  | destroyed => exact absurd rfl h

theorem runOn_watch_destroyed {sc : Scene} (h : sc.thread.sentinel = .destroyed) (i : Nat)
    (job : Job) :
    ((watch i job).runOn sc).2 = { sc with process := sc.process.runJob job } := by
  unfold watch
  simp only [runOn_bind, runOn_thread, h]
  cases job with
  | forget => simp
  | record label panics => cases panics <;> simp

/-! ## Vigils -/

/-- What happens in the life of a watcher. -/
inductive Occurrence (ι : Type) where
  /-- A thread asked for a job to be run after its death. -/
  | watched (thread : ThreadId) (job : ι)
  /-- A thread asked for a job when it could not report its death any more; the job was run. -/
  | ranAtOnce (thread : ThreadId) (job : ι) (panicked : Bool)
  /-- The jobs of a thread were cancelled. -/
  | cancelled (thread : ThreadId) (jobs : List ι)
  /-- A thread's sentinel was destroyed. -/
  | died (thread : ThreadId)
  /-- A worker ran a job. -/
  | ran (job : ι) (panicked : Bool)
  deriving DecidableEq

namespace Occurrence

variable {ι : Type}

def asked : Occurrence ι → List ι
  | watched _ job | ranAtOnce _ job _ => [job]
  | cancelled .. | died _ | ran .. => []

def runs : Occurrence ι → List ι
  | ranAtOnce _ job _ | ran job _ => [job]
  | watched .. | cancelled .. | died _ => []

def dropped : Occurrence ι → List ι
  | cancelled _ jobs => jobs
  | watched .. | ranAtOnce .. | died _ | ran .. => []

/-- A job is run only when its thread has died. -/
def Timely (earlier : List (Occurrence ι)) : Occurrence ι → Prop
  | ran job _ => ∃ t, watched t job ∈ earlier ∧ died t ∈ earlier
  | ranAtOnce t _ _ => died t ∈ earlier
  | watched .. | cancelled .. | died _ => True

end Occurrence

/-- A watcher, the sentinels of all threads, and what happened so far, the latest first. -/
@[ext]
structure Vigil (ι : Type) where
  watcher : Watcher ι := {}
  sentinel : ThreadId → Sentinel := fun _ => .absent
  history : List (Occurrence ι) := []

namespace Vigil

variable {ι : Type} {number : Nat} {v v' : Vigil ι}

/-- The jobs that were asked for so far. -/
def asked (v : Vigil ι) : List ι := v.history.flatMap Occurrence.asked

/-- The jobs that were run so far, each as often as it was. -/
def runs (v : Vigil ι) : List ι := v.history.flatMap Occurrence.runs

/-- The jobs that were cancelled so far. -/
def dropped (v : Vigil ι) : List ι := v.history.flatMap Occurrence.dropped

/-- One critical section, of a watcher with the given number. Every job that is asked for is a new
one, and a job that is run may panic. -/
inductive Step (number : Nat) : Vigil ι → Vigil ι → Prop where
  | watch {v : Vigil ι} (t : ThreadId) (since : Nat) (job : ι) (fresh : job ∉ v.asked)
      (alive : v.sentinel t ≠ .destroyed) :
      Step number v
        { watcher := v.watcher.watch t job
          sentinel := Function.update v.sentinel t ((v.sentinel t).attach since number)
          history := .watched t job :: v.history }
  | watchLate {v : Vigil ι} (t : ThreadId) (job : ι) (panicked : Bool) (fresh : job ∉ v.asked)
      (gone : v.sentinel t = .destroyed) :
      Step number v { v with history := .ranAtOnce t job panicked :: v.history }
  | unwatch {v : Vigil ι} (t : ThreadId) :
      Step number v
        { v with
          watcher := v.watcher.unwatch t
          history := .cancelled t (v.watcher.watched.getD t []) :: v.history }
  | attach {v : Vigil ι} (t : ThreadId) (since i : Nat) (other : i ≠ number) :
      Step number v
        { v with sentinel := Function.update v.sentinel t ((v.sentinel t).attach since i) }
  | die {v : Vigil ι} (t : ThreadId) (since : Nat) (watchers : List Nat)
      (alive : v.sentinel t = .installed since watchers) :
      Step number v
        { watcher := if number ∈ watchers then v.watcher.reportDeath t else v.watcher
          sentinel := Function.update v.sentinel t .destroyed
          history := .died t :: v.history }
  | take {v : Vigil ι} (i : Nat) {w : Watcher ι} (h : v.watcher.workerTake i = some w) :
      Step number v { v with watcher := w }
  | run {v : Vigil ι} (i : Nat) {job : ι} {w : Watcher ι}
      (h : v.watcher.workerRun i = some (job, w)) (panicked : Bool) :
      Step number v { v with watcher := w, history := .ran job panicked :: v.history }
  | sleep {v : Vigil ι} (i : Nat) (h : i < v.watcher.workers.length) : Step number v v
  | exit {v : Vigil ι} (i : Nat) {w : Watcher ι} (h : v.watcher.workerExit i = some w) :
      Step number v { v with watcher := w }

/-- What critical sections in any order lead to. -/
inductive Reached (number : Nat) : Vigil ι → Prop where
  | start : Reached number {}
  | step {v v' : Vigil ι} (h : Reached number v) (hs : Step number v v') : Reached number v'

theorem Reached.works (h : v.Reached number) {js : List ι} {w : Watcher ι}
    (hw : v.watcher.Works js w) (panics : ι → Bool) :
    Reached number { v with
      watcher := w
      history := (js.map fun j => .ran j (panics j)).reverse ++ v.history } := by
  obtain ⟨start, sentinel, history⟩ := v
  simp only at hw
  induction hw generalizing history with
  | refl => exact h
  | take i ht _ ih => exact ih history (h.step (.take i ht))
  | @run _ _ _ j js i hr _ ih =>
    have := ih (.ran j (panics j) :: history) (h.step (.run i hr (panics j)))
    simpa using this
  | exit i he _ ih => exact ih history (h.step (.exit i he))

/-! ## What every step keeps -/

/-- Where the jobs of a vigil are, and why they may be there. -/
structure Sound (number : Nat) (v : Vigil ι) : Prop where
  tidy : v.watcher.Tidy
  asked_nodup : v.asked.Nodup
  /-- every job that was asked for is in one place -/
  ledger : v.asked.Perm ((v.runs ++ v.dropped) ++ (v.watcher.taken ++ v.watcher.pending))
  /-- a job that waits was asked for by the thread it waits for -/
  waits : ∀ t, ∀ j ∈ v.watcher.watched.getD t [], .watched t j ∈ v.history
  /-- a job is taken when its thread has died -/
  taken : ∀ j ∈ v.watcher.taken, ∃ t, .watched t j ∈ v.history ∧ .died t ∈ v.history
  dead : ∀ t ∈ v.watcher.dead, .died t ∈ v.history
  died : ∀ t, v.sentinel t = .destroyed ↔ .died t ∈ v.history
  /-- a watched thread will report its death or has done so -/
  posted : ∀ t ∈ v.watcher.watched,
    (∃ since watchers, v.sentinel t = .installed since watchers ∧ number ∈ watchers) ∨
      t ∈ v.watcher.dead
  timely : ∀ o earlier, o :: earlier <:+ v.history → o.Timely earlier

theorem Sound.start : Sound number ({} : Vigil ι) where
  tidy := .new
  asked_nodup := List.nodup_nil
  ledger := by simp [asked, runs, dropped, Watcher.taken, Watcher.pending, allListed]
  waits t j hj := by simp at hj
  taken j hj := by simp [Watcher.taken] at hj
  dead t ht := by simp at ht
  died t := by simp
  posted t ht := by simp at ht
  timely o earlier h := by simp at h

theorem timely_cons {o : Occurrence ι} {history : List (Occurrence ι)}
    (h : ∀ o' earlier, o' :: earlier <:+ history → o'.Timely earlier) (ho : o.Timely history) :
    ∀ o' earlier, o' :: earlier <:+ o :: history → o'.Timely earlier := by
  intro o' earlier hs
  rcases List.suffix_cons_iff.1 hs with he | hs
  · obtain ⟨rfl, rfl⟩ := List.cons.inj he
    exact ho
  · exact h o' earlier hs

namespace Sound

theorem taken_cons (h : Sound number v) (o : Occurrence ι) {j : ι} (hj : j ∈ v.watcher.taken) :
    ∃ t, .watched t j ∈ o :: v.history ∧ .died t ∈ o :: v.history := by
  obtain ⟨t, hwatched, hdied⟩ := h.taken j hj
  exact ⟨t, List.mem_cons_of_mem _ hwatched, List.mem_cons_of_mem _ hdied⟩

theorem watch (h : Sound number v) {t : ThreadId} {since : Nat} {job : ι} (fresh : job ∉ v.asked)
    (alive : v.sentinel t ≠ .destroyed) :
    Sound number
      { watcher := v.watcher.watch t job
        sentinel := Function.update v.sentinel t ((v.sentinel t).attach since number)
        history := .watched t job :: v.history } where
  tidy := h.tidy.watch t job
  asked_nodup := List.nodup_cons.2 ⟨fresh, h.asked_nodup⟩
  ledger := by
    rw [Watcher.taken_watch]
    refine (h.ledger.cons job).trans ?_
    refine List.perm_middle.symm.trans (List.Perm.append_left _ ?_)
    exact List.perm_middle.symm.trans
      ((Watcher.pending_watch v.watcher t job).symm.append_left v.watcher.taken)
  waits u j hj := by
    simp only [Watcher.watch, Std.ExtTreeMap.getD_insert, Nat.compare_eq_eq] at hj
    split at hj
    · next he =>
      subst he
      rcases List.mem_append.1 hj with hj | hj
      · exact List.mem_cons_of_mem _ (h.waits t j hj)
      · rw [List.mem_singleton.1 hj]
        exact List.mem_cons_self
    · exact List.mem_cons_of_mem _ (h.waits u j hj)
  taken j hj := by
    rw [Watcher.taken_watch] at hj
    exact h.taken_cons _ hj
  dead u hu := List.mem_cons_of_mem _ (h.dead u hu)
  died u := by
    by_cases hu : u = t
    · subst hu
      have hnot : .died u ∉ v.history := fun hd => alive ((h.died u).2 hd)
      simp [Sentinel.attach_destroyed, alive, hnot]
    · simp [hu, h.died u]
  posted u hu := by
    by_cases he : u = t
    · subst he
      left
      simp only [Function.update_self]
      exact Sentinel.exists_attach alive since number
    · have hold : u ∈ v.watcher.watched := by
        simpa [Watcher.watch, Ne.symm he] using hu
      simp only [Function.update_of_ne he]
      exact h.posted u hold
  timely := timely_cons h.timely trivial

theorem watchLate (h : Sound number v) {t : ThreadId} {job : ι} {panicked : Bool}
    (fresh : job ∉ v.asked) (gone : v.sentinel t = .destroyed) :
    Sound number { v with history := .ranAtOnce t job panicked :: v.history } where
  tidy := h.tidy
  asked_nodup := List.nodup_cons.2 ⟨fresh, h.asked_nodup⟩
  ledger := h.ledger.cons job
  waits u j hj := List.mem_cons_of_mem _ (h.waits u j hj)
  taken _ hj := h.taken_cons _ hj
  dead u hu := List.mem_cons_of_mem _ (h.dead u hu)
  died u := by simp [h.died u]
  posted := h.posted
  timely := timely_cons h.timely ((h.died t).1 gone)

theorem unwatch (h : Sound number v) (t : ThreadId) :
    Sound number
      { v with
        watcher := v.watcher.unwatch t
        history := .cancelled t (v.watcher.watched.getD t []) :: v.history } where
  tidy := h.tidy.unwatch t
  asked_nodup := h.asked_nodup
  ledger := by
    have hpending := Watcher.pending_unwatch v.watcher t
    refine (h.ledger.trans ((hpending.append_left _).append_left _)).trans ?_
    simp only [List.append_assoc]
    refine List.Perm.append_left v.runs ?_
    refine ((List.perm_append_comm_assoc ..).append_left v.dropped).trans ?_
    exact (List.perm_append_comm_assoc ..).trans (.of_eq (List.append_assoc ..).symm)
  waits u j hj := by
    simp only [Watcher.unwatch, Std.ExtTreeMap.getD_erase] at hj
    split at hj
    · cases hj
    · exact List.mem_cons_of_mem _ (h.waits u j hj)
  taken _ hj := h.taken_cons _ hj
  dead u hu := List.mem_cons_of_mem _ (h.dead u hu)
  died u := by simp [h.died u]
  posted u hu := h.posted u (Std.ExtTreeMap.mem_of_mem_erase hu)
  timely := timely_cons h.timely trivial

theorem attach (h : Sound number v) (t : ThreadId) (since i : Nat) :
    Sound number
      { v with
        sentinel := Function.update v.sentinel t ((v.sentinel t).attach since i) } where
  tidy := h.tidy
  asked_nodup := h.asked_nodup
  ledger := h.ledger
  waits := h.waits
  taken := h.taken
  dead := h.dead
  died u := by
    rw [← h.died u]
    by_cases hu : u = t
    · subst hu
      simp [Sentinel.attach_destroyed]
    · simp [hu]
  posted u hu := by
    rcases h.posted u hu with ⟨since₀, watchers, hs, hself⟩ | hd
    · left
      by_cases he : u = t
      · subst he
        simp only [Function.update_self, hs]
        exact Sentinel.mem_attach since i hself
      · exact ⟨since₀, watchers, by simp [he, hs], hself⟩
    · exact Or.inr hd
  timely := h.timely

theorem dead_die {w : Watcher ι} {t u : ThreadId} {watchers : List Nat}
    (hu : u ∈ (if number ∈ watchers then w.reportDeath t else w).dead) : u ∈ w.dead ∨ u = t := by
  split at hu
  · exact (Watcher.mem_dead_reportDeath.1 hu).imp_right And.left
  · exact Or.inl hu

theorem die (h : Sound number v) {t : ThreadId} {since : Nat} {watchers : List Nat}
    (alive : v.sentinel t = .installed since watchers) :
    Sound number
      { watcher := if number ∈ watchers then v.watcher.reportDeath t else v.watcher
        sentinel := Function.update v.sentinel t .destroyed
        history := .died t :: v.history } where
  tidy := by
    split
    · exact h.tidy.reportDeath t
    · exact h.tidy
  asked_nodup := h.asked_nodup
  ledger := by
    have := h.ledger
    split <;> simpa [asked, runs, dropped, Occurrence.asked, Occurrence.runs, Occurrence.dropped]
  waits u j hj := by
    have hold : j ∈ v.watcher.watched.getD u [] := by split at hj <;> simpa using hj
    exact List.mem_cons_of_mem _ (h.waits u j hold)
  taken j hj := by
    have hold : j ∈ v.watcher.taken := by split at hj <;> simpa using hj
    exact h.taken_cons _ hold
  dead u hu := by
    rcases dead_die hu with hu | rfl
    · exact List.mem_cons_of_mem _ (h.dead u hu)
    · exact List.mem_cons_self
  died u := by
    by_cases hu : u = t
    · simp [hu]
    · simp [hu, h.died u]
  posted u hu := by
    have hold : u ∈ v.watcher.watched := by split at hu <;> simpa using hu
    have hpost := h.posted u hold
    by_cases he : u = t
    · -- its own sentinel tells this watcher, which puts the thread among the dead
      subst he
      right
      rcases hpost with ⟨since', watchers', hs, hself⟩ | hd
      · obtain ⟨-, rfl⟩ : since' = since ∧ watchers' = watchers := by simpa [alive] using hs.symm
        rw [if_pos hself]
        exact Watcher.mem_dead_reportDeath.2 (Or.inr ⟨rfl, hold⟩)
      · split
        · exact Watcher.mem_dead_reportDeath.2 (Or.inl hd)
        · exact hd
    · rcases hpost with ⟨since', watchers', hs, hself⟩ | hd
      · exact Or.inl ⟨since', watchers', by simp [he, hs], hself⟩
      · right
        split
        · exact Watcher.mem_dead_reportDeath.2 (Or.inl hd)
        · exact hd
  timely := timely_cons h.timely trivial

theorem take (h : Sound number v) {i : Nat} {w : Watcher ι}
    (ht : v.watcher.workerTake i = some w) : Sound number { v with watcher := w } where
  tidy := h.tidy.workerTake ht
  asked_nodup := h.asked_nodup
  ledger := h.ledger.trans ((Watcher.taken_workerTake ht).symm.append_left _)
  waits u j hj := by
    obtain ⟨t, dead, -, -, rfl⟩ := Watcher.workerTake_eq_some ht
    simp only [Std.ExtTreeMap.getD_erase] at hj
    split at hj
    · cases hj
    · exact h.waits u j hj
  taken j hj := by
    obtain ⟨t, dead, hi, hd, rfl⟩ := Watcher.workerTake_eq_some ht
    rcases (Watcher.mem_taken_set hi).1 hj with hj | hj
    · -- the jobs that are taken waited for a thread that was found among the dead
      have hdied : t ∈ v.watcher.dead := by simp [hd]
      exact ⟨t, h.waits t j hj, h.dead t hdied⟩
    · exact h.taken j hj
  dead u hu := by
    obtain ⟨t, dead, -, hd, rfl⟩ := Watcher.workerTake_eq_some ht
    exact h.dead u (by rw [hd]; exact List.mem_cons_of_mem _ hu)
  died := h.died
  posted u hu := by
    obtain ⟨t, dead, -, hd, rfl⟩ := Watcher.workerTake_eq_some ht
    obtain ⟨hne, hold⟩ := Std.ExtTreeMap.mem_erase.1 hu
    refine (h.posted u hold).imp_right fun hdead => ?_
    rw [hd] at hdead
    rcases List.mem_cons.1 hdead with rfl | hdead
    · simp at hne
    · exact hdead
  timely := h.timely

theorem run (h : Sound number v) {i : Nat} {job : ι} {w : Watcher ι}
    (hr : v.watcher.workerRun i = some (job, w)) (panicked : Bool) :
    Sound number { v with watcher := w, history := .ran job panicked :: v.history } := by
  obtain ⟨htaken, hpending⟩ := Watcher.taken_workerRun hr
  have hjob : job ∈ v.watcher.taken := htaken.mem_iff.2 List.mem_cons_self
  -- the job goes from the taken ones to those that were run
  refine ⟨h.tidy.workerRun hr, h.asked_nodup, ?ledger, ?waits, ?taken, ?dead, ?died, ?posted,
    timely_cons h.timely (h.taken job hjob)⟩
  case ledger =>
    refine (h.ledger.trans ((htaken.append_right _).append_left _)).trans ?_
    rw [hpending]
    exact List.perm_middle
  case taken =>
    intro j hj
    exact h.taken_cons _ (htaken.mem_iff.2 (List.mem_cons_of_mem _ hj))
  all_goals obtain ⟨js, -, rfl⟩ := Watcher.workerRun_eq_some hr
  case waits => exact fun u j hj => List.mem_cons_of_mem _ (h.waits u j hj)
  case dead => exact fun u hu => List.mem_cons_of_mem _ (h.dead u hu)
  case died => exact fun u => by simp [h.died u]
  case posted => exact h.posted

theorem exit (h : Sound number v) {i : Nat} {w : Watcher ι}
    (he : v.watcher.workerExit i = some w) : Sound number { v with watcher := w } := by
  obtain ⟨htaken, hpending⟩ := Watcher.taken_workerExit he
  refine ⟨h.tidy.workerExit he, h.asked_nodup, ?_, ?waits,
    fun j hj => h.taken j (htaken.mem_iff.2 hj), ?dead, h.died, ?posted, h.timely⟩
  · rw [hpending]
    exact h.ledger.trans ((htaken.append_right _).append_left _)
  all_goals obtain ⟨-, -, -, rfl⟩ := Watcher.workerExit_eq_some he
  case waits => exact h.waits
  case dead => exact h.dead
  case posted => exact h.posted

theorem step (h : Sound number v) (hs : Step number v v') : Sound number v' := by
  cases hs with
  | watch t since job fresh alive => exact h.watch fresh alive
  | watchLate t job panicked fresh gone => exact h.watchLate fresh gone
  | unwatch t => exact h.unwatch t
  | attach t since i other => exact h.attach t since i
  | die t since watchers alive => exact h.die alive
  | take i ht => exact h.take ht
  | run i hr panicked => exact h.run hr panicked
  | sleep => exact h
  | exit i he => exact h.exit he

end Sound

theorem Reached.sound (h : v.Reached number) : Sound number v := by
  induction h with
  | start => exact .start
  | step _ hs ih => exact ih.step hs

/-! ## Results -/

/-- Every job that was asked for was run or cancelled when no worker lives. -/
theorem Sound.ended (h : Sound number v) (hw : v.watcher.workers = []) {j : ι} (hj : j ∈ v.asked) :
    j ∈ v.runs ∨ j ∈ v.dropped := by
  have hr : v.watcher.running = false := by
    have hlen := h.tidy.workers
    rw [hw] at hlen
    cases hr : v.watcher.running with
    | false => rfl
    | true => simp [hr] at hlen
  -- an idle watcher is like a new one, in which no job is taken or waits
  have hmem := h.ledger.mem_iff.1 hj
  rw [h.tidy.eq_new hr] at hmem
  simpa [Watcher.taken, Watcher.pending, allListed] using hmem

/-- What may be relied on at any time in the life of a watcher. -/
structure Safe (v : Vigil ι) : Prop where
  one_worker : v.watcher.workers.length ≤ 1
  idle : v.watcher.running = false → v.watcher.watched = ∅ ∧ v.watcher.dead = []
  runs_once : v.runs.Nodup
  not_run : ∀ j ∈ v.dropped, j ∉ v.runs
  /-- a worker runs a job only after the sentinel of the thread that asked for it was destroyed -/
  after_death : ∀ j panicked earlier, .ran j panicked :: earlier <:+ v.history →
    ∃ t, .watched t j ∈ earlier ∧ .died t ∈ earlier
  /-- a job is run at once only if that sentinel had been destroyed before -/
  at_once : ∀ t j panicked earlier, .ranAtOnce t j panicked :: earlier <:+ v.history →
    .died t ∈ earlier
  /-- when the worker has left, no job of a dead thread is left -/
  ended : v.watcher.workers = [] → ∀ t j, .watched t j ∈ v.history → .died t ∈ v.history →
    j ∈ v.runs ∨ j ∈ v.dropped

/-- **A watcher is safe** after critical sections of any threads and of its worker in any order. -/
theorem safe_of_reached (h : v.Reached number) : v.Safe := by
  have hs := h.sound
  have hnodup := (List.nodup_append.1 (hs.ledger.nodup_iff.1 hs.asked_nodup)).1
  obtain ⟨hruns, -, hdisjoint⟩ := List.nodup_append.1 hnodup
  refine ⟨hs.tidy.length_le, hs.tidy.idle, hruns, ?_, ?_, ?_, ?_⟩
  · intro j hdropped hj
    exact hdisjoint j hj j hdropped rfl
  · intro j panicked earlier hsuffix
    exact hs.timely _ _ hsuffix
  · intro t j panicked earlier hsuffix
    exact hs.timely _ _ hsuffix
  · intro hworkers t j hwatched _
    apply hs.ended hworkers
    exact List.mem_flatMap.2 ⟨_, hwatched, List.mem_singleton_self j⟩

/-- What is left of watching two threads: the jobs of one were cancelled, the other has died, its
jobs were run, and it asked for one more when it was too late. -/
def twoWatched : Vigil String where
  sentinel t := if t = 1 then .destroyed else if t = 2 then .installed 0 [0] else .absent
  history := [.ranAtOnce 1 "d" true, .ran "b" false, .ran "a" true, .died 1, .cancelled 2 ["c"],
    .watched 2 "c", .watched 1 "b", .watched 1 "a"]

theorem twoWatched_reached : twoWatched.Reached 0 := by
  have h₁ : Reached 0 _ := Reached.start.step (.watch 1 0 "a" (by decide) nofun)
  have h₂ := h₁.step (.watch 1 0 "b" (by decide) nofun)
  have h₃ := h₂.step (.watch 2 0 "c" (by decide) nofun)
  have h₄ := h₃.step (.unwatch 2)
  have h₅ := h₄.step (.die 1 0 [0] rfl)
  have h₆ := h₅.works h₅.sound.tidy.works_settle (· == "a")
  have h₇ := h₆.step (.watchLate 1 "d" true (by decide +kernel) rfl)
  refine (congrArg (Reached 0) (Vigil.ext ?_ ?_ ?_)).mpr h₇
  · exact (h₇.sound.tidy.eq_new (by decide +kernel)).symm
  · funext t
    by_cases h1 : t = 1
    · simp [twoWatched, h1]
    · by_cases h2 : t = 2
      · simp [twoWatched, h2, Sentinel.attach]
      · simp [twoWatched, h1, h2]
  · decide +kernel

theorem safe_of_reached_twoWatched :
    twoWatched.Reached 0 ∧ twoWatched.runs = ["d", "b", "a"] ∧ twoWatched.dropped = ["c"] ∧
      twoWatched.Safe :=
  ⟨twoWatched_reached, rfl, rfl, safe_of_reached twoWatched_reached⟩

end Vigil

end ThreadSlots
