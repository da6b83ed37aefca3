import Mathlib.Data.List.Perm.Basic
import ThreadSlots.Watcher

/-!
# What a watcher keeps

A watcher is *tidy* if one worker lives while one is said to be running and none otherwise, and if
nothing is watched and no death waits while none is. Every critical section keeps that.

The jobs of a watcher are those that wait for a death and those that a worker has taken. A critical
section adds a job, drops jobs or hands one over to be run, and permutes the others
(`Watcher.pending`, `Watcher.taken`).

`Watcher.Works` is what workers do between the critical sections of others, and settling a watcher
is one of the things they can do (`works_settle`).
-/

namespace ThreadSlots

open Std (ExtTreeMap)

/-! ## The values of a map -/

section Values

variable {ι : Type} (m : ExtTreeMap Nat (List ι))

/-- The listed values of a map, key by key. -/
def allListed : List ι := m.toList.flatMap (·.2)

theorem nodup_toList : m.toList.Nodup := by
  refine List.Pairwise.imp ?_ m.distinct_keys_toList
  intro a b hab he
  subst he
  exact hab (by simp)

theorem toList_perm_erase {k : Nat} {a : List ι} (h : m[k]? = some a) :
    m.toList.Perm ((k, a) :: (m.erase k).toList) := by
  have hnot : (k, a) ∉ (m.erase k).toList := by
    rw [ExtTreeMap.mem_toList_iff_getElem?_eq_some]
    simp
  rw [List.perm_ext_iff_of_nodup (nodup_toList m)
    (List.nodup_cons.2 ⟨hnot, nodup_toList (m.erase k)⟩)]
  intro (i, b)
  rw [List.mem_cons, ExtTreeMap.mem_toList_iff_getElem?_eq_some,
    ExtTreeMap.mem_toList_iff_getElem?_eq_some, ExtTreeMap.getElem?_erase]
  by_cases hi : k = i
  · subst hi
    simp [h, eq_comm]
  · simp [hi, eq_comm (a := i)]

/-- The values of one key can be listed first. -/
theorem allListed_perm (k : Nat) : (allListed m).Perm (m.getD k [] ++ allListed (m.erase k)) := by
  rw [ExtTreeMap.getD_eq_getD_getElem?]
  cases hk : m[k]? with
  | none =>
    have : m.erase k = m := by
      apply ExtTreeMap.ext_getElem?
      intro i
      rw [ExtTreeMap.getElem?_erase]
      split
      · next hi =>
        rw [← Nat.compare_eq_eq.1 hi, hk]
      · rfl
    simp [this]
  | some a => exact (toList_perm_erase m hk).flatMap_right (·.2)

theorem allListed_insert (k : Nat) (j : ι) :
    (allListed (m.insert k (m.getD k [] ++ [j]))).Perm (j :: allListed m) := by
  have herase : (m.insert k (m.getD k [] ++ [j])).erase k = m.erase k := by
    apply ExtTreeMap.ext_getElem?
    intro i
    simp only [ExtTreeMap.getElem?_erase, ExtTreeMap.getElem?_insert]
    split <;> rfl
  have h := allListed_perm (m.insert k (m.getD k [] ++ [j])) k
  rw [herase, ExtTreeMap.getD_insert_self, List.append_assoc] at h
  refine h.trans (List.perm_middle.trans ?_)
  exact ((allListed_perm m k).symm).cons j

theorem mem_getD {k : Nat} {j : ι} : j ∈ m.getD k [] ↔ ∃ js, m[k]? = some js ∧ j ∈ js := by
  rw [ExtTreeMap.getD_eq_getD_getElem?]
  cases m[k]? <;> simp

end Values

/-! ## Lists of lists -/

section Flatten

variable {ι : Type} {ls : List (List ι)} {i : Nat} {a : List ι}

theorem flatten_perm_eraseIdx (h : ls[i]? = some a) :
    ls.flatten.Perm (a ++ (ls.eraseIdx i).flatten) := by
  obtain ⟨hi, rfl⟩ := List.getElem?_eq_some_iff.1 h
  exact (List.getElem_cons_eraseIdx_perm hi).symm.flatten

theorem flatten_set_perm (h : ls[i]? = some a) (b : List ι) :
    (ls.set i b).flatten.Perm (b ++ (ls.eraseIdx i).flatten) := by
  obtain ⟨hi, -⟩ := List.getElem?_eq_some_iff.1 h
  exact (List.set_perm_cons_eraseIdx hi b).flatten

end Flatten

namespace Watcher

variable {ι : Type} {w w' : Watcher ι} {i : Nat} {j : ι}

/-- The jobs that wait for a death. -/
def pending (w : Watcher ι) : List ι := allListed w.watched

/-- The jobs that workers have taken and not run yet. -/
def taken (w : Watcher ι) : List ι := w.workers.flatten

/-! ## What a worker does -/

/-- All that a worker's take does. -/
theorem workerTake_eq_some (h : w.workerTake i = some w') :
    ∃ t dead, w.workers[i]? = some [] ∧ w.dead = t :: dead ∧
      w' = { w with
        watched := w.watched.erase t
        dead := dead
        workers := w.workers.set i (w.watched.getD t []) } := by
  unfold workerTake at h
  split at h
  · next t dead hi hd =>
    cases h
    exact ⟨t, dead, hi, hd, rfl⟩
  · cases h

theorem workerRun_eq_some (h : w.workerRun i = some (j, w')) :
    ∃ js, w.workers[i]? = some (j :: js) ∧ w' = { w with workers := w.workers.set i js } := by
  unfold workerRun at h
  split at h
  · next js hi =>
    cases h
    exact ⟨js, hi, rfl⟩
  · cases h

theorem workerExit_eq_some (h : w.workerExit i = some w') :
    w.workers[i]? = some [] ∧ w.dead = [] ∧ w.watched = ∅ ∧
      w' = { w with running := false, workers := w.workers.eraseIdx i } := by
  unfold workerExit at h
  split at h
  · next hi hd =>
    split at h
    · next he =>
      cases h
      exact ⟨hi, hd, ExtTreeMap.isEmpty_iff.1 he, rfl⟩
    · cases h
  · cases h

/-! ## Where the jobs are -/

theorem pending_watch (w : Watcher ι) (t : ThreadId) (j : ι) :
    (w.watch t j).pending.Perm (j :: w.pending) :=
  allListed_insert w.watched t j

theorem taken_watch (w : Watcher ι) (t : ThreadId) (j : ι) : (w.watch t j).taken = w.taken := by
  unfold taken watch
  cases w.running <;> simp

theorem pending_unwatch (w : Watcher ι) (t : ThreadId) :
    w.pending.Perm (w.watched.getD t [] ++ (w.unwatch t).pending) :=
  allListed_perm w.watched t

@[simp] theorem taken_unwatch (w : Watcher ι) (t : ThreadId) : (w.unwatch t).taken = w.taken := rfl

@[simp] theorem watched_reportDeath (w : Watcher ι) (t : ThreadId) :
    (w.reportDeath t).watched = w.watched := by
  unfold reportDeath
  split <;> rfl

@[simp] theorem workers_reportDeath (w : Watcher ι) (t : ThreadId) :
    (w.reportDeath t).workers = w.workers := by
  unfold reportDeath
  split <;> rfl

@[simp] theorem running_reportDeath (w : Watcher ι) (t : ThreadId) :
    (w.reportDeath t).running = w.running := by
  unfold reportDeath
  split <;> rfl

@[simp] theorem pending_reportDeath (w : Watcher ι) (t : ThreadId) :
    (w.reportDeath t).pending = w.pending := by
  unfold pending
  rw [watched_reportDeath]

@[simp] theorem taken_reportDeath (w : Watcher ι) (t : ThreadId) :
    (w.reportDeath t).taken = w.taken := by
  unfold taken
  rw [workers_reportDeath]

theorem mem_dead_reportDeath {t u : ThreadId} :
    u ∈ (w.reportDeath t).dead ↔ u ∈ w.dead ∨ u = t ∧ t ∈ w.watched := by
  unfold reportDeath
  split
  · next h =>
    rw [List.mem_append, List.mem_singleton, ExtTreeMap.mem_iff_contains]
    simp [h]
  · next h =>
    rw [ExtTreeMap.mem_iff_contains]
    simp [h]

theorem mem_taken_set (hi : w.workers[i]? = some []) {js : List ι} :
    j ∈ (w.workers.set i js).flatten ↔ j ∈ js ∨ j ∈ w.taken := by
  have hold := flatten_perm_eraseIdx hi
  rw [List.nil_append] at hold
  rw [(flatten_set_perm hi js).mem_iff, List.mem_append, ← hold.mem_iff]
  rfl

theorem taken_workerTake (h : w.workerTake i = some w') :
    (w'.taken ++ w'.pending).Perm (w.taken ++ w.pending) := by
  obtain ⟨t, dead, hi, -, rfl⟩ := workerTake_eq_some h
  have htaken := flatten_set_perm hi (w.watched.getD t [])
  have hold := flatten_perm_eraseIdx hi
  rw [List.nil_append] at hold
  have hpending := allListed_perm w.watched t
  refine (htaken.append_right _).trans ?_
  refine (List.perm_append_comm.append_right _).trans ?_
  rw [List.append_assoc]
  exact hold.symm.append hpending.symm

theorem taken_workerRun (h : w.workerRun i = some (j, w')) :
    w.taken.Perm (j :: w'.taken) ∧ w'.pending = w.pending := by
  obtain ⟨js, hi, rfl⟩ := workerRun_eq_some h
  refine ⟨?_, rfl⟩
  exact (flatten_perm_eraseIdx hi).trans ((flatten_set_perm hi js).symm.cons j)

theorem taken_workerExit (h : w.workerExit i = some w') :
    w.taken.Perm w'.taken ∧ w'.pending = w.pending := by
  obtain ⟨hi, -, -, rfl⟩ := workerExit_eq_some h
  exact ⟨flatten_perm_eraseIdx hi, rfl⟩

/-! ## Tidiness -/

/-- A worker is said to be running exactly while one lives, and otherwise there is nothing to do. -/
structure Tidy (w : Watcher ι) : Prop where
  workers : w.workers.length = if w.running then 1 else 0
  idle : w.running = false → w.watched = ∅ ∧ w.dead = []

namespace Tidy

theorem new : ({} : Watcher ι).Tidy := ⟨rfl, fun _ => ⟨rfl, rfl⟩⟩

theorem length_le (h : w.Tidy) : w.workers.length ≤ 1 := by
  rw [h.workers]
  split <;> omega

theorem running_of_worker (h : w.Tidy) {a : List ι} (hi : w.workers[i]? = some a) :
    w.running = true ∧ i = 0 ∧ w.workers = [a] := by
  obtain ⟨hlt, ha⟩ := List.getElem?_eq_some_iff.1 hi
  have hlen := h.workers
  cases hr : w.running with
  | false =>
    rw [hr] at hlen
    simp only [Bool.false_eq_true, if_false] at hlen
    omega
  | true =>
    rw [hr, if_pos rfl] at hlen
    have hi0 : i = 0 := by omega
    subst hi0
    obtain ⟨b, hb⟩ := List.length_eq_one_iff.1 hlen
    simp only [hb, List.getElem_cons_zero] at ha
    exact ⟨rfl, rfl, by rw [hb, ha]⟩

/-- While no worker is said to be running the watcher is like a new one. -/
theorem eq_new (h : w.Tidy) (hr : w.running = false) : w = {} := by
  obtain ⟨watched, dead, running, workers⟩ := w
  obtain rfl : running = false := hr
  obtain ⟨hwatched, hdead⟩ := h.idle rfl
  have hworkers : workers = [] := List.eq_nil_of_length_eq_zero h.workers
  simp only at hwatched hdead
  rw [hwatched, hdead, hworkers]

theorem watch (h : w.Tidy) (t : ThreadId) (j : ι) : (w.watch t j).Tidy := by
  have hlen := h.workers
  refine ⟨?_, fun hr => by cases hr⟩
  unfold Watcher.watch
  cases hr : w.running
  · rw [hr] at hlen
    simpa using hlen
  · rw [hr] at hlen
    simpa using hlen

theorem unwatch (h : w.Tidy) (t : ThreadId) : (w.unwatch t).Tidy := by
  refine ⟨h.workers, fun hr => ⟨?_, (h.idle hr).2⟩⟩
  simp only [Watcher.unwatch, (h.idle hr).1]
  ext
  simp

theorem reportDeath (h : w.Tidy) (t : ThreadId) : (w.reportDeath t).Tidy := by
  refine ⟨by simpa using h.workers, ?_⟩
  intro hr
  rw [running_reportDeath] at hr
  obtain ⟨hwatched, hdead⟩ := h.idle hr
  refine ⟨by rw [watched_reportDeath, hwatched], ?_⟩
  unfold Watcher.reportDeath
  rw [hwatched]
  simpa using hdead

theorem workerTake (h : w.Tidy) (ht : w.workerTake i = some w') : w'.Tidy := by
  obtain ⟨t, dead, hi, hd, rfl⟩ := workerTake_eq_some ht
  obtain ⟨hr, -, -⟩ := h.running_of_worker hi
  refine ⟨?_, fun hr' => ?_⟩
  · rw [← h.workers]
    exact List.length_set
  · rw [hr] at hr'
    cases hr'

theorem workerRun (h : w.Tidy) (hrun : w.workerRun i = some (j, w')) : w'.Tidy := by
  obtain ⟨js, hi, rfl⟩ := workerRun_eq_some hrun
  refine ⟨?_, h.idle⟩
  rw [← h.workers]
  exact List.length_set

theorem workerExit (h : w.Tidy) (he : w.workerExit i = some w') : w'.Tidy := by
  obtain ⟨hi, hdead, hwatched, rfl⟩ := workerExit_eq_some he
  obtain ⟨-, rfl, hworkers⟩ := h.running_of_worker hi
  refine ⟨?_, fun _ => ⟨hwatched, hdead⟩⟩
  simp [hworkers]

end Tidy

/-! ## Workers at work -/

/-- Workers take steps, running the listed jobs in that order. -/
inductive Works : Watcher ι → List ι → Watcher ι → Prop where
  | refl (w : Watcher ι) : Works w [] w
  | take {w w' w'' : Watcher ι} {js : List ι} (i : Nat) (h : w.workerTake i = some w')
      (rest : Works w' js w'') : Works w js w''
  | run {w w' w'' : Watcher ι} {j : ι} {js : List ι} (i : Nat) (h : w.workerRun i = some (j, w'))
      (rest : Works w' js w'') : Works w (j :: js) w''
  | exit {w w' w'' : Watcher ι} {js : List ι} (i : Nat) (h : w.workerExit i = some w')
      (rest : Works w' js w'') : Works w js w''

theorem Works.trans {w w' w'' : Watcher ι} {js ks : List ι} (h : Works w js w')
    (h' : Works w' ks w'') : Works w (js ++ ks) w'' := by
  induction h with
  | refl => exact h'
  | take i ht _ ih => exact .take i ht (ih h')
  | run i hr _ ih => exact .run i hr (ih h')
  | exit i he _ ih => exact .exit i he (ih h')

theorem works_taken (w : Watcher ι) (js : List ι) :
    Works { w with workers := [js] } js { w with workers := [[]] } := by
  induction js with
  | nil => exact .refl _
  | cons j js ih => exact .run 0 rfl ih

/-- A worker runs the jobs of all threads that have died. -/
theorem works_takeAll (running : Bool) (dead : List ThreadId)
    (watched : ExtTreeMap ThreadId (List ι)) :
    Works { watched := watched, dead := dead, running := running, workers := [[]] }
      (takeAll watched dead).1
      { watched := (takeAll watched dead).2, dead := [], running := running, workers := [[]] } := by
  induction dead generalizing watched with
  | nil => exact .refl _
  | cons t dead ih =>
    have htaken := works_taken
      { watched := watched.erase t, dead := dead, running := running } (watched.getD t [])
    exact .take 0 rfl (htaken.trans (ih (watched.erase t)))

/-- Settling is something that workers do. -/
theorem Tidy.works_settle (h : w.Tidy) : Works w w.settle.1 w.settle.2 := by
  obtain ⟨watched, dead, running, workers⟩ := w
  have hlen := h.workers
  cases running with
  | false =>
    simp only [Bool.false_eq_true, if_false] at hlen
    obtain rfl : workers = [] := List.eq_nil_of_length_eq_zero hlen
    exact .refl _
  | true =>
    simp only [if_true] at hlen
    obtain ⟨js, rfl⟩ := List.length_eq_one_iff.1 hlen
    have hjobs := (works_taken { watched := watched, dead := dead, running := true } js).trans
      (works_takeAll true dead watched)
    unfold settle
    simp only [List.flatten_cons, List.flatten_nil, List.append_nil, Bool.true_and, List.map_cons,
      List.map_nil]
    cases hempty : (takeAll watched dead).2.isEmpty with
    | false => exact hjobs
    | true =>
      have hleave := hjobs.trans (.exit 0 (if_pos hempty) (.refl _))
      rwa [List.append_nil] at hleave

end Watcher

end ThreadSlots
