import ThreadSlots.Proofs.LocalCommands
import ThreadSlots.Proofs.Vigil

/-!
# The books of the death watch

The death watch keeps two books: the set of tracked threads and the jobs of its watcher, which threads
and the worker change one after the other. They agree (`Watcher.Books`) if every tracked thread has
its job, waiting or taken, and a waiting job belongs to a tracked thread. A process is *vigilant* if
they agree, the death watch is on, and no variable's callbacks interfere with it.

Each critical section keeps that. What others may rely on meanwhile is `Process.Spares`: a thread that
has not died stays tracked, whatever other threads and the worker do.
-/

namespace ThreadSlots

open Std (ExtTreeMap ExtTreeSet)
open Storage

/-- The name of the death watch's own watcher. -/
def globalName : String := "global"

/-- The command leaves the death watch on and its watcher to it. -/
def Command.LeavesWatch : Command → Prop
  | .onProcess (.install c) => c.deathWatch = true
  | .onWatchers (.watch watcher _ _) | .onWatchers (.unwatch watcher _) => watcher ≠ globalName
  | _ => True

/-! ## One watcher -/

namespace Watcher

variable {w w' : Watcher Job} {tracked : ExtTreeSet ThreadId} {bound i : Nat} {t : ThreadId}

/-- The tracked threads and the jobs of the death watch's watcher agree; they are threads below the
bound. -/
structure Books (w : Watcher Job) (tracked : ExtTreeSet ThreadId) (bound : Nat) : Prop where
  tidy : w.Tidy
  waits : ∀ (t : ThreadId) (js : List Job), w.watched[t]? = some js →
    js = [.forget t] ∧ t ∈ tracked ∧ .forget t ∉ w.taken ∧ t < bound
  taken : ∀ job ∈ w.taken, ∃ t, job = .forget t ∧ t < bound
  dead : ∀ t ∈ w.dead, t < bound
  tracked : ∀ t ∈ tracked, t ∈ w.watched ∨ .forget t ∈ w.taken

namespace Books

theorem new : ({} : Watcher Job).Books ∅ bound where
  tidy := .new
  waits t js h := by simp at h
  taken job h := by simp [Watcher.taken] at h
  dead t h := by simp at h
  tracked t h := by simp at h

theorem mono (h : w.Books tracked bound) {bound' : Nat} (hb : bound ≤ bound') :
    w.Books tracked bound' where
  tidy := h.tidy
  waits t js hjs := by
    obtain ⟨h₁, h₂, h₃, h₄⟩ := h.waits t js hjs
    exact ⟨h₁, h₂, h₃, Nat.lt_of_lt_of_le h₄ hb⟩
  taken job hjob := by
    obtain ⟨t, h₁, h₂⟩ := h.taken job hjob
    exact ⟨t, h₁, Nat.lt_of_lt_of_le h₂ hb⟩
  dead t ht := Nat.lt_of_lt_of_le (h.dead t ht) hb
  tracked := h.tracked

theorem watched_eq_none (h : w.Books tracked bound) (ht : t ∉ tracked) : w.watched[t]? = none := by
  cases hw : w.watched[t]? with
  | none => rfl
  | some js => exact absurd (h.waits t js hw).2.1 ht

theorem watch (h : w.Books tracked bound) (ht : t ∉ tracked) (hb : t < bound)
    (htaken : .forget t ∉ w.taken) :
    (w.watch t (.forget t)).Books (tracked.insert t) bound where
  tidy := h.tidy.watch t _
  waits u js hjs := by
    rw [taken_watch]
    simp only [Watcher.watch, ExtTreeMap.getD_eq_getD_getElem?, h.watched_eq_none ht,
      Option.getD_none, List.nil_append, ExtTreeMap.getElem?_insert, Nat.compare_eq_eq] at hjs
    split at hjs
    · next he =>
      subst he
      cases hjs
      exact ⟨rfl, ExtTreeSet.mem_insert_self, htaken, hb⟩
    · obtain ⟨h₁, h₂, h₃, h₄⟩ := h.waits u js hjs
      exact ⟨h₁, ExtTreeSet.mem_insert.2 (Or.inr h₂), h₃, h₄⟩
  taken job hjob := h.taken job (by rwa [taken_watch] at hjob)
  dead := h.dead
  tracked u hu := by
    rw [taken_watch]
    rcases ExtTreeSet.mem_insert.1 hu with he | hu
    · obtain rfl := Nat.compare_eq_eq.1 he
      exact Or.inl ExtTreeMap.mem_insert_self
    · exact (h.tracked u hu).imp_left fun hw => ExtTreeMap.mem_insert.2 (Or.inr hw)

theorem unwatch (h : w.Books tracked bound) (t : ThreadId) :
    (w.unwatch t).Books (tracked.erase t) bound where
  tidy := h.tidy.unwatch t
  waits u js hjs := by
    simp only [Watcher.unwatch, ExtTreeMap.getElem?_erase] at hjs
    split at hjs
    · cases hjs
    · next hne =>
      obtain ⟨h₁, h₂, h₃, h₄⟩ := h.waits u js hjs
      exact ⟨h₁, ExtTreeSet.mem_erase.2 ⟨hne, h₂⟩, h₃, h₄⟩
  taken := h.taken
  dead := h.dead
  tracked u hu := by
    obtain ⟨hne, hu⟩ := ExtTreeSet.mem_erase.1 hu
    exact (h.tracked u hu).imp_left fun hw => ExtTreeMap.mem_erase.2 ⟨hne, hw⟩

theorem reportDeath (h : w.Books tracked bound) (hb : t < bound) :
    (w.reportDeath t).Books tracked bound where
  tidy := h.tidy.reportDeath t
  waits u js hjs := by
    rw [watched_reportDeath] at hjs
    simpa using h.waits u js hjs
  taken job hjob := h.taken job (by simpa using hjob)
  dead u hu := by
    rcases mem_dead_reportDeath.1 hu with hu | ⟨rfl, -⟩
    · exact h.dead u hu
    · exact hb
  tracked u hu := by simpa using h.tracked u hu

theorem workerTake (h : w.Books tracked bound) (ht : w.workerTake i = some w') :
    w'.Books tracked bound := by
  have htidy := h.tidy.workerTake ht
  obtain ⟨t, dead, hi, hd, rfl⟩ := workerTake_eq_some ht
  -- all that waits for `t` is its own job, which goes over to the taken ones
  have hjobs : ∀ job ∈ w.watched.getD t [], job = .forget t := by
    intro job hjob
    obtain ⟨js, hjs, hjob⟩ := (mem_getD _).1 hjob
    rw [(h.waits t js hjs).1] at hjob
    exact List.mem_singleton.1 hjob
  refine ⟨htidy, ?_, ?_, fun u hu => h.dead u (by rw [hd]; exact List.mem_cons_of_mem _ hu), ?_⟩
  · intro u js hjs
    simp only [ExtTreeMap.getElem?_erase, Nat.compare_eq_eq] at hjs
    split at hjs
    · cases hjs
    · next hne =>
      obtain ⟨h₁, h₂, h₃, h₄⟩ := h.waits u js hjs
      refine ⟨h₁, h₂, fun hmem => ?_, h₄⟩
      rcases (mem_taken_set hi).1 hmem with hjob | hold
      · cases hjobs _ hjob
        exact hne rfl
      · exact h₃ hold
  · intro job hjob
    rcases (mem_taken_set hi).1 hjob with hjob | hold
    · exact ⟨t, hjobs job hjob, h.dead t (by simp [hd])⟩
    · exact h.taken job hold
  · intro u hu
    rcases h.tracked u hu with hw | hold
    · by_cases he : t = u
      · subst he
        right
        obtain ⟨js, hjs⟩ := Option.isSome_iff_exists.1 (ExtTreeMap.mem_iff_isSome_getElem?.1 hw)
        refine (mem_taken_set hi).2 (Or.inl ((mem_getD _).2 ⟨js, hjs, ?_⟩))
        rw [(h.waits t js hjs).1]
        exact List.mem_singleton_self _
      · exact Or.inl (ExtTreeMap.mem_erase.2 ⟨by simpa using he, hw⟩)
    · exact Or.inr ((mem_taken_set hi).2 (Or.inr hold))

/-- Only a tracked thread that is among the dead loses its job to the worker. -/
theorem taken_or_dead (h : w.Books tracked bound) (ht : w.workerTake i = some w')
    (hmem : .forget t ∈ w'.taken) : .forget t ∈ w.taken ∨ t ∈ w.dead ∧ t ∈ tracked := by
  obtain ⟨u, dead, hi, hd, rfl⟩ := workerTake_eq_some ht
  rcases (mem_taken_set hi).1 hmem with hjob | hold
  · obtain ⟨js, hjs, hjob⟩ := (mem_getD _).1 hjob
    obtain ⟨rfl, hmem, -⟩ := h.waits u js hjs
    cases List.mem_singleton.1 hjob
    exact Or.inr ⟨by simp [hd], hmem⟩
  · exact Or.inl hold

theorem workerRun (h : w.Books tracked bound) {job : Job}
    (hr : w.workerRun i = some (job, w')) :
    ∃ t, job = .forget t ∧ w'.Books (tracked.erase t) bound := by
  have htidy := h.tidy.workerRun hr
  obtain ⟨htaken, -⟩ := taken_workerRun hr
  obtain ⟨t, rfl, -⟩ := h.taken job (htaken.mem_iff.2 List.mem_cons_self)
  have hold : ∀ {job}, job ∈ w'.taken → job ∈ w.taken :=
    fun hjob => htaken.mem_iff.2 (List.mem_cons_of_mem _ hjob)
  have hforget : .forget t ∈ w.taken := htaken.mem_iff.2 List.mem_cons_self
  refine ⟨t, rfl, htidy, ?waits, fun job hjob => h.taken job (hold hjob), ?dead, ?tracked⟩
  all_goals obtain ⟨js, -, rfl⟩ := workerRun_eq_some hr
  case waits =>
    intro u js hjs
    obtain ⟨h₁, h₂, h₃, h₄⟩ := h.waits u js hjs
    refine ⟨h₁, ExtTreeSet.mem_erase.2 ⟨fun he => ?_, h₂⟩, fun hmem => h₃ (hold hmem), h₄⟩
    rw [Nat.compare_eq_eq.1 he] at hforget
    exact h₃ hforget
  case dead => exact h.dead
  case tracked =>
    intro u hu
    obtain ⟨hne, hu⟩ := ExtTreeSet.mem_erase.1 hu
    refine (h.tracked u hu).imp_right fun hmem => ?_
    rcases List.mem_cons.1 (htaken.mem_iff.1 hmem) with he | hmem
    · cases he
      simp at hne
    · exact hmem

theorem workerExit (h : w.Books tracked bound) (he : w.workerExit i = some w') :
    w'.Books tracked bound := by
  have htidy := h.tidy.workerExit he
  obtain ⟨htaken, -⟩ := taken_workerExit he
  obtain ⟨-, -, -, rfl⟩ := workerExit_eq_some he
  refine ⟨htidy, fun t js hjs => ?_, fun job hjob => h.taken job (htaken.mem_iff.2 hjob), h.dead,
    fun t ht => (h.tracked t ht).imp_right htaken.mem_iff.1⟩
  obtain ⟨h₁, h₂, h₃, h₄⟩ := h.waits t js hjs
  exact ⟨h₁, h₂, fun hmem => h₃ (htaken.mem_iff.2 hmem), h₄⟩

end Books

/-- The jobs of the watcher only record labels. -/
def Records (w : Watcher Job) : Prop :=
  w.Tidy ∧ ∀ job ∈ w.taken ++ w.pending, ∃ label panics, job = .record label panics

namespace Records

theorem new : ({} : Watcher Job).Records := ⟨.new, by simp [taken, pending, allListed]⟩

theorem watch (h : w.Records) (t : ThreadId) (label : String) (panics : Bool) :
    (w.watch t (.record label panics)).Records := by
  refine ⟨h.1.watch t _, fun job hjob => ?_⟩
  rw [taken_watch, List.mem_append, (pending_watch w t _).mem_iff, List.mem_cons] at hjob
  rcases hjob with hjob | rfl | hjob
  · exact h.2 job (List.mem_append_left _ hjob)
  · exact ⟨label, panics, rfl⟩
  · exact h.2 job (List.mem_append_right _ hjob)

theorem unwatch (h : w.Records) (t : ThreadId) : (w.unwatch t).Records := by
  refine ⟨h.1.unwatch t, fun job hjob => h.2 job ?_⟩
  rw [List.mem_append, (pending_unwatch w t).mem_iff, List.mem_append]
  rcases List.mem_append.1 hjob with hjob | hjob
  · exact Or.inl hjob
  · exact Or.inr (Or.inr hjob)

theorem reportDeath (h : w.Records) (t : ThreadId) : (w.reportDeath t).Records :=
  ⟨h.1.reportDeath t, by simpa using h.2⟩

theorem workerTake (h : w.Records) (ht : w.workerTake i = some w') : w'.Records :=
  ⟨h.1.workerTake ht, fun job hjob => h.2 job ((taken_workerTake ht).mem_iff.1 hjob)⟩

theorem workerRun (h : w.Records) {job : Job} (hr : w.workerRun i = some (job, w')) :
    (∃ label panics, job = .record label panics) ∧ w'.Records := by
  obtain ⟨htaken, hpending⟩ := taken_workerRun hr
  have hmem : ∀ {k}, k = job ∨ k ∈ w'.taken ++ w'.pending → k ∈ w.taken ++ w.pending := by
    intro k hk
    rw [List.mem_append, htaken.mem_iff, List.mem_cons, ← hpending]
    rw [List.mem_append] at hk
    tauto
  exact ⟨h.2 job (hmem (Or.inl rfl)), h.1.workerRun hr, fun k hk => h.2 k (hmem (Or.inr hk))⟩

theorem workerExit (h : w.Records) (he : w.workerExit i = some w') : w'.Records := by
  obtain ⟨htaken, hpending⟩ := taken_workerExit he
  refine ⟨h.1.workerExit he, fun job hjob => h.2 job ?_⟩
  rwa [List.mem_append, htaken.mem_iff, ← hpending, ← List.mem_append]

end Records

end Watcher

/-! ## The process -/

namespace Process

variable {p p' p'' q q' : Process} {t : ThreadId}

theorem watcher_updateWatcher (p : Process) (i k : Nat) (f : Watcher Job → Watcher Job) :
    (p.updateWatcher i f).watcher k =
      if i = k ∧ k < p.watchers.size then f (p.watcher k) else p.watcher k := by
  unfold watcher updateWatcher
  simp only [Array.getD_eq_getD_getElem?, Array.getElem?_modify]
  by_cases hi : i = k
  · by_cases hk : k < p.watchers.size
    · simp [hi, hk]
    · simp [hi, hk]
  · simp [hi]

theorem watcher_updateWatcher_of_ne {i k : Nat} (h : i ≠ k) (f : Watcher Job → Watcher Job) :
    (p.updateWatcher i f).watcher k = p.watcher k := by
  rw [watcher_updateWatcher, if_neg fun hik => h hik.1]

theorem watcher_of_size_le {i : Nat} (h : p.watchers.size ≤ i) : p.watcher i = {} := by
  unfold watcher
  simp [Array.getD_eq_getD_getElem?, h]

theorem watcher_updateWatcher_self {i : Nat} (h : i < p.watchers.size)
    (f : Watcher Job → Watcher Job) : (p.updateWatcher i f).watcher i = f (p.watcher i) := by
  rw [watcher_updateWatcher, if_pos ⟨rfl, h⟩]

/-- The thread's death was not reported to the death watch, and its job was not taken. -/
def Calm (p : Process) (t : ThreadId) : Prop :=
  t ∉ (p.watcher deathWatcher).dead ∧ .forget t ∉ (p.watcher deathWatcher).taken

/-- The books of the death watch agree, it is on, and it is left alone. -/
structure Vigilant (p : Process) : Prop where
  watchers : deathWatcher < p.watchers.size
  books : (p.watcher deathWatcher).Books p.tracked p.nextThread
  others : ∀ i, i ≠ deathWatcher → (p.watcher i).Records
  names : ∀ name, p.watcherNames.lookup name = some deathWatcher → name = globalName
  deathWatch : p.inEffect.deathWatch = true
  callbacks : ∀ (slot : Nat) (v : Variable), p.bySlot[slot]? = some v → v.Only Command.LeavesWatch

/-- A thread that has not died is left alone and stays tracked. One that is not tracked stays so, and
the worker takes no job of it. -/
structure Spares (p : Process) (t : ThreadId) (p' : Process) : Prop where
  calm : p.Calm t → p'.Calm t
  tracked : p.Calm t → t ∈ p.tracked → t ∈ p'.tracked
  untracked : t ∉ p.tracked → t ∉ p'.tracked
  taken : t ∉ p.tracked → .forget t ∈ (p'.watcher deathWatcher).taken →
    .forget t ∈ (p.watcher deathWatcher).taken
  bound : p.nextThread ≤ p'.nextThread
  count : p.tally.threadsWatched ≤ p'.tally.threadsWatched

theorem Spares.refl (p : Process) (t : ThreadId) : p.Spares t p :=
  ⟨id, fun _ => id, id, fun _ => id, Nat.le_refl _, Nat.le_refl _⟩

theorem Spares.trans (h : p.Spares t p') (h' : p'.Spares t p'') : p.Spares t p'' :=
  ⟨fun hc => h'.calm (h.calm hc), fun hc ht => h'.tracked (h.calm hc) (h.tracked hc ht),
    fun ht => h'.untracked (h.untracked ht),
    fun ht hjob => h.taken ht (h'.taken (h.untracked ht) hjob), Nat.le_trans h.bound h'.bound,
    Nat.le_trans h.count h'.count⟩

/-- Nothing that the death watch depends on has changed. -/
structure Beside (p p' : Process) : Prop where
  watchers : p'.watchers = p.watchers
  tracked : p'.tracked = p.tracked
  names : p'.watcherNames = p.watcherNames
  deathWatch : p'.inEffect.deathWatch = p.inEffect.deathWatch
  callbacks : p'.bySlot = p.bySlot
  bound : p'.nextThread = p.nextThread
  count : p.tally.threadsWatched ≤ p'.tally.threadsWatched

namespace Beside

theorem of_eq (h : (p'.watchers, p'.tracked, p'.watcherNames, p'.inEffect.deathWatch, p'.bySlot,
    p'.nextThread, p'.tally.threadsWatched) = (p.watchers, p.tracked, p.watcherNames,
    p.inEffect.deathWatch, p.bySlot, p.nextThread, p.tally.threadsWatched)) : p.Beside p' := by
  simp only [Prod.mk.injEq] at h
  obtain ⟨h₁, h₂, h₃, h₄, h₅, h₆, h₇⟩ := h
  exact ⟨h₁, h₂, h₃, h₄, h₅, h₆, Nat.le_of_eq h₇.symm⟩

theorem watcher (h : p.Beside p') (i : Nat) : p'.watcher i = p.watcher i := by
  unfold Process.watcher
  rw [h.watchers]

theorem trans (h : p.Beside p') (h' : p'.Beside p'') : p.Beside p'' :=
  ⟨h'.watchers.trans h.watchers, h'.tracked.trans h.tracked, h'.names.trans h.names,
    h'.deathWatch.trans h.deathWatch, h'.callbacks.trans h.callbacks, h'.bound.trans h.bound,
    Nat.le_trans h.count h'.count⟩

theorem vigilant (h : p.Beside p') (hp : p.Vigilant) : p'.Vigilant where
  watchers := by rw [h.watchers]; exact hp.watchers
  books := by rw [h.watcher, h.tracked, h.bound]; exact hp.books
  others i hi := by rw [h.watcher]; exact hp.others i hi
  names := by rw [h.names]; exact hp.names
  deathWatch := by rw [h.deathWatch]; exact hp.deathWatch
  callbacks := by rw [h.callbacks]; exact hp.callbacks

theorem spares (h : p.Beside p') (t : ThreadId) : p.Spares t p' where
  calm hc := by
    unfold Calm at *
    rwa [h.watcher]
  tracked _ ht := by rwa [h.tracked]
  untracked ht := by rwa [h.tracked]
  taken _ hjob := by rwa [h.watcher] at hjob
  bound := Nat.le_of_eq h.bound.symm
  count := h.count

end Beside

theorem beside_count (p : Process) (c : Counter) : p.Beside (p.count c) := by
  refine ⟨rfl, rfl, rfl, rfl, rfl, rfl, ?_⟩
  cases c <;> simp [count, Tally.increment, Tally.add]

/-! ### The sections of threads -/

theorem Vigilant.updateOther (h : p.Vigilant) {i : Nat} (hi : i ≠ deathWatcher)
    {f : Watcher Job → Watcher Job} (hf : ∀ w, w.Records → (f w).Records) :
    (p.updateWatcher i f).Vigilant ∧ ∀ t, p.Spares t (p.updateWatcher i f) := by
  have hwatcher := p.watcher_updateWatcher_of_ne hi f
  refine ⟨⟨?_, ?_, fun k hk => ?_, h.names, h.deathWatch, h.callbacks⟩, fun t =>
    ⟨?_, fun _ => id, id, fun _ hjob => by rwa [hwatcher] at hjob, Nat.le_refl _, Nat.le_refl _⟩⟩
  · simpa [updateWatcher] using h.watchers
  · rw [hwatcher]
    exact h.books
  · rw [watcher_updateWatcher]
    split
    · exact hf _ (h.others k hk)
    · exact h.others k hk
  · intro hc
    unfold Calm
    rwa [hwatcher]

/-- A change of the death watch's watcher and of the tracked threads. -/
theorem Vigilant.updateBooks (h : p.Vigilant) {tracked : ExtTreeSet ThreadId}
    {f : Watcher Job → Watcher Job}
    (hbooks : (f (p.watcher deathWatcher)).Books tracked p.nextThread) :
    ({ p with tracked := tracked }.updateWatcher deathWatcher f).Vigilant where
  watchers := by simpa [updateWatcher] using h.watchers
  books := by
    have hself := watcher_updateWatcher_self (p := { p with tracked := tracked }) h.watchers f
    rw [hself]
    exact hbooks
  others i hi := by
    rw [watcher_updateWatcher_of_ne (Ne.symm hi)]
    exact h.others i hi
  names := h.names
  deathWatch := h.deathWatch
  callbacks := h.callbacks

/-- A thread is tracked and watched. -/
def enlist (p : Process) (t : ThreadId) : Process :=
  { p with tracked := p.tracked.insert t }.updateWatcher deathWatcher (·.watch t (.forget t))

/-- A thread is neither tracked nor watched any more. -/
def delist (p : Process) (t : ThreadId) : Process :=
  { p with tracked := p.tracked.erase t }.updateWatcher deathWatcher (·.unwatch t)

theorem Vigilant.enlist (h : p.Vigilant) (ht : t ∉ p.tracked) (hb : t < p.nextThread)
    (hc : p.Calm t) : (p.enlist t).Vigilant :=
  h.updateBooks (h.books.watch ht hb hc.2)

theorem Vigilant.delist (h : p.Vigilant) (t : ThreadId) : (p.delist t).Vigilant :=
  h.updateBooks (h.books.unwatch t)

theorem Vigilant.watcher_enlist (h : p.Vigilant) (t : ThreadId) :
    (p.enlist t).watcher deathWatcher = (p.watcher deathWatcher).watch t (.forget t) :=
  watcher_updateWatcher_self (p := { p with tracked := p.tracked.insert t }) h.watchers _

theorem Vigilant.watcher_delist (h : p.Vigilant) (t : ThreadId) :
    (p.delist t).watcher deathWatcher = (p.watcher deathWatcher).unwatch t :=
  watcher_updateWatcher_self (p := { p with tracked := p.tracked.erase t }) h.watchers _

theorem Vigilant.calm_enlist (h : p.Vigilant) {u : ThreadId} (hc : p.Calm u) :
    (p.enlist t).Calm u := by
  unfold Calm
  rw [h.watcher_enlist, Watcher.taken_watch]
  exact hc

theorem Vigilant.spares_enlist (h : p.Vigilant) {t u : ThreadId} (hu : u ≠ t) :
    p.Spares u (p.enlist t) where
  calm := h.calm_enlist
  tracked _ hmem := ExtTreeSet.mem_insert.2 (Or.inr hmem)
  untracked hmem hnew := by
    rcases ExtTreeSet.mem_insert.1 hnew with he | hold
    · exact hu (Nat.compare_eq_eq.1 he).symm
    · exact hmem hold
  taken _ hjob := by rwa [h.watcher_enlist, Watcher.taken_watch] at hjob
  bound := Nat.le_refl _
  count := Nat.le_refl _

theorem Vigilant.calm_delist (h : p.Vigilant) {u : ThreadId} (hc : p.Calm u) :
    (p.delist t).Calm u := by
  unfold Calm
  rw [h.watcher_delist]
  exact hc

theorem Vigilant.spares_delist (h : p.Vigilant) {t u : ThreadId} (hu : u ≠ t) :
    p.Spares u (p.delist t) where
  calm := h.calm_delist
  tracked _ hmem := ExtTreeSet.mem_erase.2 ⟨by simpa using Ne.symm hu, hmem⟩
  untracked hmem hnew := hmem (ExtTreeSet.mem_of_mem_erase hnew)
  taken _ hjob := by
    rw [h.watcher_delist] at hjob
    exact hjob
  bound := Nat.le_refl _
  count := Nat.le_refl _

/-- A death changes the watchers alone. -/
theorem reportDeath_eq (p : Process) (t : ThreadId) (s : Sentinel) :
    p.reportDeath t s = { p with watchers := (p.reportDeath t s).watchers } := by
  cases s with
  | absent => rfl
  | destroyed => rfl
  | installed since watchers =>
    unfold Process.reportDeath
    induction watchers generalizing p with
    | nil => rfl
    | cons i watchers ih => exact ih _

/-- The death of a thread that is not tracked leaves that thread alone too. -/
theorem Vigilant.reportDeath (h : p.Vigilant) (ht : t < p.nextThread) (s : Sentinel) :
    (p.reportDeath t s).Vigilant ∧
      ∀ u, (u ≠ t ∨ t ∉ p.tracked) → p.Spares u (p.reportDeath t s) := by
  cases s with
  | absent => exact ⟨h, fun u _ => .refl p u⟩
  | destroyed => exact ⟨h, fun u _ => .refl p u⟩
  | installed since watchers =>
    induction watchers generalizing p with
    | nil => exact ⟨h, fun u _ => .refl p u⟩
    | cons i watchers ih =>
      have hstep : (p.updateWatcher i (·.reportDeath t)).Vigilant ∧
          ∀ u, (u ≠ t ∨ t ∉ p.tracked) → p.Spares u (p.updateWatcher i (·.reportDeath t)) := by
        by_cases hi : i = deathWatcher
        · subst hi
          have hself := watcher_updateWatcher_self h.watchers (·.reportDeath t)
          refine ⟨h.updateBooks (h.books.reportDeath ht), fun u hu => ⟨fun hc => ?_, fun _ => id, id,
            fun _ hjob => ?_, Nat.le_refl _, Nat.le_refl _⟩⟩
          · unfold Calm
            rw [hself, Watcher.taken_reportDeath]
            refine ⟨fun hmem => ?_, hc.2⟩
            rcases Watcher.mem_dead_reportDeath.1 hmem with hmem | ⟨he, hwatched⟩
            · exact hc.1 hmem
            · have hnone := h.books.watched_eq_none (hu.resolve_left fun hne => hne he)
              rw [ExtTreeMap.mem_iff_isSome_getElem?, hnone] at hwatched
              cases hwatched
          · rwa [hself, Watcher.taken_reportDeath] at hjob
        · obtain ⟨hv, hs⟩ := h.updateOther hi fun _ hw => hw.reportDeath t
          exact ⟨hv, fun u _ => hs u⟩
      obtain ⟨hv, hs⟩ := ih hstep.1 ht
      exact ⟨hv, fun u hu => (hstep.2 u hu).trans (hs u hu)⟩

/-! ### The sections of workers -/

/-- A worker of one of the watchers takes the jobs of a dead thread, runs a job, or leaves. -/
inductive WorkerStep : Process → Process → Prop where
  | take {p : Process} (k i : Nat) {w : Watcher Job} (h : (p.watcher k).workerTake i = some w) :
    WorkerStep p (p.updateWatcher k fun _ => w)
  | run {p : Process} (k i : Nat) {job : Job} {w : Watcher Job}
    (h : (p.watcher k).workerRun i = some (job, w)) :
    WorkerStep p ((p.updateWatcher k fun _ => w).runJob job)
  | exit {p : Process} (k i : Nat) {w : Watcher Job} (h : (p.watcher k).workerExit i = some w) :
    WorkerStep p (p.updateWatcher k fun _ => w)

/-- The workers take any number of steps. -/
inductive WorkerSteps : Process → Process → Prop where
  | refl (p : Process) : WorkerSteps p p
  | step {p p' p'' : Process} (h : WorkerStep p p') (rest : WorkerSteps p' p'') : WorkerSteps p p''

theorem WorkerSteps.trans (h : p.WorkerSteps p') (h' : p'.WorkerSteps p'') : p.WorkerSteps p'' := by
  induction h with
  | refl => exact h'
  | step hs _ ih => exact .step hs (ih h')

theorem Vigilant.take (h : p.Vigilant) {k i : Nat} {w : Watcher Job}
    (ht : (p.watcher k).workerTake i = some w) :
    (p.updateWatcher k fun _ => w).Vigilant ∧ ∀ t, p.Spares t (p.updateWatcher k fun _ => w) := by
  by_cases hk : k = deathWatcher
  · subst hk
    have hself := watcher_updateWatcher_self h.watchers fun _ => w
    refine ⟨h.updateBooks (h.books.workerTake ht), fun t => ⟨fun hc => ?_, fun _ => id, id,
      fun hu hjob => ?_, Nat.le_refl _, Nat.le_refl _⟩⟩
    · unfold Calm
      rw [hself]
      refine ⟨fun hmem => hc.1 ?_, fun hmem => ?_⟩
      · obtain ⟨u, dead, -, hd, rfl⟩ := Watcher.workerTake_eq_some ht
        rw [hd]
        exact List.mem_cons_of_mem _ hmem
      · exact (h.books.taken_or_dead ht hmem).elim hc.2 fun hdead => hc.1 hdead.1
    · rw [hself] at hjob
      exact (h.books.taken_or_dead ht hjob).resolve_right fun hdead => hu hdead.2
  · have hw := (h.others k hk).workerTake ht
    exact h.updateOther hk fun _ _ => hw

theorem Vigilant.run (h : p.Vigilant) {k i : Nat} {job : Job} {w : Watcher Job}
    (hr : (p.watcher k).workerRun i = some (job, w)) :
    ((p.updateWatcher k fun _ => w).runJob job).Vigilant ∧
      ∀ t, p.Spares t ((p.updateWatcher k fun _ => w).runJob job) := by
  by_cases hk : k = deathWatcher
  · subst hk
    obtain ⟨u, rfl, hbooks⟩ := h.books.workerRun hr
    have hbeside : ({ p with tracked := p.tracked.erase u }.updateWatcher deathWatcher
        fun _ => w).Beside ((p.updateWatcher deathWatcher fun _ => w).runJob (.forget u)) :=
      .of_eq rfl
    have hwatcher := watcher_updateWatcher_self h.watchers fun _ => w
    have htaken : ∀ t : ThreadId, .forget t ∈ ((p.updateWatcher deathWatcher fun _ => w).watcher
        deathWatcher).taken → .forget t ∈ (p.watcher deathWatcher).taken := by
      intro t hmem
      rw [hwatcher] at hmem
      exact (Watcher.taken_workerRun hr).1.mem_iff.2 (List.mem_cons_of_mem _ hmem)
    refine ⟨hbeside.vigilant (h.updateBooks hbooks), fun t => ⟨fun hc => ?_, fun hc ht => ?_,
      fun ht hmem => ht (ExtTreeSet.mem_of_mem_erase hmem), fun _ => htaken t, Nat.le_refl _,
      Nat.le_refl _⟩⟩
    · refine ⟨?_, fun hmem => hc.2 (htaken t hmem)⟩
      change t ∉ ((p.updateWatcher deathWatcher fun _ => w).watcher deathWatcher).dead
      rw [hwatcher]
      obtain ⟨js, -, rfl⟩ := Watcher.workerRun_eq_some hr
      exact hc.1
    · -- the job of a calm thread is not taken, so it is another one that is forgotten
      refine ExtTreeSet.mem_erase.2 ⟨fun he => ?_, ht⟩
      obtain rfl := Nat.compare_eq_eq.1 he
      exact hc.2 ((Watcher.taken_workerRun hr).1.mem_iff.2 List.mem_cons_self)
  · obtain ⟨⟨label, panics, rfl⟩, hw⟩ := (h.others k hk).workerRun hr
    obtain ⟨hv, hs⟩ := h.updateOther hk (f := fun _ => w) fun _ _ => hw
    have hbeside : (p.updateWatcher k fun _ => w).Beside
        ((p.updateWatcher k fun _ => w).runJob (.record label panics)) :=
      .of_eq rfl
    exact ⟨hbeside.vigilant hv, fun t => (hs t).trans (hbeside.spares t)⟩

theorem Vigilant.exit (h : p.Vigilant) {k i : Nat} {w : Watcher Job}
    (he : (p.watcher k).workerExit i = some w) :
    (p.updateWatcher k fun _ => w).Vigilant ∧ ∀ t, p.Spares t (p.updateWatcher k fun _ => w) := by
  by_cases hk : k = deathWatcher
  · subst hk
    have hself := watcher_updateWatcher_self h.watchers fun _ => w
    obtain ⟨htaken, -⟩ := Watcher.taken_workerExit he
    refine ⟨h.updateBooks (h.books.workerExit he), fun t => ⟨fun hc => ?_, fun _ => id, id,
      fun _ hjob => ?_, Nat.le_refl _, Nat.le_refl _⟩⟩
    · unfold Calm
      rw [hself]
      refine ⟨?_, fun hmem => hc.2 (htaken.mem_iff.2 hmem)⟩
      obtain ⟨-, -, -, rfl⟩ := Watcher.workerExit_eq_some he
      exact hc.1
    · rw [hself] at hjob
      exact htaken.mem_iff.2 hjob
  · have hw := (h.others k hk).workerExit he
    exact h.updateOther hk fun _ _ => hw

theorem Vigilant.workerStep (h : p.Vigilant) (hs : p.WorkerStep p') :
    p'.Vigilant ∧ ∀ t, p.Spares t p' := by
  cases hs with
  | take k i ht => exact h.take ht
  | run k i hr => exact h.run hr
  | exit k i he => exact h.exit he

/-- Workers keep the books and leave the threads alone that have not died. -/
theorem Vigilant.workerSteps (h : p.Vigilant) (hs : p.WorkerSteps p') :
    p'.Vigilant ∧ ∀ t, p.Spares t p' := by
  induction hs with
  | refl => exact ⟨h, .refl _⟩
  | step hstep _ ih =>
    obtain ⟨hv, hs⟩ := h.workerStep hstep
    obtain ⟨hv', hs'⟩ := ih hv
    exact ⟨hv', fun t => (hs t).trans (hs' t)⟩

end Process

end ThreadSlots
