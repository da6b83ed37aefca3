import ThreadSlots.Proofs.Bookkeeping
import ThreadSlots.Proofs.Walk

/-!
# A thread with live sets is tracked

While the books of the death watch agree, a thread that holds a table with a live set is tracked, as
long as it can report its death. A scene in which all that holds `Minds` the death watch. The steps
from which the operations on the thread's storage are made keep that.

A live set is made before its thread is tracked and taken out after the thread is untracked, so
between the two the scene does not mind; both are done without nested code in between.
-/

namespace ThreadSlots

open Std (ExtTreeMap ExtTreeSet)
open Storage

/-! ## Threads -/

/-- What holds of a thread whether or not its live sets are tracked. -/
structure Thread.Steady (p : Process) (t : Thread) : Prop where
  known : t.id < p.nextThread
  exclusive : t.carried? = none ∨ t.fallback? = none
  calm : t.sentinel ≠ .destroyed → p.Calm t.id
  tracks : ∀ id, (t.table id).Tracks (·.Only Command.LeavesWatch)

/-- The thread is tracked if a table that it holds has a live set. One whose sentinel was destroyed
has died as far as the death watch is concerned and need not be. -/
def Thread.Listed (p : Process) (t : Thread) : Prop :=
  t.sentinel ≠ .destroyed → ∀ id, t.Holds id → (t.table id).HasLive → t.id ∈ p.tracked

namespace Thread

variable {p p' : Process} {t : Thread}

theorem Steady.mono (h : t.Steady p) (hs : p.Spares t.id p') : t.Steady p' :=
  ⟨Nat.lt_of_lt_of_le h.known hs.bound, h.exclusive, fun hd => hs.calm (h.calm hd), h.tracks⟩

theorem Listed.mono (h : t.Listed p) (ht : t.Steady p) (hs : p.Spares t.id p') : t.Listed p' :=
  fun hd id hid hlive => hs.tracked (ht.calm hd) (h hd id hid hlive)

/-- A thread holds no table but the one that it works on. -/
theorem Steady.eq_of_holds (h : t.Steady p) {epoch : UInt64} {i id : TableId}
    (hown : t.own? epoch = some i) (hid : t.Holds id) : id = i := by
  rcases hid with hc | ⟨e, hf⟩
  · rw [own?_of_carried hc] at hown
    exact Option.some.inj hown
  · have hc : t.carried? = none := h.exclusive.resolve_right (by simp [hf])
    rw [own?_of_fallback hc, fallbackOf?, hf] at hown
    obtain ⟨f, hf', rfl⟩ := Option.map_eq_some_iff.1 hown
    obtain ⟨hf', -⟩ := Option.filter_eq_some_iff.1 hf'
    cases hf'
    rfl

end Thread

/-! ## Scenes -/

/-- The thread is tracked only if it was tracked before or has been watched since. -/
structure Process.Renews (p₀ : Process) (id : ThreadId) (p : Process) : Prop where
  count : p₀.tally.threadsWatched ≤ p.tally.threadsWatched
  tracked : id ∈ p.tracked →
    id ∈ p₀.tracked ∨ p₀.tally.threadsWatched < p.tally.threadsWatched

theorem Process.Renews.refl (p : Process) (id : ThreadId) : p.Renews id p :=
  ⟨Nat.le_refl _, Or.inl⟩

theorem Process.Renews.trans {p₀ p p' : Process} {id : ThreadId} (h : p₀.Renews id p)
    (hcount : p.tally.threadsWatched ≤ p'.tally.threadsWatched)
    (htracked : id ∈ p'.tracked → id ∈ p.tracked) : p₀.Renews id p' :=
  ⟨Nat.le_trans h.count hcount, fun ht => (h.tracked (htracked ht)).imp_right
    fun hlt => Nat.lt_of_lt_of_le hlt hcount⟩

theorem Process.Renews.spares {p₀ p p' : Process} {id : ThreadId} (h : p₀.Renews id p)
    (hs : p.Spares id p') : p₀.Renews id p' :=
  h.trans hs.count fun ht => Classical.byContradiction fun hold => hs.untracked hold ht

namespace Scene

variable {p₀ : Process} {id : ThreadId} {sc sc' : Scene}

/-- What holds of a scene while the thread may not be tracked yet. What the operation began with is
`p₀`, and the other threads have been left alone since. -/
structure Steady (p₀ : Process) (id : ThreadId) (sc : Scene) : Prop where
  process : sc.process.Vigilant
  thread : sc.thread.Steady sc.process
  same : sc.thread.id = id
  spares : ∀ t, t ≠ id → p₀.Spares t sc.process
  renews : p₀.Renews id sc.process

/-- The scene is steady and the thread is tracked if a table that it holds has a live set. -/
structure Minds (p₀ : Process) (id : ThreadId) (sc : Scene) : Prop extends Steady p₀ id sc where
  listed : sc.thread.Listed sc.process

/-- Nothing that the death watch depends on has changed. -/
structure Beside (sc sc' : Scene) : Prop where
  process : sc.process.Beside sc'.process
  id : sc'.thread.id = sc.thread.id
  tables : sc'.thread.tables = sc.thread.tables
  locals : sc'.thread.locals.seen = sc.thread.locals.seen
  sentinel : sc'.thread.sentinel = sc.thread.sentinel

theorem Beside.of_process {p : Process} (h : sc.process.Beside p) :
    sc.Beside { sc with process := p } :=
  ⟨h, rfl, rfl, rfl, rfl⟩

theorem Beside.of_events {es : List Event} {ps : List Parting} {as : List Arrival} :
    sc.Beside { sc with events := es, partings := ps, arrivals := as } :=
  ⟨.of_eq rfl, rfl, rfl, rfl, rfl⟩

namespace Steady

theorem of_spares (h : sc.Steady p₀ id) {p : Process} (hp : p.Vigilant)
    (hs : ∀ t, sc.process.Spares t p) : Steady p₀ id { sc with process := p } :=
  ⟨hp, h.thread.mono (hs _), h.same, fun t ht => (h.spares t ht).trans (hs t), h.renews.spares (hs _)⟩

theorem beside (h : sc.Steady p₀ id) (hb : sc.Beside sc') : sc'.Steady p₀ id where
  process := hb.process.vigilant h.process
  thread := by
    have ht := h.thread.mono (hb.process.spares _)
    refine ⟨by rw [hb.id]; exact ht.known, ?_, by rw [hb.sentinel, hb.id]; exact ht.calm, ?_⟩
    · rw [Thread.carried?_of_seen hb.locals, Thread.fallback?_of_seen hb.locals]
      exact ht.exclusive
    · unfold Thread.table
      rw [hb.tables]
      exact ht.tracks
  same := hb.id.trans h.same
  spares t ht := (h.spares t ht).trans (hb.process.spares t)
  renews := h.renews.spares (hb.process.spares id)

theorem setTable (h : sc.Steady p₀ id) (i : TableId) {t : SlotTable}
    (ht : t.Tracks (·.Only Command.LeavesWatch)) : (sc.setTable i t).Steady p₀ id :=
  ⟨h.process, ⟨h.thread.known, h.thread.exclusive, h.thread.calm, fun k => by
    rw [table_setTable]
    split
    · exact ht
    · exact h.thread.tracks k⟩, h.same, h.spares, h.renews⟩

theorem setLocals (h : sc.Steady p₀ id) {l : Locals}
    (hl : (sc.setLocals l).thread.carried? = none ∨ (sc.setLocals l).thread.fallback? = none) :
    (sc.setLocals l).Steady p₀ id :=
  ⟨h.process, ⟨h.thread.known, hl, h.thread.calm, h.thread.tracks⟩, h.same, h.spares, h.renews⟩

end Steady

namespace Minds

theorem of_spares (h : sc.Minds p₀ id) {p : Process} (hp : p.Vigilant)
    (hs : ∀ t, sc.process.Spares t p) : Minds p₀ id { sc with process := p } :=
  ⟨h.toSteady.of_spares hp hs, h.listed.mono h.thread (hs _)⟩

theorem beside (h : sc.Minds p₀ id) (hb : sc.Beside sc') : sc'.Minds p₀ id := by
  refine ⟨h.toSteady.beside hb, fun hd i hi hlive => ?_⟩
  unfold Thread.table at hlive
  rw [hb.sentinel] at hd
  rw [Thread.holds_of_seen hb.locals] at hi
  rw [hb.tables] at hlive
  rw [hb.id, hb.process.tracked]
  exact h.listed hd i hi hlive

/-- A table gets contents without a live set, unless it had one. -/
theorem setTable (h : sc.Minds p₀ id) {i : TableId} {t : SlotTable}
    (ht : (sc.thread.table i).Follows (·.Only Command.LeavesWatch) t) :
    (sc.setTable i t).Minds p₀ id := by
  refine ⟨h.toSteady.setTable i (ht.tracks (h.thread.tracks i)), fun hd k hk hlive => ?_⟩
  rw [table_setTable] at hlive
  split at hlive
  · next he =>
    subst he
    exact h.listed hd k hk (ht.hasLive hlive)
  · exact h.listed hd k hk hlive

/-- The thread holds other tables: some that it has held, or one without a live set. -/
theorem relocate (h : sc.Minds p₀ id) {l : Locals}
    (hl : (sc.setLocals l).thread.carried? = none ∨ (sc.setLocals l).thread.fallback? = none)
    (hheld : ∀ i, (sc.setLocals l).thread.Holds i →
      sc.thread.Holds i ∨ ¬ (sc.thread.table i).HasLive) :
    (sc.setLocals l).Minds p₀ id := by
  refine ⟨h.toSteady.setLocals hl, fun hd i hi hlive => ?_⟩
  rcases hheld i hi with hold | hblank
  · exact h.listed hd i hold hlive
  · exact absurd hlive hblank

/-- The thread gives up tables that it holds. -/
theorem giveUp (h : sc.Minds p₀ id) {l : Locals}
    (hcarried : (sc.setLocals l).thread.carried? = none ∨
      (sc.setLocals l).thread.carried? = sc.thread.carried?)
    (hfallback : (sc.setLocals l).thread.fallback? = none ∨
      (sc.setLocals l).thread.fallback? = sc.thread.fallback?) :
    (sc.setLocals l).Minds p₀ id := by
  have hexclusive := h.thread.exclusive
  refine h.relocate ?_ fun i hi => .inl (holds_of_giveUp hcarried hfallback hi)
  grind

/-! ### The thread's own table -/

theorem not_hasLive_blankTable (sc : Scene) : ¬ sc.blankTable.HasLive :=
  Table.not_hasLive_of_none (Table.get?_mk _ _)

theorem makeTable (h : sc.Minds p₀ id) (policy : SentinelPolicy) :
    (sc.makeTable { policy := policy }).Minds p₀ id :=
  (h.setTable (i := sc.thread.nextTable) (.blank policy)).beside
    ⟨.of_eq rfl, rfl, rfl, rfl, rfl⟩

theorem makeBlank (h : sc.Minds p₀ id) : sc.makeBlank.Minds p₀ id :=
  (h.makeTable _).beside ⟨.of_eq rfl, rfl, rfl, rfl, rfl⟩

theorem not_hasLive_makeBlank (sc : Scene) :
    ¬ (sc.makeBlank.thread.table sc.thread.nextTable).HasLive := by
  rw [sc.like_makeBlank.symm.thread_table, table_makeTable, if_pos rfl]
  exact not_hasLive_blankTable sc

theorem reached (h : sc.Minds p₀ id) : sc.reached.Minds p₀ id :=
  h.beside ⟨.of_eq rfl, rfl, rfl, sc.thread.locals.seen_reached, rfl⟩

theorem dropFallback (h : sc.Minds p₀ id) : sc.dropFallback.Minds p₀ id :=
  h.giveUp (.inr sc.carried?_dropFallback) (.inl sc.fallback?_dropFallback)

theorem carried? (h : sc.Minds p₀ id) : (runOn Storage.carried? sc).2.Minds p₀ id := by
  rw [runOn_carried?]
  exact h.beside ⟨.of_eq rfl, rfl, rfl, sc.thread.locals.seen_useCarried, rfl⟩

theorem current? (h : sc.Minds p₀ id) : (runOn Storage.current? sc).2.Minds p₀ id := by
  rw [runOn_current?]
  dsimp only
  split
  · exact h.reached
  · exact h.dropFallback

/-- A thread without a table of its own gets one. -/
theorem current (h : sc.Minds p₀ id) : (runOn Storage.current sc).2.Minds p₀ id := by
  rw [runOn_current]
  cases ho : sc.own? with
  | some i => exact h.reached
  | none =>
    have hc : sc.makeBlank.thread.carried? = none := carried?_eq_none ho
    refine h.makeBlank.relocate (.inl ((carried?_keep _ _).trans hc)) fun i hi => .inr ?_
    rw [eq_of_holds_keep hc hi]
    exact not_hasLive_makeBlank sc

theorem adopt (h : sc.Minds p₀ id) : (runOn Storage.adopt sc).2.Minds p₀ id := by
  rw [runOn_adopt]
  cases hc : sc.thread.carried? with
  | some i => exact h
  | none =>
    cases ho : sc.own? with
    | some i =>
      refine h.relocate (.inr (sc.fallback?_carry i)) fun k hk => .inl ?_
      rw [eq_of_holds_carry hk]
      exact Thread.holds_of_own? ho
    | none =>
      refine h.makeBlank.relocate (.inr (fallback?_carry _ _)) fun k hk => .inr ?_
      rw [eq_of_holds_carry hk]
      exact not_hasLive_makeBlank sc

theorem release (h : sc.Minds p₀ id) : (runOn Storage.release sc).2.Minds p₀ id := by
  rw [runOn_release]
  exact h.giveUp (.inl sc.carried?_released) (.inr sc.fallback?_released)

theorem discard (h : sc.Minds p₀ id) : (runOn Storage.discard sc).2.Minds p₀ id := by
  rw [runOn_discard]
  cases hc : sc.thread.carried? with
  | none => exact h.dropFallback
  | some i =>
    exact (h.setTable (i := i) (.blank _)).beside
      ⟨.of_eq rfl, rfl, rfl, rfl, rfl⟩

/-! ### Tracking -/

end Minds

theorem Steady.trackThread (h : sc.Steady p₀ id) : (runOn Storage.trackThread sc).2.Minds p₀ id := by
  unfold Storage.trackThread
  rw [runOn_bind, runOn_thread]
  simp only [runOn_bind, runOn_process, runOn_ite, runOn_pure]
  cases ht : sc.process.tracked.contains sc.thread.id with
  | true =>
    have hmem : sc.thread.id ∈ sc.process.tracked := ExtTreeSet.contains_iff_mem.1 ht
    exact ⟨h, fun _ _ _ _ => hmem⟩
  | false =>
    have hmem : sc.thread.id ∉ sc.process.tracked := fun hm => by
      rw [ExtTreeSet.contains_iff_mem.2 hm] at ht
      cases ht
    simp only [Bool.not_false, if_true, runOn_modifyProcess, runOn_count]
    by_cases hd : sc.thread.sentinel = .destroyed
    · -- The thread cannot be watched any more: its job is done at once, which undoes the tracking.
      rw [runOn_watch_destroyed (by exact hd)]
      have hbooks : (sc.process.tracked.insert sc.thread.id).erase sc.thread.id =
          sc.process.tracked := by
        apply ExtTreeSet.ext_mem
        intro u
        rw [ExtTreeSet.mem_erase, ExtTreeSet.mem_insert]
        constructor
        · rintro ⟨hne, he | hu⟩
          · exact absurd he hne
          · exact hu
        · intro hu
          exact ⟨fun he => hmem (Nat.compare_eq_eq.1 he ▸ hu), Or.inr hu⟩
      refine ⟨h.beside ⟨⟨rfl, hbooks, rfl, rfl, rfl, rfl, Nat.le_succ _⟩, rfl, rfl, rfl, rfl⟩,
        fun halive => absurd hd halive⟩
    · rw [runOn_watch (by exact hd)]
      have henlist := h.process.enlist hmem h.thread.known (h.thread.calm hd)
      have hbeside : (sc.process.enlist sc.thread.id).Beside
          (({ sc.process with tracked := sc.process.tracked.insert sc.thread.id }.count
            .threadsWatched).updateWatcher deathWatcher
              (·.watch sc.thread.id (.forget sc.thread.id))) :=
        ⟨rfl, rfl, rfl, rfl, rfl, rfl, Nat.le_succ _⟩
      have hspares : ∀ t, t ≠ id → sc.process.Spares t _ := fun t ht =>
        (h.process.spares_enlist (by rw [h.same]; exact ht)).trans (hbeside.spares t)
      have hcalm := (hbeside.spares _).calm (h.process.calm_enlist (h.thread.calm hd))
      refine ⟨⟨hbeside.vigilant henlist, ⟨h.thread.known, h.thread.exclusive, fun _ => hcalm,
        h.thread.tracks⟩, h.same, fun t ht => (h.spares t ht).trans (hspares t ht), ?_⟩,
        fun _ _ _ _ => ?_⟩
      · have hlt := Nat.lt_succ_of_le h.renews.count
        exact ⟨Nat.le_of_lt hlt, fun _ => Or.inr hlt⟩
      · exact ExtTreeSet.mem_insert_self

theorem Steady.unwatched (h : sc.Steady p₀ id) :
    sc.unwatched.Steady p₀ id ∧ sc.unwatched.thread = sc.thread := by
  have hsettled : Steady p₀ id { sc with process := sc.process.settled } :=
    h.beside (.of_process (.of_eq rfl))
  unfold Scene.unwatched Storage.untrackThread
  rw [h.process.deathWatch]
  simp only [if_true, runOn_bind, runOn_thread, runOn_process, runOn_ite, runOn_modifyProcess,
    runOn_pure]
  split
  · refine ⟨⟨hsettled.process.delist _, ?_, h.same, fun t ht => ?_, ?_⟩, rfl⟩
    · exact ⟨hsettled.thread.known, h.thread.exclusive, fun hd =>
        hsettled.process.calm_delist (hsettled.thread.calm hd), h.thread.tracks⟩
    · exact (hsettled.spares t ht).trans (hsettled.process.spares_delist (by rw [h.same]; exact ht))
    · exact hsettled.renews.trans (Nat.le_refl _) ExtTreeSet.mem_of_mem_erase
  · exact ⟨hsettled, rfl⟩

/-- A thread that holds no table with a live set need not be tracked. -/
theorem Steady.minds (h : sc.Steady p₀ id)
    (hheld : ∀ i, sc.thread.Holds i → ¬ (sc.thread.table i).HasLive) : sc.Minds p₀ id :=
  ⟨h, fun _ i hi hlive => absurd hlive (hheld i hi)⟩

/-- A clearing begins: the thread is untracked and loses its live set. -/
theorem Minds.detached (h : sc.Minds p₀ id) {i : TableId} (ho : sc.own? = some i) :
    (sc.detached i).Minds p₀ id := by
  obtain ⟨hsteady, hthread⟩ := h.toSteady.unwatched
  unfold Scene.detached
  have htracks : ((sc.thread.table i).erase reservedSlot).table.Tracks
      (·.Only Command.LeavesWatch) :=
    (Table.Follows.erase reservedSlot).tracks (h.thread.tracks i)
  have hreached : sc.unwatched.reached.Steady p₀ id :=
    hsteady.beside ⟨.of_eq rfl, rfl, rfl, sc.unwatched.thread.locals.seen_reached, rfl⟩
  -- the table that is cleared is the only one that the thread holds
  refine (hreached.setTable i htracks).minds fun k hk => ?_
  have hki : k = i := by
    have hheld : sc.unwatched.thread.Holds k :=
      (Thread.holds_of_seen sc.unwatched.thread.locals.seen_reached k).1 hk
    rw [hthread] at hheld
    exact h.thread.eq_of_holds ho hheld
  subst hki
  rw [table_setTable_self]
  apply Table.not_hasLive_of_none
  rw [Table.get?_erase, if_pos rfl]

/-- A thread without a table of its own is untracked; then it holds none. -/
theorem Minds.unwatched (h : sc.Minds p₀ id) (ho : sc.own? = none) :
    sc.unwatched.dropFallback.Minds p₀ id := by
  obtain ⟨hsteady, hthread⟩ := h.toSteady.unwatched
  have hdropped : sc.unwatched.dropFallback.Steady p₀ id :=
    hsteady.setLocals (.inr sc.unwatched.fallback?_dropFallback)
  refine hdropped.minds fun i hi => absurd hi (Thread.not_holds ?_ ?_ i)
  · rw [carried?_dropFallback, hthread]
    exact carried?_eq_none ho
  · exact sc.unwatched.fallback?_dropFallback

/-- A table without a live set gets one, unless it cannot grow to hold it. -/
theorem Steady.storeLiveSet (h : sc.Steady p₀ id) (i : TableId) :
    (∃ stop, runOn (store i reservedSlot (.liveSet ∅)) sc = (.error stop, sc)) ∨
      ∃ stored s, runOn (store i reservedSlot (.liveSet ∅)) sc = (.ok stored, s) ∧
        s.Steady p₀ id := by
  rcases hi : (sc.thread.table i).insert reservedSlot (.liveSet ∅) with e | stored
  · exact Or.inl ⟨_, runOn_store_error sc hi⟩
  · have htracks : stored.table.Tracks (·.Only Command.LeavesWatch) := .of_insert hi
    have hcounted : Steady p₀ id { sc with process := sc.process.count .tableExpansions } :=
      h.beside (.of_process (.of_eq rfl))
    right
    unfold Storage.store
    rw [runOn_bind, runOn_write sc fun t => t.set_eq reservedSlot _, hi]
    simp only [runOn_bind, runOn_pure, runOn_arrive]
    split
    · exact ⟨_, _, rfl, hcounted.setTable i htracks⟩
    · exact ⟨_, _, rfl, h.setTable i htracks⟩

theorem Minds.ensureLiveSet (h : sc.Minds p₀ id) (i : TableId) :
    (runOn (ThreadSlots.ensureLiveSet i) sc).2.Minds p₀ id := by
  unfold ThreadSlots.ensureLiveSet
  rw [runOn_bind, runOn_liveSet?]
  simp only [runOn_ite, runOn_pure]
  split
  · rw [runOn_bind]
    rcases h.toSteady.storeLiveSet i with ⟨stop, hrun⟩ | ⟨stored, s, hrun, hs⟩
    · rw [hrun]
      exact h
    · rw [hrun]
      simp only [runOn_bind, runOn_settings, hs.process.deathWatch, if_true]
      have hsettled : Steady p₀ id { s with process := s.process.settled } :=
        hs.beside (.of_process (.of_eq rfl))
      exact hsettled.trackThread
  · exact h

end Scene

end ThreadSlots
