import ThreadSlots.Proofs.Course

/-!
# Storing entries

An entry is a value or the unset sentinel. Storing one agrees with setting the value, and under the
lenient policy with removing the variable, in every state of the table: also in one whose live set and
slots disagree, as hooks see it that run inside a clearing (`storeIn_eq`).
-/

namespace ThreadSlots

namespace Storage

variable (sc : Scene) (enter : Enter)

/-- A value is stored as it is set. The check whether the variable is set, which only the sentinel
needs, finds it set and changes nothing. -/
theorem runOn_storeIn_some (v : Variable) (id : TableId) (value : Value) :
    runOn (v.storeIn enter id (some value)) sc = runOn (v.setIn id value) sc := by
  cases h : (sc.thread.table id).insert v.slot (.value value) with
  | error e =>
    rw [runOn_storeIn_error sc enter h, Variable.setIn, runOn_bind, runOn_putIn_error sc h]
  | ok stored =>
    have hentry : storeEntry id v.slot ((some value).map .value) = store id v.slot (.value value) := rfl
    obtain ⟨sc₁, hstore, hlike⟩ := ends_store sc h
    unfold Variable.storeIn Variable.setIn Variable.putIn
    rw [hentry]
    simp only [runOn_bind, hstore, Option.isSome_some, if_true, runOn_partFrom]
    generalize hparted : sc₁.parted id v.slot .overwritten stored.previous = sc₂
    cases hnew : stored.newlySet with
    | true =>
      simp only [if_true, runOn_bind]
      generalize runOn (v.track id) sc₂ = tracked
      rcases tracked with ⟨_ | _, _⟩ <;> rfl
    | false =>
      have htable : sc₂.thread.table id = stored.table := by
        rw [← hparted]
        exact (hlike.thread_table id).trans (sc.table_setTable_self id _)
      have hset : runOn (v.isSetIn id) sc₂ = (.ok true, sc₂) := by
        simp [Variable.isSetIn, htable, Table.contains, (Table.insert_eq_ok h).1]
      simp [hset]

/-- Setting a value leaves no events: no initializer and no hook is called. -/
theorem events_setIn (v : Variable) (id : TableId) (value : Value) :
    (runOn (v.setIn id value) sc).2.events = sc.events := by
  unfold Variable.setIn
  rw [runOn_bind]
  cases h : (sc.thread.table id).insert v.slot (.value value) with
  | error e => rw [runOn_putIn_error sc h]
  | ok stored =>
    obtain ⟨sc', hrun, hlike⟩ := ends_putIn sc .overwritten h
    rw [hrun]
    exact hlike.events

end Storage

open Storage

/-- Storing a value does what setting it does, whatever state that leaves or whichever refusal it ends
with, and calls no hook. Storing the sentinel is refused under the strict policy, which changes nothing
at all. Under the lenient policy it does what removing the variable does: the table then has neither the
value nor the variable in its live set, and from there the hook runs with what the slot held, if there is
a hook and that was a value. The code that hooks run may be anything (`enter`). -/
theorem storeIn_eq (enter : Enter) (v : Variable) (id : TableId) (sc : Scene) :
    let table := sc.thread.table id
    let held := table.get? v.slot
    let start := (sc.setTable id (table.without v)).handedOver v id held
    (∀ value, runOn (v.storeIn enter id (some value)) sc = runOn (v.setIn id value) sc ∧
      (runOn (v.setIn id value) sc).2.events = sc.events) ∧
    (table.policy = .strict →
      runOn (v.storeIn enter id none) sc = (.error (.refused (.sentinelStored v.slot)), sc)) ∧
    (table.policy = .lenient →
      runOn (v.storeIn enter id none) sc = runOn (v.removeIn enter id) sc ∧
      runOn (v.storeIn enter id none) sc = runOn (v.runHook enter held) start ∧
      runOn (v.removeIn enter id) sc = runOn (v.runHook enter held) start ∧
      start.thread.table id = table.without v) := by
  intro table held start
  refine ⟨fun value => ⟨runOn_storeIn_some sc enter v id value, events_setIn sc v id value⟩,
    fun hstrict => ?_, fun hlenient => ?_⟩
  · have hrejects : table.policy.rejectsSentinel = true := by rw [hstrict]; rfl
    rw [runOn_storeIn_none, if_pos hrejects]
  · have hallows : table.policy.rejectsSentinel = false := by rw [hlenient]; rfl
    have hstore : runOn (v.storeIn enter id none) sc = runOn (v.runHook enter held) start := by
      rw [runOn_storeIn_none, if_neg (by rw [hallows]; decide)]
    have hremove : runOn (v.removeIn enter id) sc = runOn (v.runHook enter held) start :=
      runOn_removeIn sc enter v id
    have hstart : start.thread = (sc.setTable id (table.without v)).thread :=
      Scene.thread_handedOver ..
    refine ⟨hstore.trans hremove.symm, hstore, hremove, ?_⟩
    rw [hstart]
    exact sc.table_setTable_self id _

end ThreadSlots
