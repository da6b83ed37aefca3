import ThreadSlots.Proofs.Agreement
import ThreadSlots.Proofs.Clearing

/-!
# When a removal hook panics during a clearing

The live set is taken out of a table before its variables are cleared, in the order of their slots.
A hook that panics ends the clearing there: the variables with larger slots stay set, and no live set
lists them any more. So the table agrees with its live set afterwards exactly if no variable was set
beyond the one whose hook panicked (`Session.agrees_of_panicked_clear`); otherwise the next clearing
drops their values without calling a hook.

The hooks considered here run no nested code.
-/

namespace ThreadSlots

open Storage

/-! ## The interrupted thread -/

section

variable {enter : Enter} {id : TableId} {sc sc' : Scene}

/-- A thread whose table has no live set is cleared without a call of a hook. -/
theorem exists_clearThread_of_live_empty (hown : sc.own? = some id)
    (hlive : (sc.thread.table id).live = ∅) :
    ∃ sc', runOn (clearThread enter) sc = (.ok (), sc') ∧
      hookCalls sc'.events = hookCalls sc.events := by
  have hlisted : (sc.thread.table id).listed = [] := by simp [Table.listed, hlive]
  unfold clearThread
  rw [runOn_bind, runOn_clearTable, hown]
  simp only [hlisted, clearEach, runOn_pure, if_true, runOn_discard]
  refine ⟨_, rfl, ?_⟩
  have hevents : (sc.detached id).events = sc.events :=
    (congrArg (·.events) sc.like_unwatched).symm
  split <;> exact congrArg hookCalls hevents

/-- After a panic the table holds what was set beyond the variable whose hook panicked. -/
theorem contains_of_panic {before after : List Variable} {v : Variable} (hs : sc.Sound)
    (hagrees : (sc.thread.table id).Agrees)
    (hlisted : (sc.thread.table id).listed = before ++ v :: after) {slot : Nat}
    (hslot : slot ≠ reservedSlot) :
    (((before ++ [v]).foldl (Scene.cleared id) (sc.detached id)).thread.table id).contains slot ↔
      (sc.thread.table id).contains slot ∧ v.slot < slot := by
  have hget : (((before ++ [v]).foldl (Scene.cleared id) (sc.detached id)).thread.table id).get?
      slot = if slot ∈ (before ++ [v]).map (·.slot) then none
        else (sc.thread.table id).get? slot := by
    rw [get?_foldl_cleared, Scene.detached, Scene.table_setTable_self, Table.get?_erase,
      if_neg hslot]
  have hmem := hagrees.mem_slots_listed (hs.thread.lists id) hslot
  -- The pass goes by slots, so what comes before `v` in it has smaller slots, what comes after
  -- larger ones.
  have hsorted := (hs.thread.lists id).pairwise_listed
  rw [hlisted, List.map_append, List.map_cons] at hmem hsorted
  rw [List.pairwise_append, List.pairwise_cons] at hsorted
  obtain ⟨-, ⟨hafter, -⟩, hbefore⟩ := hsorted
  rw [← hmem]
  have hcontains : (((before ++ [v]).foldl (Scene.cleared id) (sc.detached id)).thread.table
      id).contains slot ↔
        slot ∉ (before ++ [v]).map (·.slot) ∧
          slot ∈ before.map (·.slot) ++ v.slot :: after.map (·.slot) := by
    rw [hmem]
    unfold Table.contains
    rw [hget]
    split
    · next hin => exact iff_of_false (by simp) fun h => h.1 hin
    · next hin => exact (and_iff_right hin).symm
  rw [hcontains]
  simp only [List.map_append, List.map_cons, List.map_nil, List.mem_append, List.mem_cons,
    List.not_mem_nil, or_false, not_or]
  constructor
  · rintro ⟨⟨hnot, hne⟩, hin⟩
    rcases hin with hin | hin | hin
    · exact absurd hin hnot
    · exact absurd hin hne
    · exact ⟨.inr (.inr hin), hafter slot hin⟩
  · rintro ⟨hin, hlt⟩
    refine ⟨⟨fun hin => ?_, Nat.ne_of_gt hlt⟩, hin⟩
    exact Nat.lt_asymm hlt (hbefore slot hin v.slot List.mem_cons_self)

/-- The table in which a panic left a clearing has no live set. -/
theorem live_of_panic (vs : List Variable) :
    ((vs.foldl (Scene.cleared id) (sc.detached id)).thread.table id).live = ∅ := by
  have hget : ((vs.foldl (Scene.cleared id) (sc.detached id)).thread.table id).get?
      reservedSlot = none := by
    rw [get?_foldl_cleared, Scene.detached, Scene.table_setTable_self, Table.get?_erase]
    simp
  simp [Table.live, hget]

/-- A clearing ends early only where the pass over the variables does. -/
theorem exists_of_clearThread_error {stop : Stop}
    (hrun : runOn (clearThread enter) sc = (.error stop, sc')) (hown : sc.own? = some id) :
    ∃ sc₁, runOn (clearEach enter id (sc.thread.table id).listed) (sc.detached id) =
      (.error stop, sc₁) ∧ sc' = sc₁.interrupt := by
  unfold clearThread at hrun
  rw [runOn_bind, runOn_clearTable, hown] at hrun
  rcases hr : runOn (clearEach enter id (sc.thread.table id).listed) (sc.detached id)
    with ⟨stop' | _, sc₁⟩
  · simp only [hr] at hrun
    cases hrun
    exact ⟨sc₁, rfl, rfl⟩
  · simp only [hr, if_true, runOn_discard] at hrun
    cases hrun

/-- Where a clearing ends early, a hook has panicked on the value its variable had, and what is left
is set beyond that variable and not listed. -/
theorem exists_of_panicked_clear (hs : sc.Sound) (hown : sc.own? = some id)
    (hagrees : (sc.thread.table id).Agrees)
    (halone : ∀ v ∈ (sc.thread.table id).listed, v.HookRunsAlone) {stop : Stop}
    (hrun : runOn (clearThread enter) sc = (.error stop, sc')) :
    ∃ v message, sc.process.Knows v ∧ stop = .panicked message ∧
      v.panicOn? ((sc.thread.table id).get? v.slot) = some message ∧
      sc'.own? = some id ∧ (sc'.thread.table id).live = ∅ ∧
      ∀ slot, slot ≠ reservedSlot → ((sc'.thread.table id).contains slot ↔
        (sc.thread.table id).contains slot ∧ v.slot < slot) := by
  obtain ⟨sc₁, hpass, rfl⟩ := exists_of_clearThread_error hrun hown
  obtain ⟨before, v, after, message, hlisted, rfl, rfl, hpanic⟩ :=
    exists_panic_of_clearEach halone hpass
  have hlists := hs.thread.lists id
  have hknows : sc.process.Knows v := (hlists.of_mem_listed (by simp [hlisted])).2
  refine ⟨v, message, hknows, rfl, ?_, ?_, live_of_panic (before ++ [v]), fun slot hslot =>
    contains_of_panic hs hagrees hlisted hslot⟩
  · have hsorted := hlists.pairwise_listed
    rw [hlisted, List.map_append, List.pairwise_append] at hsorted
    have hnot : v.slot ∉ before.map (·.slot) := fun hin =>
      Nat.lt_irrefl _ (hsorted.2.2 v.slot hin v.slot (by simp))
    rw [get?_foldl_cleared, if_neg hnot, Scene.detached, Scene.table_setTable_self,
      Table.get?_erase, if_neg (hs.process.slot_ne hknows)] at hpanic
    exact hpanic
  · have h : ((before ++ [v]).foldl (Scene.cleared id) (sc.detached id)).own? =
        (sc.detached id).own? :=
      own?_foldl_cleared (before ++ [v])
    exact h.trans ((sc.own?_detached id).trans hown)

end

/-- **What a panic leaves behind.** A thread's table agrees with its live set, no removal hook runs
nested code, and a hook panics while the thread is cleared. Then the variables with slots beyond that
hook's variable are still set, but no live set lists them; so the table agrees afterwards exactly if
there are none, and the next clearing calls no hook. -/
theorem Session.agrees_of_panicked_clear (environment : Environment) (depth : Nat)
    (steps : List Step) :
    let s := ((Session.start environment depth).run steps).2
    ∀ a ∈ s.actors, ∀ id, a.thread.own? s.process.epoch = some id →
      (a.thread.table id).Agrees →
      (∀ v, s.process.Knows v → (a.thread.table id).contains v.slot → v.HookRunsAlone) →
      ∀ stop sc', runOn (clearThread (enter depth))
          { process := s.process, thread := a.thread } = (.error stop, sc') →
      ∃ v message, s.process.Knows v ∧ stop = .panicked message ∧
        v.panicOn? ((a.thread.table id).get? v.slot) = some message ∧
        sc'.own? = some id ∧
        (∀ slot, slot ≠ reservedSlot → ((sc'.thread.table id).contains slot ↔
          (a.thread.table id).contains slot ∧ v.slot < slot)) ∧
        ((sc'.thread.table id).Agrees ↔
          ∀ slot, (a.thread.table id).contains slot → slot ≤ v.slot) ∧
        (runOn liveCount sc').1 = .ok 0 ∧
        ∃ sc'', runOn (clearThread (enter depth)) sc' = (.ok (), sc'') ∧
          hookCalls sc''.events = hookCalls sc'.events := by
  intro s a ha id hown hagrees halone stop sc' hrun
  have hsound : s.Sound := (Session.sound_start environment depth).run steps
  have hs : Scene.Sound { process := s.process, thread := a.thread } :=
    ⟨hsound.process, hsound.threads a ha⟩
  have hlists : (a.thread.table id).Lists s.process := hs.thread.lists id
  have halone' : ∀ v ∈ (a.thread.table id).listed, v.HookRunsAlone := by
    intro v hv
    have hknows := (hlists.of_mem_listed hv).2
    refine halone v hknows ((hagrees.mem_slots_listed hlists (hs.process.slot_ne hknows)).1 ?_)
    exact List.mem_map_of_mem hv
  obtain ⟨v, message, hknows, rfl, hpanic, hown', hlive, hcontains⟩ :=
    exists_of_panicked_clear hs hown hagrees halone' hrun
  refine ⟨v, message, hknows, rfl, hpanic, hown', hcontains, ⟨fun h slot hset => ?_, fun h slot => ?_⟩,
    ?_, exists_clearThread_of_live_empty hown' hlive⟩
  · by_cases hslot : slot = reservedSlot
    · exact hslot ▸ Nat.zero_le _
    · have hnot : ¬ (sc'.thread.table id).contains slot := fun hset' => by
        have := (h slot).2 ⟨hslot, hset'⟩
        simp [hlive] at this
      exact Nat.le_of_not_lt fun hlt => hnot ((hcontains slot hslot).2 ⟨hset, hlt⟩)
  · refine iff_of_false (by simp [hlive]) fun ⟨hslot, hset⟩ => ?_
    obtain ⟨hset, hlt⟩ := (hcontains slot hslot).1 hset
    exact Nat.not_lt_of_le (h slot hset) hlt
  · rw [runOn_liveCount, hown']
    simp [hlive]

/-- The main thread has set two hooked variables, of which the first one's hook panics. -/
def panickingHook : List Step :=
  [.run "main" (.declare .int (.plain .int) (some
      { nested := none, panics := fun _ => some "boom" })),
    .run "main" (.declare .int (.plain .int) (some { nested := none, panics := fun _ => none })),
    .run "main" (.access 0 .ambient (.set (.int 1))),
    .run "main" (.access 1 .ambient (.set (.int 2)))]

/-- The session in which the main thread is about to be cleared. -/
def Session.beforePanic : Session := ((Session.start {} nestingLimit).run panickingHook).2

/-- How the clearing of the thread ends. -/
def Session.panicOf (a : Actor) : Except Stop Unit × Scene :=
  runOn (clearThread (enter nestingLimit))
    { process := Session.beforePanic.process, thread := a.thread }

/-- The thread has set both variables, no hook runs nested code, and clearing it panics. -/
theorem Session.exists_panicOf : ∃ a ∈ Session.beforePanic.actors,
    a.thread.own? Session.beforePanic.process.epoch = some 0 ∧ (a.thread.table 0).Agrees ∧
      (∀ v, Session.beforePanic.process.Knows v → v.HookRunsAlone) ∧
      panicOf a = (.error (.panicked "boom"), (panicOf a).2) ∧
      ((panicOf a).2.thread.table 0).contains 2 = true ∧
      ((panicOf a).2.thread.table 0).live.contains 2 = false ∧
      hookCalls (panicOf a).2.events = [(0, .int 1)] ∧
      hookCalls (runOn (clearThread (enter nestingLimit)) (panicOf a).2).2.events =
        [(0, .int 1)] := by
  have hhooks : Session.beforePanic.process.bySlot.toList.all (fun x =>
      x.2.onRemoval.all (·.nested.isNone)) = true := by
    decide +kernel
  have hthread : (Session.beforePanic.actor? "main").map (fun a =>
        (a.thread.own? Session.beforePanic.process.epoch, a.thread.interrupted,
          match (panicOf a).1 with
          | .ok _ => none
          | .error stop => some stop)) = some (some 0, false, some (.panicked "boom")) := by
    decide +kernel
  have htable : (Session.beforePanic.actor? "main").map (fun a =>
        (((panicOf a).2.thread.table 0).contains 2,
          ((panicOf a).2.thread.table 0).live.contains 2)) = some (true, false) := by
    decide +kernel
  have hcalls : (Session.beforePanic.actor? "main").map (fun a =>
        (hookCalls (panicOf a).2.events,
          hookCalls (runOn (clearThread (enter nestingLimit)) (panicOf a).2).2.events)) =
      some ([(0, .int 1)], [(0, .int 1)]) := by
    decide +kernel
  have hsound : Session.beforePanic.Sound :=
    (Session.sound_start {} nestingLimit).run panickingHook
  obtain ⟨a, ha, h⟩ := Option.map_eq_some_iff.1 hthread
  rw [ha, Option.map_some, Option.some.injEq] at htable hcalls
  simp only [Prod.mk.injEq] at h htable hcalls
  obtain ⟨hown, hinterrupted, hstop⟩ := h
  have hmem : a ∈ Session.beforePanic.actors := List.mem_of_find?_eq_some ha
  refine ⟨a, hmem, hown, ?_, fun v hv hook hhook => ?_, ?_, htable.1, htable.2, hcalls⟩
  · exact hsound.agrees a hmem hinterrupted 0 (Thread.holds_of_own? hown) (by simp)
  · have := List.all_eq_true.1 hhooks (v.slot, v)
      (Std.ExtTreeMap.mem_toList_iff_getElem?_eq_some.2 hv)
    simpa [hhook] using this
  · rcases hr : panicOf a with ⟨stop | _, sc'⟩
    · simp only [hr, Option.some.injEq] at hstop
      rw [hstop]
    · simp [hr] at hstop

/-- The second variable stays set but is not listed, and the next clearing does not call its hook. -/
theorem Session.not_agrees_beforePanic : ∃ a ∈ Session.beforePanic.actors,
    ∃ id, a.thread.own? Session.beforePanic.process.epoch = some id ∧
      (a.thread.table id).Agrees ∧
      (∀ v, Session.beforePanic.process.Knows v → v.HookRunsAlone) ∧ ∃ stop sc',
        runOn (clearThread (enter nestingLimit))
          { process := Session.beforePanic.process, thread := a.thread } = (.error stop, sc') ∧
        ¬ (sc'.thread.table id).Agrees ∧ (sc'.thread.table id).contains 2 ∧
        hookCalls (runOn (clearThread (enter nestingLimit)) sc').2.events =
          hookCalls sc'.events := by
  obtain ⟨a, hmem, hown, hagrees, halone, hend, hset, hlive, hcalls, hcalls'⟩ := exists_panicOf
  refine ⟨a, hmem, 0, hown, hagrees, halone, _, _, hend, fun h => ?_, hset, hcalls'.trans hcalls.symm⟩
  have hmem : 2 ∈ ((panicOf a).2.thread.table 0).live := (h 2).2 ⟨by decide, hset⟩
  rw [Std.ExtTreeMap.mem_iff_contains, hlive] at hmem
  cases hmem

theorem Session.agrees_beforePanic_iff : ∃ a ∈ Session.beforePanic.actors, ∃ sc',
    runOn (clearThread (enter nestingLimit))
      { process := Session.beforePanic.process, thread := a.thread } =
        (.error (.panicked "boom"), sc') ∧
    ∃ v, Session.beforePanic.process.Knows v ∧
      ((sc'.thread.table 0).Agrees ↔
        ∀ slot, (a.thread.table 0).contains slot → slot ≤ v.slot) := by
  obtain ⟨a, hmem, hown, hagrees, halone, hend, -⟩ := exists_panicOf
  obtain ⟨v, message, hv, -, -, -, -, hiff, -⟩ := Session.agrees_of_panicked_clear {} nestingLimit
    panickingHook a hmem 0 hown hagrees (fun v hv _ => halone v hv) _ _ hend
  exact ⟨a, hmem, _, hend, v, hv, hiff⟩

end ThreadSlots
