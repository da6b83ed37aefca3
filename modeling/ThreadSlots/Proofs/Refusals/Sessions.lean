import ThreadSlots.Proofs.Refusals.Replies

/-!
# Values can always be stored

Two limits have to fit together: the largest slot that a supply hands out, and the largest capacity that
a table grows to by doubling. They do, for every table (`Scene.Takes`), so at every point of every
session a thread is refused nothing but indices when there are no more of them and the unset sentinel
under the strict policy (`Scene.Serves`), and its reports, those of nested code included, tell of
nothing else (`StepReport.Foreseen`). What is refused has changed nothing, and what was stored can be
tracked (`Scene.Whole`).
-/

namespace ThreadSlots

open Storage

/-! ## One scene -/

/-- Every variable that has a slot can be given a value in the table, and is registered as set there.
Slots of variables are not the reserved one. -/
structure Scene.Takes (sc : Scene) (id : TableId) : Prop where
  set : ∀ v : Variable, v.HandedOut → ∀ x, ∃ sc', runOn (v.setIn id x) sc = (.ok (), sc') ∧
    (v.slot ≠ reservedSlot → sc.Stored v id x sc')
  replace : ∀ v : Variable, v.HandedOut → ∀ x, ∃ old sc',
    runOn (v.replaceIn id x) sc = (.ok old, sc') ∧ (v.slot ≠ reservedSlot → sc.Stored v id x sc')
  store : ∀ v : Variable, v.HandedOut → ∀ enter x, ∃ sc',
    runOn (v.storeIn enter id (some x)) sc = (.ok (), sc') ∧
      (v.slot ≠ reservedSlot → sc.Stored v id x sc')

/-- The table may have grown in any way. -/
theorem Scene.takes_of_grown {sc : Scene} {id : TableId} (h : (sc.thread.table id).Grown) :
    sc.Takes id where
  set _ hv x := exists_setIn h hv.slot_le x
  replace _ hv x := exists_replaceIn h hv.slot_le x
  store _ hv enter x := exists_storeIn h hv.slot_le enter x

/-- A write that is refused changes nothing, and a value that was stored is tracked. -/
structure Scene.Whole (sc : Scene) : Prop where
  track : ∀ id slot cell stored sc', runOn (store id slot cell) sc = (.ok stored, sc') →
    ∀ v : Variable, ∃ sc'', runOn (v.track id) sc' = (.ok (), sc'')
  put : ∀ (v : Variable) id x fate e sc',
    runOn (v.putIn id x fate) sc = (.error (.refused e), sc') → sc' = sc
  store : ∀ (v : Variable) limit id entry e sc',
    runOn (v.storeIn (enter limit) id entry) sc = (.error (.refused e), sc') → sc' = sc

theorem Scene.whole (sc : Scene) : sc.Whole where
  track id _ _ _ sc' _ v := exists_track sc' v id
  put _ _ _ _ _ _ h := putIn_refused h
  store _ limit _ _ _ _ h := storeIn_refused (Panics.enter limit) h

/-- What a thread can rely on that is about to do something in the scene. -/
structure Scene.Serves (sc : Scene) (limit : Nat) : Prop where
  /-- The variables that were made have slots, none of them the reserved one. -/
  made : ∀ v, sc.process.Knows v → v.HandedOut ∧ v.slot ≠ reservedSlot
  takes : ∀ id, sc.Takes id
  /-- The initializer may panic; what it makes is stored. -/
  get : ∀ v : Variable, v.HandedOut → ∀ id, Granted (v.getIn (enter limit) id) sc
  withValue : ∀ v : Variable, v.HandedOut → ∀ id body, Granted (v.withIn (enter limit) id body) sc
  /-- The same in the thread's own table and in the named ones. -/
  access : ∀ v : Variable, v.HandedOut → ∀ place (op : Access), op ≠ .store none →
    refusal? (runOn (op.run (enter limit) v place) sc).1 = none
  /-- Whatever is refused is one of a few commands. -/
  refused : ∀ c e, refusal? (runOn (perform (enter limit) c) sc).1 = some e →
    c.Refused sc e (runOn (perform (enter limit) c) sc).2
  /-- The sentinel is refused for the variable, and nothing is stored. -/
  sentinel : ∀ handle place v id sc', sc.process.resolve? handle = some v →
    runOn place.resolve sc = (.ok (some id), sc') → (sc'.thread.table id).policy = .strict →
      runOn (perform (enter limit) (.access handle place (.store none))) sc =
        (.ok (.refused (.sentinelStored v.slot)), sc')
  /-- No variable is made when no index is left. -/
  exhausted : ∀ kind initial hook, maxSlot < sc.process.supply.next →
    (runOn (perform (enter limit) (.declare kind initial hook)) sc).1 =
      .ok (.refused SlotSupply.exhausted)
  /-- An exiting thread clears itself. -/
  clearOnExit : ∀ kind, Granted (clearOnExit kind limit) sc

theorem Scene.Able.serves {sc : Scene} (h : sc.Able) (limit : Nat) : sc.Serves limit where
  made v hv := ⟨Variable.handedOut (h.sound.process.bySlot _ v hv).2.2.1, h.sound.process.slot_ne hv⟩
  takes id := takes_of_grown (h.ready id).grown
  get _ hv := h.getIn hv.slot_le limit
  withValue _ hv := h.withIn hv.slot_le limit
  access _ hv place _ hop := h.access hv.slot_le limit place hop
  refused c _ := h.refused limit c
  sentinel _ _ _ _ _ hv hid hpolicy := refused_of_strict limit hv hid hpolicy
  exhausted kind initial hook hnext := refused_of_exhausted (enter limit) kind initial hook hnext
  clearOnExit kind := .of_panics (.clearOnExit kind limit)

/-! ## Reports -/

/-- The report tells of foreseen refusals only: in the answer to the command, in the answers to what
destructors did when a thread ended, and in what nested code was answered. -/
structure StepReport.Foreseen (report : StepReport) : Prop where
  replied : ∀ reply, report.result = .replied reply → reply.Foreseen
  late : ∀ ending replies, report.result = .joined ending → ending.late = some replies →
    ∀ reply, .ok reply ∈ replies → reply.Foreseen
  nested : ∀ name reply, .stepped name reply ∈ report.events → reply.Foreseen

theorem Scene.Told.of_mem {sc : Scene} (h : sc.Told) {name : String} {reply : Reply}
    (hmem : Event.stepped name reply ∈ sc.events.reverse) : reply.Foreseen :=
  h (name, reply) (List.mem_filterMap.2 ⟨_, List.mem_reverse.1 hmem, rfl⟩)

theorem Scene.Able.foreseen_answer {sc : Scene} (h : sc.Able) {limit : Nat} {c : Command} {r : Reply}
    (hanswer : answer (runOn (perform (enter limit) c) sc).1 = .ok r) : r.Foreseen := by
  intro e he
  refine (h.refused limit c ?_).foreseen
  rcases hrun : (runOn (perform (enter limit) c) sc).1 with (e' | message) | reply
  all_goals
    rw [hrun] at hanswer
    cases hanswer
  · exact he
  · exact he

theorem Scene.Able.unwind {sc : Scene} (h : sc.Able) (n : Nat) : (sc.unwind n).Able :=
  Scene.unwind_induction (P := Able) (fun _ l _ h => h.course (course_destroy [] h.sound l)) h n

theorem Scene.Told.unwind {sc : Scene} (h : sc.Told) (n : Nat) : (sc.unwind n).Told :=
  Scene.unwind_induction (P := Told) (fun _ l _ h => h.congr (by cases l <;> rfl)) h n

namespace Session

variable {s : Session}

theorem foreseen_runLate (depth : Nat) (cs : List Command) {sc : Scene} (h : sc.Able) (ht : sc.Told) :
    (∀ reply, .ok reply ∈ (runLate depth sc cs).1 → reply.Foreseen) ∧
      (runLate depth sc cs).2.Able ∧ (runLate depth sc cs).2.Told := by
  induction cs generalizing sc with
  | nil => exact ⟨fun reply hmem => absurd hmem List.not_mem_nil, h, ht⟩
  | cons c cs ih =>
    have hperform := tells_perform depth c
    obtain ⟨hrest, hended⟩ := ih (h.walk hperform.walks rfl) (hperform.told sc h (by simp) ht)
    refine ⟨fun reply hmem => ?_, hended⟩
    rcases List.mem_cons.1 hmem with he | hmem
    · exact h.foreseen_answer he.symm
    · exact hrest reply hmem

theorem foreseen_runDestructors (depth : Nat) (late : List Late) {sc : Scene} (h : sc.Able)
    (ht : sc.Told) :
    (∀ reply, .ok reply ∈ (runDestructors depth sc late).1 → reply.Foreseen) ∧
      (runDestructors depth sc late).2.Told := by
  induction late generalizing sc with
  | nil => exact ⟨fun reply hmem => absurd hmem List.not_mem_nil, ht⟩
  | cons code late ih =>
    obtain ⟨hcode, hable, htold⟩ := foreseen_runLate depth code.commands
      (h.unwind (code.since + 1)) (ht.unwind (code.since + 1))
    obtain ⟨hrest, hended⟩ := ih hable htold
    refine ⟨fun reply hmem => ?_, hended⟩
    rcases List.mem_append.1 hmem with hmem | hmem
    · exact hcode reply hmem
    · exact hrest reply hmem

theorem Able.foreseen_command (hs : s.Able) (name : String) (c : Command) :
    (s.command name c).1.Foreseen := by
  rcases ha : s.actor? name with _ | a
  · rw [command_of_none ha]
    exact ⟨nofun, nofun, nofun⟩
  · have h := hs.scene (mem_actors ha)
    have htold := (tells_perform s.depth c).told _ h (by simp) nofun
    unfold Session.command
    rw [ha]
    refine ⟨fun reply he => ?_, fun ending replies he => ?_, fun _ _ hmem => htold.of_mem hmem⟩
    all_goals
      dsimp only [act] at he
      split at he
    · next hanswer =>
      cases he
      exact h.foreseen_answer hanswer
    all_goals cases he

theorem foreseen_use (name : String) (commands : List Command) :
    (s.use name commands).1.Foreseen := by
  unfold use
  cases s.actor? name with
  | none => exact ⟨nofun, nofun, nofun⟩
  | some a =>
    refine ⟨fun reply he => ?_, nofun, nofun⟩
    cases he
    exact nofun

theorem Able.foreseen_join (hs : s.Able) (name : String) (panics : Option String) :
    (s.join name panics).1.Foreseen := by
  rcases ha : s.actor? name with _ | a
  · unfold join
    rw [ha]
    exact ⟨nofun, nofun, nofun⟩
  · have h := hs.scene (mem_actors ha)
    have hclear := tells_clearOnExit a.kind s.depth
    have hcleared := h.walk hclear.walks rfl
    obtain ⟨hlate, htold⟩ :=
      foreseen_runDestructors s.depth a.late hcleared (hclear.told _ h (by simp) nofun)
    unfold join
    rw [ha]
    refine ⟨nofun, fun ending replies he hreplies reply hmem => ?_,
      fun _ _ hmem => (htold.unwind 0).of_mem hmem⟩
    cases he
    dsimp only [exit] at hreplies
    split at hreplies
    · cases hreplies
    · cases hreplies
      exact hlate reply hmem

theorem Able.foreseen_step (hs : s.Able) (x : Step) : (s.step x).1.Foreseen := by
  cases x with
  | run name c => exact hs.foreseen_command name c
  | spawn name kind label late => exact ⟨nofun, nofun, nofun⟩
  | use name commands => exact foreseen_use name commands
  | join name panics => exact hs.foreseen_join name panics

theorem Able.foreseen_run (hs : s.Able) (steps : List Step) :
    ∀ report ∈ (s.run steps).1, report.Foreseen := by
  induction steps generalizing s with
  | nil => exact fun report hmem => absurd hmem List.not_mem_nil
  | cons x steps ih =>
    intro report hmem
    rcases List.mem_cons.1 hmem with rfl | hmem
    · exact hs.foreseen_step x
    · exact ih (hs.step x) report hmem

/-- **A variable that was made can always be given a value.** At every point of a session, in nested
code and in destructors as well, a value is stored and registered in whatever
table, and nothing is refused but an index when there is none left and the sentinel under the strict
policy. The reports of the session, those of nested code included, tell of no other refusal. A table
that is grown by hand refuses, besides, to grow past the largest capacity. -/
theorem serves_of_run (environment : Environment) (depth : Nat) (steps : List Step) :
    (∀ sc, ((start environment depth).run steps).2.Sees sc → ∀ limit, sc.Serves limit) ∧
      (∀ report ∈ ((start environment depth).run steps).1, report.Foreseen) ∧
      (∀ sc : Scene, sc.Whole) ∧
      (∀ policy calls (sc : Scene) id,
        sc.thread.table id = ({ policy := policy } : SlotTable).changes calls → sc.Takes id) ∧
      ∀ policy before step e,
        ((({ table := { policy := policy } } : TableTrial).run before).2.step step).1 = .refused e →
          step.Refused policy e := by
  have hable := able_start environment depth
  refine ⟨fun sc hsc limit => ((hable.run steps).sees hsc).serves limit, hable.foreseen_run steps,
    Scene.whole, fun policy calls sc id htable => ?_, fun policy before step e he => ?_⟩
  · refine Scene.takes_of_grown ?_
    rw [htable]
    exact (Table.reflects_changes policy calls).grown
  · obtain ⟨calls, hrun⟩ := TableTrial.exists_run { table := { policy := policy } } before
    have hreflects := Table.reflects_changes policy calls
    have hpolicy : (({ table := { policy := policy } } : TableTrial).after calls).table.policy =
        policy := hreflects.policy_eq
    rw [hrun] at he
    have hrefused := TableTrial.refused_step hreflects.grown he
    rwa [hpolicy] at hrefused

/-- The variable is set and the sentinel is not stored, on the main thread of a session that has made
the variable; a new table does not grow past the largest capacity. -/
theorem serves_of_run_strict :
    let s := ((start {} nestingLimit).run [.run mainName (.declare .int (.plain .int) none)]).2
    ∃ a ∈ s.actors, ∃ v, s.process.Knows v ∧
      let sc : Scene := { process := s.process, thread := a.thread }
      (∃ sc', runOn (v.setIn 0 (.int 7)) sc = (.ok (), sc') ∧ sc.Stored v 0 (.int 7) sc') ∧
      refusal? (runOn (perform (enter nestingLimit) (.access 0 .ambient (.store none))) sc).1 =
        some (.sentinelStored 1) ∧
      Command.Refused sc (.access 0 .ambient (.store none)) (.sentinelStored 1)
        (runOn (perform (enter nestingLimit) (.access 0 .ambient (.store none))) sc).2 ∧
      TableStep.Refused .strict (.growTo maxCapacity) Table.outOfCapacity := by
  intro s
  have hview : ((s.actor? mainName).bind fun a => s.process.bySlot[1]?.map fun v =>
      let sc : Scene := { process := s.process, thread := a.thread }
      (v.slot,
        refusal? (runOn (perform (enter nestingLimit) (.access 0 .ambient (.store none))) sc).1)) =
      some (1, some (.sentinelStored 1)) := by
    decide +kernel
  obtain ⟨hserves, -, -, -, htrial⟩ :=
    serves_of_run {} nestingLimit [.run mainName (.declare .int (.plain .int) none)]
  -- from here on the session is not evaluated any more
  change ∀ sc, s.Sees sc → ∀ limit, sc.Serves limit at hserves
  clear_value s
  obtain ⟨a, ha, hview⟩ := Option.bind_eq_some_iff.1 hview
  obtain ⟨v, hv, hview⟩ := Option.map_eq_some_iff.1 hview
  simp only [Prod.mk.injEq] at hview
  obtain ⟨hslot, hrefused⟩ := hview
  have hmem : a ∈ s.actors := mem_actors ha
  have hsc := hserves { process := s.process, thread := a.thread }
    (.running hmem (.rest : Course [] _ _)) nestingLimit
  have hknown : s.process.Knows v := by
    unfold Process.Knows
    rw [hslot]
    exact hv
  obtain ⟨hhanded, hne⟩ := hsc.made v hknown
  obtain ⟨sc', hset, hstored⟩ := (hsc.takes 0).set v hhanded (.int 7)
  exact ⟨a, hmem, v, hknown, ⟨sc', hset, hstored hne⟩, hrefused, hsc.refused _ _ hrefused,
    htrial .strict [] (.growTo maxCapacity) _
      (TableTrial.step_growTo_of_le (Table.grown_mk _) (Nat.le_refl _))⟩

end Session

/-- Neither indices nor the sentinel are what a new table refuses that is to grow past the largest
capacity; and a supply can be asked for an index that no variable is made for. -/
theorem TableTrial.refused_otherwise :
    (({ table := { policy := .strict } } : TableTrial).step (.growTo 2147483648)).1 =
        .refused Table.outOfCapacity ∧
      ¬ StorageError.Foreseen Table.outOfCapacity ∧
      (SlotSupply.startingAt 2147483648).take.1 = .error SlotSupply.exhausted := by
  refine ⟨step_growTo_of_le (Table.grown_mk _) (by decide), ?_, by decide⟩
  rintro (h | ⟨slot, h⟩)
  · exact absurd h (by decide)
  · cases h

end ThreadSlots
