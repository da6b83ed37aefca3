import ThreadSlots.Proofs.Flow

/-!
# A clearing leaves nothing behind

Removal hooks may store new values, make the thread carry a table or release it, and make its
fallback table stale, all while the thread is being cleared. What the clearing does last looks for
the thread's table anew, and as a thread never holds two tables (`Thread.Sound.exclusive`), nothing
is left in any it holds: after a clearing that ends well the thread has no table or a fresh one, and a
variable stays unset until a value comes into its slot; and an exiting thread that was started
carrying a table has none at all (`Session.cleared_of_clear`).
-/

namespace ThreadSlots

open Storage

/-! ## What a thread holds -/

/-- A table that the thread holds after a move it held before, or it was not used yet. -/
theorem Move.holds {busy : List TableId} {sc sc' : Scene} (h : Move busy sc sc') {id : TableId}
    (hid : sc'.thread.Holds id) : sc.thread.Holds id ∨ sc.thread.Unused id := by
  cases h with
  | aside h => exact .inl ((Thread.holds_of_seen h.locals id).1 hid)
  | relocate l hheld => exact hheld id hid
  | remove | clear =>
    rw [Scene.thread_handedOver] at hid
    exact .inl hid
  | _ => exact .inl hid

/-- A value in a table that the thread holds came in since, or it was there when the thread held
that table before. -/
theorem Course.has_of_holds {busy : List TableId} {sc sc' : Scene} (h : Course busy sc sc') :
    ∃ news, sc'.arrivals = news ++ sc.arrivals ∧
      ∀ id, sc'.thread.Holds id → ∀ slot x, sc'.thread.Has id slot x →
        (sc.thread.Holds id ∧ sc.thread.Has id slot x) ∨ ⟨id, slot, x⟩ ∈ news := by
  refine h.relates (R := fun sc sc' => ∃ news, sc'.arrivals = news ++ sc.arrivals ∧
      ∀ id, sc'.thread.Holds id → ∀ slot x, sc'.thread.Has id slot x →
        (sc.thread.Holds id ∧ sc.thread.Has id slot x) ∨ ⟨id, slot, x⟩ ∈ news)
    (fun _ => ⟨[], rfl, fun _ hid _ _ hx => .inl ⟨hid, hx⟩⟩) ?_ (fun hm => ?_)
    (fun _ => ⟨[], rfl, fun _ hid _ _ hx => .inl ⟨hid, hx⟩⟩)
  · rintro sc sc' sc'' ⟨news, harrivals, hhas⟩ ⟨news', harrivals', hhas'⟩
    refine ⟨news' ++ news, by rw [harrivals', harrivals, List.append_assoc],
      fun id hid slot x hx => ?_⟩
    rcases hhas' id hid slot x hx with ⟨hid, hx⟩ | hnew
    · exact (hhas id hid slot x hx).imp_right (List.mem_append_right _)
    · exact .inr (List.mem_append_left _ hnew)
  · obtain ⟨news, _, hflow⟩ := hm.exists_flow
    refine ⟨news, hflow.arrivals, fun id hid slot x hx => ?_⟩
    rcases hflow.has id slot x hx with ⟨hx, -⟩ | hnew
    · rcases hm.holds hid with hholds | hunused
      · exact .inl ⟨hholds, hx⟩
      · exact nomatch (hunused.blank slot).symm.trans hx
    · exact .inr hnew

/-! ## Cleared scenes -/

/-- The thread has no table or one that is as a new one, and no value in any table it holds. -/
structure Scene.Cleared (sc : Scene) : Prop where
  fresh : ∀ id, sc.own? = some id → sc.thread.table id = sc.blankTable
  blank : ∀ id, sc.thread.Holds id → (sc.thread.table id).Blank

namespace Scene

variable {sc : Scene}

theorem Cleared.of_own?_eq_none (h : sc.own? = none) : sc.dropFallback.Cleared := by
  refine ⟨fun id hid => ?_, fun id hid => ?_⟩
  · rw [own?_dropFallback (carried?_eq_none h)] at hid
    cases hid
  · have hcarried : sc.dropFallback.thread.carried? = none := by
      rw [carried?_dropFallback, carried?_eq_none h]
    exact absurd hid (Thread.not_holds hcarried sc.fallback?_dropFallback id)

/-- After a thread's table was discarded. -/
theorem Cleared.discard (hs : sc.Sound) : (runOn Storage.discard sc).2.Cleared := by
  refine ⟨fun id hid => ?_, fun id => blank_discard hs⟩
  have hrun := runOn_discard sc
  rcases hc : sc.thread.carried? with _ | i
  · rw [hc] at hrun
    rw [hrun] at hid
    rw [own?_dropFallback hc] at hid
    cases hid
  · rw [hc] at hrun
    rw [hrun] at hid ⊢
    have hcarried : (sc.setTable i sc.blankTable).thread.carried? = some i := hc
    change (sc.setTable i sc.blankTable).own? = some id at hid
    rw [own?_of_carried hcarried] at hid
    cases hid
    exact sc.table_setTable_self id _

/-- No variable is set. -/
theorem Cleared.isSet (h : sc.Cleared) (v : Variable) : (runOn v.isSet sc).1 = .ok false := by
  unfold Variable.isSet
  rw [runOn_bind, runOn_current?]
  rcases ho : sc.own? with _ | id
  · rfl
  · have hget := h.blank id (Thread.holds_of_own? ho) v.slot
    simp [Variable.isSetIn, Table.contains, hget]

theorem Cleared.liveCount (h : sc.Cleared) : (runOn ThreadSlots.liveCount sc).1 = .ok 0 := by
  rw [runOn_liveCount]
  rcases ho : sc.own? with _ | id
  · rfl
  · have hget := h.blank id (Thread.holds_of_own? ho) reservedSlot
    simp [Table.live, hget]

/-- A variable whose slot holds no value is given its initial one. -/
theorem runOn_get_of_not_has {v : Variable}
    (h : ∀ id, sc.thread.Holds id → ∀ x, ¬ sc.thread.Has id v.slot x) (enter : Enter) :
    ∃ id sc₁, runOn current sc = (.ok id, sc₁) ∧
      runOn (v.get enter) sc = runOn (v.makeIn enter id) sc₁ := by
  have hmake : ∀ {sc₁ : Scene} {id : TableId}, runOn current sc = (.ok id, sc₁) →
      (∀ x, ¬ sc₁.thread.Has id v.slot x) →
      runOn (v.get enter) sc = runOn (v.makeIn enter id) sc₁ := by
    intro sc₁ id hrun hnone
    have hget : ((sc₁.thread.table id).get? v.slot).bind (·.value? v.kind) = none := by
      refine Option.eq_none_iff_forall_ne_some.2 fun x hx => ?_
      obtain ⟨cell, hcell, hvalue⟩ := Option.bind_eq_some_iff.1 hx
      obtain ⟨rfl, -⟩ := Cell.value?_eq_some.1 hvalue
      exact hnone x hcell
    unfold Variable.get Variable.getIn
    rw [runOn_bind, hrun]
    simp [hget]
  have hrun := runOn_current sc
  rcases ho : sc.own? with _ | id
  · rw [ho] at hrun
    refine ⟨_, _, hrun, hmake hrun fun x hx => ?_⟩
    have htable : sc.makeBlank.thread.table sc.thread.nextTable = sc.blankTable := by
      rw [sc.like_makeBlank.symm.thread_table, table_makeTable, if_pos rfl]
    change (sc.makeBlank.thread.table sc.thread.nextTable).get? v.slot = _ at hx
    simp [htable, blankTable] at hx
  · rw [ho] at hrun
    exact ⟨_, _, hrun, hmake hrun fun x => h id (Thread.holds_of_own? ho) x⟩

end Scene

/-! ## Clearing -/

section

variable {enter : Enter} (henter : ∀ script, Walks [] (enter script)) {sc sc' : Scene}

include henter in
/-- A clearing that ends well found no table to clear, or went on to what is done after it. -/
theorem exists_of_clearTable_then {x : Storage Unit} (hs : sc.Sound)
    (h : runOn (do if ← clearTable enter then x) sc = (.ok (), sc')) :
    (sc.unwatched.own? = none ∧ sc' = sc.unwatched.dropFallback) ∨
      ∃ sc₁, sc₁.Sound ∧ runOn x sc₁ = (.ok (), sc') := by
  rw [runOn_bind, runOn_clearTable] at h
  rcases ho : sc.own? with _ | id
  · rw [ho] at h
    cases h
    exact .inl ⟨sc.like_unwatched.own?.trans ho, rfl⟩
  · rw [ho] at h
    have hdetached := (course_detached [] sc id).sound hs
    have hcourse : Course [id] (sc.detached id) _ :=
      course_clearEach henter List.mem_cons_self hdetached (knows_detached hs id)
    dsimp only at h
    rcases hr : runOn (clearEach enter id (sc.thread.table id).listed) (sc.detached id)
      with ⟨stop | _, sc₁⟩
    · rw [hr] at h
      cases h
    · rw [hr] at h hcourse
      have hcounted : Course [id] sc₁ { sc₁ with process := sc₁.process.count .removeAllPasses } :=
        .like .rest (.count _ (by decide))
      exact .inr ⟨_, hcounted.sound (hcourse.sound hdetached), h⟩

include henter in
theorem cleared_of_clearThread (hs : sc.Sound)
    (h : runOn (clearThread enter) sc = (.ok (), sc')) : sc'.Cleared := by
  rcases exists_of_clearTable_then henter hs h with ⟨ho, rfl⟩ | ⟨sc₁, hs₁, hrun⟩
  · exact .of_own?_eq_none ho
  · have hcleared := Scene.Cleared.discard hs₁
    rwa [hrun] at hcleared

/-- A thread that lets go of its fallback table and carries none holds none. -/
theorem locals_dropFallback (hc : sc.thread.carried? = none) :
    sc.dropFallback.thread.carried? = none ∧ sc.dropFallback.thread.fallback? = none :=
  ⟨by rwa [Scene.carried?_dropFallback], sc.fallback?_dropFallback⟩

include henter in
/-- A thread that has cleared itself at its exit holds no table. -/
theorem locals_of_clearAndRelease (hs : sc.Sound)
    (h : runOn (clearAndRelease enter) sc = (.ok (), sc')) :
    sc'.thread.carried? = none ∧ sc'.thread.fallback? = none := by
  rcases exists_of_clearTable_then henter hs h with ⟨ho, rfl⟩ | ⟨sc₁, hs₁, hrun⟩
  · exact locals_dropFallback (Scene.carried?_eq_none ho)
  · rw [runOn_bind, runOn_release] at hrun
    rcases hc : sc₁.thread.carried? with _ | id
    · -- a hook has released the table: what the thread may have is a fallback table
      simp only [hc, Option.isNone_none, if_true, runOn_discard, Scene.carried?_released] at hrun
      cases hrun
      exact locals_dropFallback sc₁.carried?_released
    · rw [hc] at hrun
      cases hrun
      refine ⟨sc₁.carried?_released, ?_⟩
      rw [Scene.fallback?_released]
      exact hs₁.thread.exclusive.resolve_left (by simp [hc])

end

/-- **A clearing leaves nothing behind**: whatever the removal hooks do and wherever in a session a
thread is cleared, if the clearing ends well, the thread has no table or a fresh one, no variable is
set, and each variable is given its initial value when it is read next, until a value has come into
its slot. If the last clearing of a thread that was started carrying a table ends well, the thread
carries no table and has no fallback table. -/
theorem Session.cleared_of_clear (environment : Environment) (depth : Nat) (steps : List Step) :
    let s := ((Session.start environment depth).run steps).2
    ∀ a ∈ s.actors, ∀ busy sc, Course busy { process := s.process, thread := a.thread } sc →
      ∀ limit sc',
        (runOn (clearThread (enter limit)) sc = (.ok (), sc') →
          (∀ id, sc'.own? = some id →
            sc'.thread.table id = { policy := sc'.process.inEffect.sentinelPolicy }) ∧
          (runOn liveCount sc').1 = .ok 0 ∧
          ∀ v : Variable, (runOn v.isSet sc').1 = .ok false ∧
            ∀ busy' sc'' news, Course busy' sc' sc'' → sc''.arrivals = news ++ sc'.arrivals →
              (∀ arrival ∈ news, arrival.slot ≠ v.slot) →
              ∀ enter', ∃ id sc₁, runOn current sc'' = (.ok id, sc₁) ∧
                runOn (v.get enter') sc'' = runOn (v.makeIn enter' id) sc₁) ∧
        ∀ kind : ThreadKind, kind.carries →
          runOn (clearOnExit kind limit) sc = (.ok (), sc') →
            sc'.thread.carried? = none ∧ sc'.thread.fallback? = none := by
  intro s a ha busy sc hcourse limit sc'
  have hsound : s.Sound := (Session.sound_start environment depth).run steps
  have hs₀ : Scene.Sound { process := s.process, thread := a.thread } :=
    ⟨hsound.process, hsound.threads a ha⟩
  have hs := hcourse.sound hs₀
  have henter := walks_enter limit
  refine ⟨fun hrun => ?_, fun kind hkind hrun => ?_⟩
  · have hcleared := cleared_of_clearThread henter hs hrun
    refine ⟨hcleared.fresh, hcleared.liveCount, fun v => ⟨hcleared.isSet v, ?_⟩⟩
    intro busy' sc'' news hlater hnews hunset enter'
    refine Scene.runOn_get_of_not_has (fun id hid x hx => ?_) enter'
    obtain ⟨news', hnews', hhas⟩ := hlater.has_of_holds
    obtain rfl : news' = news := List.append_cancel_right (hnews'.symm.trans hnews)
    rcases hhas id hid v.slot x hx with ⟨hid, hx⟩ | hnew
    · exact nomatch (hcleared.blank id hid v.slot).symm.trans hx
    · exact hunset _ hnew rfl
  · unfold clearOnExit at hrun
    rw [if_pos hkind] at hrun
    exact locals_of_clearAndRelease henter hs hrun

/-- A thread that carries its table has set a variable whose hook sets another variable, releases
the table, sets that variable again in a fallback table, carries that table and sets it once more. -/
def switchingHook : List Step :=
  let set (i : Int) (next : Script) : Script :=
    .step "set" (.access 1 .ambient (.set (.int i))) fun _ => next
  [.run "main" (.declare .int (.plain .int) (some
      { nested := some fun _ =>
          set 2 <| .step "release" (.onThread (.release "t")) fun _ =>
            set 3 <| .step "adopt" (.onThread (.adopt "u")) fun _ => set 4 (.done none)
        panics := fun _ => none })),
    .run "main" (.declare .int (.plain .int) none),
    .spawn "a" .carried none none,
    .run "a" (.access 0 .ambient (.set (.int 1)))]

theorem Session.cleared_of_clear_switchingHook :
    let s := ((Session.start {} nestingLimit).run switchingHook).2
    ∃ a ∈ s.actors, ∃ sc' sc'',
      runOn (clearThread (enter nestingLimit)) { process := s.process, thread := a.thread } =
          (.ok (), sc') ∧
        runOn (clearOnExit .carried nestingLimit) { process := s.process, thread := a.thread } =
          (.ok (), sc'') ∧
        sc'.arrivals.map (·.value) = [.int 4, .int 3, .int 2] ∧
        (runOn liveCount sc').1 = .ok 0 ∧
        (∀ v : Variable, (runOn v.isSet sc').1 = .ok false ∧
          ∃ id sc₁, runOn current sc' = (.ok id, sc₁) ∧
            runOn (v.get (enter nestingLimit)) sc' = runOn (v.makeIn (enter nestingLimit) id) sc₁) ∧
        sc''.thread.carried? = none ∧ sc''.thread.fallback? = none := by
  intro s
  have hthread : (s.actor? "a").map (fun a =>
      ((runOn (clearThread (enter nestingLimit))
          { process := s.process, thread := a.thread }).1.toOption.isSome,
        (runOn (clearThread (enter nestingLimit))
          { process := s.process, thread := a.thread }).2.arrivals.map (·.value),
        (runOn (clearOnExit .carried nestingLimit)
          { process := s.process, thread := a.thread }).1.toOption.isSome)) =
      some (true, [.int 4, .int 3, .int 2], true) := by
    decide +kernel
  obtain ⟨a, ha, h⟩ := Option.map_eq_some_iff.1 hthread
  simp only [Prod.mk.injEq] at h
  obtain ⟨hclear, harrivals, hexit⟩ := h
  have hmem : a ∈ s.actors := Session.mem_actors ha
  have hok : ∀ {x : Except Stop Unit × Scene}, x.1.toOption.isSome = true → x = (.ok (), x.2) := by
    rintro ⟨_ | _, sc⟩ hx
    · simp [Except.toOption] at hx
    · rfl
  obtain ⟨hcleared, -⟩ := Session.cleared_of_clear {} nestingLimit switchingHook a hmem [] _ .rest
    nestingLimit _
  obtain ⟨-, hcount, hset⟩ := hcleared (hok hclear)
  obtain ⟨-, hreleased⟩ := Session.cleared_of_clear {} nestingLimit switchingHook a hmem [] _ .rest
    nestingLimit _
  refine ⟨a, hmem, _, _, hok hclear, hok hexit, harrivals, hcount, fun v => ⟨(hset v).1, ?_⟩,
    hreleased .carried rfl (hok hexit)⟩
  exact (hset v).2 [] _ [] .rest rfl (by simp) (enter nestingLimit)

end ThreadSlots
