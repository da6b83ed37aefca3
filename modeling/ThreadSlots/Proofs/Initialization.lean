import Mathlib.Control.Monad.Basic
import ThreadSlots.Proofs.Panics
import ThreadSlots.Proofs.Readiness
import ThreadSlots.Proofs.Untouched

/-!
# Initialization when needed

A variable whose initializer leaves the variable itself alone is initialized exactly when it is read
unset, in a table that agrees with its live set (`Scene.Initializes`): reading a set variable runs no
initializer, reading an unset one runs it once and keeps its value, and a panic of the initializer
leaves the variable unset and keeps all that was done before it. This holds of a table that the
operation is given and of the thread's own one, which is made when there is none
(`Session.initialized_when_needed`).

The value is stored in the table that was found before the initializer ran. It is still there, and
still the thread's own, since nested code leaves a variable alone to which it has no handle
(`Avoids.enter`); and it can take the value, since it was grown from a new one (`keeps_ready`).
-/

namespace ThreadSlots

open Std (ExtTreeMap)
open Storage

/-! ## The initializer -/

namespace Scene

/-- The scene once one more initialization was counted. -/
def counted (sc : Scene) : Scene := { sc with process := sc.process.count .initializations }

/-- The scene once the initializer made a value or panicked instead. -/
def drawn (sc : Scene) (v : Variable) (news : List Event) : Scene :=
  { sc with
    process :=
      { sc.process with
        draws := sc.process.draws.insert v.slot (sc.process.draws.getD v.slot 0 + 1) }
    events := news ++ sc.events }

theorem like_counted (sc : Scene) : sc.Like sc.counted := .count sc (by decide)

end Scene

/-- The initializer runs its nested code. Unless that panics, it makes a value of the variable's type
or panics itself. -/
theorem makeInitial_cases (enter : Enter) (v : Variable) (sc : Scene) :
    (∃ stop sc₁, runOn (v.initial.runNested enter) sc = (.error stop, sc₁) ∧
      runOn (v.makeInitial enter) sc = (.error stop, sc₁)) ∨
    ∃ sc₁ news result, runOn (v.initial.runNested enter) sc = (.ok result, sc₁) ∧
      ((∃ x : Value, x.kind = v.kind ∧
          runOn (v.makeInitial enter) sc = (.ok x, sc₁.drawn v news)) ∨
        ∃ message, runOn (v.makeInitial enter) sc = (.error (.panicked message), sc₁.drawn v news)) := by
  have hdraw : ∀ sc₁, runOn v.draw sc₁ =
      (.ok (sc₁.process.draws.getD v.slot 0), sc₁.drawn v []) := fun _ => rfl
  unfold Variable.makeInitial
  rw [runOn_bind]
  rcases runOn (v.initial.runNested enter) sc with ⟨stop | result, sc₁⟩
  · exact .inl ⟨stop, sc₁, rfl, rfl⟩
  · right
    simp only [runOn_bind, hdraw]
    cases v.initial.outcome (sc₁.process.draws.getD v.slot 0) result with
    | ok made =>
      cases v.initial.silent with
      | true => exact ⟨sc₁, [], result, rfl, .inl ⟨_, v.kind.kind_fit made, rfl⟩⟩
      | false =>
        exact ⟨sc₁, [.initialized v.handle (v.kind.fit made)], result, rfl,
          .inl ⟨_, v.kind.kind_fit made, rfl⟩⟩
    | error message =>
      cases v.initial.silent with
      | true => exact ⟨sc₁, [], result, rfl, .inr ⟨message, rfl⟩⟩
      | false => exact ⟨sc₁, [.initializerPanicked v.handle], result, rfl, .inr ⟨message, rfl⟩⟩

/-! ## What an initialization leaves behind -/

/-- The variable was initialized: its value is in the table, where it is listed, and the initializer
made one value more than before. -/
structure Scene.Initialized (v : Variable) (id : TableId) (x : Value) (sc sc' : Scene) : Prop where
  kind : x.kind = v.kind
  value : (sc'.thread.table id).get? v.slot = some (.value x)
  tracked : (sc'.thread.table id).live[v.slot]? = some v
  once : sc'.process.draws.getD v.slot 0 = sc.process.draws.getD v.slot 0 + 1

/-- The initializer panicked: the variable is neither set nor listed in the table, and apart from the
count of calls and the event that the call may leave, everything is as the nested code left it. -/
structure Scene.Abandoned (v : Variable) (id : TableId) (enter : Enter) (sc sc' : Scene) : Prop where
  unset : (sc'.thread.table id).get? v.slot = none
  untracked : (sc'.thread.table id).live[v.slot]? = none
  kept : sc' = (runOn (v.initial.runNested enter) sc.counted).2 ∨
    ∃ news, sc' = (runOn (v.initial.runNested enter) sc.counted).2.drawn v news
  once : sc'.process.draws.getD v.slot 0 ≤ sc.process.draws.getD v.slot 0 + 1

/-- The table agrees with its live set, and the initializer leaves its variable alone. -/
structure Scene.Poised (K : Nat → Prop) (v : Variable) (id : TableId) (sc : Scene) : Prop where
  sound : sc.Sound
  ready : sc.thread.Ready
  knows : sc.process.Knows v
  apart : sc.process.Apart K v
  nested : ∀ s, v.initial.nested = some s → s.Only (Command.Within K)
  made : id < sc.thread.nextTable
  agrees : (sc.thread.table id).Agrees

namespace Scene.Poised

variable {K : Nat → Prop} {v : Variable} {id : TableId} {sc sc₁ : Scene}

/-- A variable that is set has a value of its type. -/
theorem exists_value (h : sc.Poised K v id) (hset : (sc.thread.table id).contains v.slot) :
    ∃ x : Value, x.kind = v.kind ∧ (sc.thread.table id).get? v.slot = some (.value x) := by
  have hne := h.sound.process.slot_ne h.knows
  obtain ⟨u, hu⟩ := Option.isSome_iff_exists.1
    (ExtTreeMap.mem_iff_isSome_getElem?.1 ((h.agrees v.slot).2 ⟨hne, hset⟩))
  obtain ⟨he, hknown⟩ := h.sound.thread.lists id v.slot u hu
  obtain rfl := hknown.eq h.knows he
  obtain ⟨cell, hcell⟩ := Option.isSome_iff_exists.1 hset
  obtain ⟨x, rfl, hkind⟩ := (h.ready id).listed u.slot u cell hne hu hcell
  exact ⟨x, hkind, hcell⟩

theorem get?_eq_none (hset : ¬ (sc.thread.table id).contains v.slot) :
    (sc.thread.table id).get? v.slot = none := by
  unfold Table.contains at hset
  simpa using hset

theorem live_eq_none (h : sc.Poised K v id) (hset : ¬ (sc.thread.table id).contains v.slot) :
    (sc.thread.table id).live[v.slot]? = none :=
  ExtTreeMap.getElem?_eq_none fun hlisted => hset ((h.agrees v.slot).1 hlisted).2

/-- The nested code of the initializer leaves the variable alone. -/
theorem untouched (h : sc.Poised K v id) (limit : Nat) :
    sc.Untouched K v id (runOn (v.initial.runNested (enter limit)) sc.counted).2 := by
  have havoids : Avoids K v id sc (v.initial.runNested (enter limit)) :=
    Avoids.modular.runNested fun nested hnested => .enter limit (h.nested nested hnested)
  exact havoids _ ((Untouched.refl h.sound.process h.knows h.apart h.made).like sc.like_counted)

theorem getD_draws (h : sc.Untouched K v id sc₁) :
    sc₁.process.draws.getD v.slot 0 = sc.process.draws.getD v.slot 0 := by
  rw [ExtTreeMap.getD_eq_getD_getElem?, ExtTreeMap.getD_eq_getD_getElem?, h.draws]

theorem getD_draws_drawn (h : sc.Untouched K v id sc₁) (news : List Event) :
    (sc₁.drawn v news).process.draws.getD v.slot 0 = sc.process.draws.getD v.slot 0 + 1 := by
  show (sc₁.process.draws.insert v.slot _).getD v.slot 0 = _
  rw [ExtTreeMap.getD_insert_self, getD_draws h]

theorem runOn_getIn_of_unset (hset : ¬ (sc.thread.table id).contains v.slot) (enter : Enter) :
    runOn (v.getIn enter id) sc = runOn (v.makeIn enter id) sc := by
  unfold Variable.getIn
  simp [get?_eq_none hset]

/-- The value that the initializer made is stored in the table that was found before. -/
theorem of_made (h : sc.Poised K v id) (hset : ¬ (sc.thread.table id).contains v.slot) {limit : Nat}
    {x : Value} (hmake : runOn (v.makeInitial (enter limit)) sc.counted = (.ok x, sc₁)) :
    ∃ sc₂, runOn (v.getIn (enter limit) id) sc = (.ok x, sc₂) ∧ sc.Initialized v id x sc₂ ∧
      (sc.thread.locals.Intact → sc.own? = some id → sc₂.own? = some id) := by
  have huntouched := h.untouched limit
  have hcourse : Course [] sc (runOn (v.makeInitial (enter limit)) sc.counted).2 := by
    have hcounted : Course [] sc sc.counted := Course.rest.like sc.like_counted
    exact hcounted.trans ((Walks.makeInitial (walks_enter limit)).course [] (hcounted.sound h.sound))
  have hready : Thread.Ready _ := keeps_ready.course hcourse h.sound h.ready
  have hsound := hcourse.sound h.sound
  have hknows := hcourse.knows h.sound h.knows
  have hkind : x.kind = v.kind := v.kind_makeInitial (enter limit) _ _ _ hmake
  rw [hmake] at hready hsound hknows
  obtain ⟨sc₀, news, result, hprepared, ⟨y, -, hmade⟩ | ⟨message, hmade⟩⟩ :=
    (makeInitial_cases (enter limit) v sc.counted).resolve_left fun ⟨stop, sc₀, _, hstop⟩ => by
      rw [hmake] at hstop
      cases hstop
  · rw [hmake] at hmade
    obtain ⟨rfl, rfl⟩ : x = y ∧ sc₁ = sc₀.drawn v news := by simpa using hmade
    rw [hprepared] at huntouched
    dsimp only at huntouched hready hsound hknows
    obtain ⟨-, hne, hmax, -⟩ := hsound.process.bySlot _ _ hknows
    obtain ⟨stored, hstored, -⟩ := Table.exists_insert (hready id).grown hmax (.value x)
    obtain ⟨sc₂, hput, hlike⟩ := ends_putIn (sc₀.drawn v news) .overwritten hstored
    have htable : sc₂.thread.table id = stored.track v := by
      rw [hlike.thread_table]
      exact Scene.table_setTable_self _ id _
    refine ⟨sc₂, ?_, ⟨hkind, ?_, ?_, ?_⟩, fun hi hown => ?_⟩
    · rw [runOn_getIn_of_unset hset]
      unfold Variable.makeIn
      rw [runOn_bind, runOn_count]
      dsimp only
      rw [← counted, runOn_bind, hmake]
      dsimp only
      rw [runOn_bind, hput]
      rfl
    · rw [htable, Table.get?_track hstored hne, if_pos rfl]
    · have hunset : ¬ ((sc₀.drawn v news).thread.table id).contains v.slot := by
        unfold Table.contains at *
        rwa [show (sc₀.drawn v news).thread.table id = sc₀.thread.table id from rfl,
          huntouched.same.cell]
      rw [htable, Table.live_track hstored hne, if_neg hunset, ExtTreeMap.getElem?_insert_self]
    · have hdraws : sc₂.process.draws = (sc₀.drawn v news).process.draws :=
        (congrArg (·.process.draws) hlike).symm
      rw [hdraws, getD_draws_drawn huntouched]
    · rw [hlike.own?]
      exact huntouched.own hi hown
  · rw [hmake] at hmade
    cases hmade

/-- A panic of the initializer leaves the table without the variable. -/
theorem of_panicked (h : sc.Poised K v id) (hset : ¬ (sc.thread.table id).contains v.slot)
    {limit : Nat} {stop : Stop}
    (hmake : runOn (v.makeInitial (enter limit)) sc.counted = (.error stop, sc₁)) :
    (∃ message, stop = .panicked message) ∧ runOn (v.getIn (enter limit) id) sc = (.error stop, sc₁) ∧
      sc.Abandoned v id (enter limit) sc₁ ∧
      (sc.thread.locals.Intact → sc.own? = some id → sc₁.own? = some id) := by
  have huntouched := h.untouched limit
  have hget : runOn (v.getIn (enter limit) id) sc = (.error stop, sc₁) := by
    rw [runOn_getIn_of_unset hset]
    unfold Variable.makeIn
    rw [runOn_bind, runOn_count]
    dsimp only
    rw [← counted, runOn_bind, hmake]
  have hunset := huntouched.same.cell.trans (get?_eq_none hset)
  have huntracked := huntouched.same.live.trans (h.live_eq_none hset)
  obtain ⟨stop', sc₀, hprepared, hstop⟩ | ⟨sc₀, news, result, hprepared, hstop⟩ :=
    makeInitial_cases (enter limit) v sc.counted
  · -- the nested code has panicked
    rw [hmake] at hstop
    obtain ⟨rfl, rfl⟩ : stop = stop' ∧ sc₁ = sc₀ := by simpa using hstop
    have hpanics : Panics (v.initial.runNested (enter limit)) :=
      .runNested (Panics.enter limit) v.initial
    rw [hprepared] at huntouched hunset huntracked
    refine ⟨hpanics _ _ _ hprepared, hget, ⟨hunset, huntracked, .inl (by rw [hprepared]), ?_⟩,
      huntouched.own⟩
    rw [getD_draws huntouched]
    exact Nat.le_succ _
  · obtain ⟨x, -, hmade⟩ | ⟨message, hmade⟩ := hstop
    · rw [hmake] at hmade
      cases hmade
    · rw [hmake] at hmade
      obtain ⟨rfl, rfl⟩ : stop = .panicked message ∧ sc₁ = sc₀.drawn v news := by simpa using hmade
      rw [hprepared] at huntouched hunset huntracked
      refine ⟨⟨message, rfl⟩, hget, ⟨hunset, huntracked, .inr ⟨news, by rw [hprepared]⟩, ?_⟩,
        huntouched.own⟩
      exact Nat.le_of_eq (getD_draws_drawn huntouched news)

end Scene.Poised

/-! ## Reading a variable -/

/-- Reading the variable in the table that is found initializes it exactly when it is not set there. -/
structure Scene.Initializes (v : Variable) (enter : Enter) (find : Storage TableId) (sc : Scene) :
    Prop where
  found : ∃ id sc₀, runOn find sc = (.ok id, sc₀)
  /-- A set variable is read as it is, and its value handed on. -/
  set : ∀ id sc₀, runOn find sc = (.ok id, sc₀) → (sc₀.thread.table id).contains v.slot →
    ∃ x, (sc₀.thread.table id).get? v.slot = some (.value x) ∧
      runOn (do v.getIn enter (← find)) sc = (.ok x, sc₀) ∧
      ∀ nested, runOn (do v.withIn enter (← find) (some nested)) sc =
        runOn (do let _ ← enter (nested x); return x : Storage Value) sc₀
  /-- The initializer of an unset one runs once; its value is stored, and handed on from there. -/
  made : ∀ id sc₀ x sc₁, runOn find sc = (.ok id, sc₀) → ¬ (sc₀.thread.table id).contains v.slot →
    runOn (v.makeInitial enter) sc₀.counted = (.ok x, sc₁) →
    ∃ sc₂, sc₀.Initialized v id x sc₂ ∧
      runOn (do v.getIn enter (← find)) sc = (.ok x, sc₂) ∧
      (∀ nested, runOn (do v.withIn enter (← find) (some nested)) sc =
        runOn (do let _ ← enter (nested x); return x : Storage Value) sc₂) ∧
      ∀ enter', runOn (do v.getIn enter' (← find)) sc₂ = (.ok x, (runOn find sc₂).2)
  /-- If it panics, so does the reading, and the next one calls the initializer again. -/
  panicked : ∀ id sc₀ stop sc₁, runOn find sc = (.ok id, sc₀) →
    ¬ (sc₀.thread.table id).contains v.slot →
    runOn (v.makeInitial enter) sc₀.counted = (.error stop, sc₁) →
    (∃ message, stop = .panicked message) ∧ sc₀.Abandoned v id enter sc₁ ∧
      runOn (do v.getIn enter (← find)) sc = (.error stop, sc₁) ∧
      (∀ nested, runOn (do v.withIn enter (← find) (some nested)) sc = (.error stop, sc₁)) ∧
      ∀ enter', runOn (do v.getIn enter' (← find)) sc₁ =
        runOn (v.makeIn enter' id) (runOn find sc₁).2

section

variable {K : Nat → Prop} {v : Variable} {id : TableId} {sc sc₀ : Scene}

/-- The table is found, and found again as long as it is the thread's own one if it was. -/
theorem Scene.Poised.initializes {find : Storage TableId} (hfind : runOn find sc = (.ok id, sc₀))
    (hagain : ∀ sc', (sc₀.thread.locals.Intact → sc₀.own? = some id → sc'.own? = some id) →
      ∃ l, runOn find sc' = (.ok id, sc'.setLocals l))
    (h : sc₀.Poised K v id) (limit : Nat) : sc.Initializes v (enter limit) find := by
  have hread : ∀ enter, runOn (do v.getIn enter (← find)) sc = runOn (v.getIn enter id) sc₀ := by
    intro enter
    rw [runOn_bind, hfind]
  have hhand : ∀ enter nested, runOn (do v.withIn enter (← find) (some nested)) sc =
      runOn (v.withIn enter id (some nested)) sc₀ := by
    intro enter nested
    rw [runOn_bind, hfind]
  refine ⟨⟨id, sc₀, hfind⟩, fun i s hi hset => ?_, fun i s x sc₁ hi hset hmake => ?_,
    fun i s stop sc₁ hi hset hmake => ?_⟩
  all_goals
    obtain ⟨rfl, rfl⟩ : id = i ∧ sc₀ = s := by simpa [hfind] using hi
  · obtain ⟨x, hkind, hvalue⟩ := h.exists_value hset
    refine ⟨x, hvalue, ?_, fun nested => ?_⟩
    · rw [hread, runOn_getIn_of_value hvalue hkind]
    · rw [hhand, runOn_withIn_of_value hvalue hkind]
  · obtain ⟨sc₂, hget, hinitialized, hown⟩ := h.of_made hset hmake
    refine ⟨sc₂, hinitialized, (hread _).trans hget, fun nested => ?_, fun enter' => ?_⟩
    · rw [hhand]
      unfold Variable.withIn
      rw [runOn_bind, hget]
    · obtain ⟨l, hl⟩ := hagain sc₂ hown
      rw [runOn_bind, hl]
      have hvalue : ((sc₂.setLocals l).thread.table id).get? v.slot = some (.value x) :=
        hinitialized.value
      exact runOn_getIn_of_value hvalue hinitialized.kind enter'
  · obtain ⟨hpanicked, hget, habandoned, hown⟩ := h.of_panicked hset hmake
    refine ⟨hpanicked, habandoned, (hread _).trans hget, fun nested => ?_, fun enter' => ?_⟩
    · rw [hhand]
      unfold Variable.withIn
      rw [runOn_bind, hget]
    · obtain ⟨l, hl⟩ := hagain sc₁ hown
      rw [runOn_bind, hl]
      refine Poised.runOn_getIn_of_unset ?_ enter'
      show ¬ (sc₁.thread.table id).contains v.slot
      unfold Table.contains
      simp [habandoned.unset]

/-- The thread's own table is found, or a blank one is made. -/
theorem exists_current (hs : sc.Sound) (hr : sc.thread.Ready) (hv : sc.process.Knows v)
    (ha : sc.process.Apart K v)
    (hnested : ∀ s, v.initial.nested = some s → s.Only (Command.Within K))
    (hintact : sc.thread.locals.Intact)
    (hagrees : ∀ id, sc.own? = some id → (sc.thread.table id).Agrees) :
    ∃ id sc₀, runOn current sc = (.ok id, sc₀) ∧ sc₀.thread.locals.Intact ∧ sc₀.own? = some id ∧
      sc₀.Poised K v id := by
  have hcourse : Course [] sc (runOn current sc).2 := Walks.current.course [] hs
  have hsound := hcourse.sound hs
  have hready : Thread.Ready _ := keeps_ready.course hcourse hs hr
  have hknows := hcourse.knows hs hv
  rw [runOn_current] at hsound hready hknows ⊢
  rcases ho : sc.own? with _ | id
  · rw [ho] at hsound hready hknows
    have hunused := Walks.unused_makeBlank hs
    exact ⟨_, _, rfl, hintact.emptied.setFallback _, Scene.own?_keep (Scene.carried?_eq_none ho) hintact _,
      hsound, hready, hknows, ha, hnested, hunused.made, hunused.blank.agrees⟩
  · rw [ho] at hsound hready hknows
    exact ⟨id, _, rfl, hintact.of_seen sc.thread.locals.seen_reached,
      sc.own?_reached.trans ho, hsound, hready, hknows, ha, hnested,
      hs.thread.made id (Thread.holds_of_own? ho), hagrees id ho⟩

end

/-- **Initialization happens when needed**: at every point of every session, nested code included, a
variable whose initializer and what it leads to use only handles that do not lead to the variable, and
neither clear the thread nor take its table away, is initialized exactly when it is read unset. This
holds of each of the thread's tables that agrees with its live set, and of the thread's own one before
the thread-locals that hold it are destroyed. -/
theorem Session.initialized_when_needed (environment : Environment) (depth : Nat)
    (steps : List Step) :
    let s := ((Session.start environment depth).run steps).2
    ∀ a ∈ s.actors, ∀ busy sc, Course busy { process := s.process, thread := a.thread } sc →
      ∀ v, sc.process.Knows v → ∀ K, sc.process.Apart K v →
        (∀ nested, v.initial.nested = some nested → nested.Only (Command.Within K)) →
        ∀ limit,
          (∀ id < sc.thread.nextTable, (sc.thread.table id).Agrees →
            sc.Initializes v (enter limit) (pure id)) ∧
          (sc.thread.locals.Intact → (∀ id, sc.own? = some id → (sc.thread.table id).Agrees) →
            sc.Initializes v (enter limit) current) := by
  intro s a ha busy sc hcourse v hv K hapart hnested limit
  have hsound : s.Sound := (Session.sound_start environment depth).run steps
  have hs₀ : Scene.Sound { process := s.process, thread := a.thread } :=
    ⟨hsound.process, hsound.threads a ha⟩
  have hs := hcourse.sound hs₀
  have hready : Thread.Ready _ :=
    keeps_ready.course hcourse hs₀ (keeps_ready.of_run environment depth steps a ha)
  refine ⟨fun id hid hagrees => ?_, fun hintact hagrees => ?_⟩
  · have hpoised : sc.Poised K v id := ⟨hs, hready, hv, hapart, hnested, hid, hagrees⟩
    exact hpoised.initializes rfl (fun sc' _ => ⟨sc'.thread.locals, rfl⟩) limit
  · obtain ⟨id, sc₀, hfind, hintact₀, hown, hpoised⟩ :=
      exists_current hs hready hv hapart hnested hintact hagrees
    refine hpoised.initializes hfind (fun sc' hkeeps => ⟨sc'.thread.locals.reached, ?_⟩) limit
    rw [runOn_current, hkeeps hintact₀ hown]
    rfl

namespace Session

/-- An initializer that sets the variable of handle 2 and has the thread carry its table. -/
def settingOther (outcome : Except String Value) : Initializer where
  nested := some (.step "set" (.access 2 .ambient (.set (.int 5))) fun _ =>
    .step "adopt" (.onThread (.adopt "own")) fun _ => .done none)
  outcome _ _ := outcome
  silent := false

/-- Two variables with such initializers, of which the second one panics then; the variable of handle
2 is set in the fallback table of the main thread. -/
def nestedInitializers : List Step :=
  [.run mainName (.declare .int (settingOther (.ok (.int 7))) none),
    .run mainName (.declare .int (settingOther (.error "boom")) none),
    .run mainName (.declare .int (.plain .int) none),
    .run mainName (.access 2 .ambient (.set (.int 1)))]

/-- All that these variables call back stays with the variable of handle 2. -/
theorem only_nestedInitializers :
    ((start {} nestingLimit).run nestedInitializers).2.process.Only (Command.Within (· = 2)) := by
  intro slot v hv
  have hslots : ((start {} nestingLimit).run nestedInitializers).2.process.bySlot.keys =
      [1, 2, 3] := by
    decide +kernel
  have hmem : slot ∈ [1, 2, 3] := Process.mem_slots hslots hv
  have hsetting : ∀ outcome, Variable.Only (Command.Within (· = 2))
      { v with initial := settingOther outcome, onRemoval := none } := by
    intro outcome s hs
    cases hs with
    | initializer h =>
      cases h
      exact .step _ (.of_leaf rfl nofun) fun _ => .step _ (.of_leaf trivial nofun) fun _ => .done _
    | hook hh => cases hh
  simp only [List.mem_cons, List.not_mem_nil, or_false] at hmem
  rcases hmem with rfl | rfl | rfl
  · cases hv
    exact hsetting _
  · cases hv
    exact hsetting _
  · cases hv
    intro s hs
    cases hs with
    | initializer h => cases h
    | hook hh => cases hh

theorem initialized_when_needed_nestedInitializers :
    let s := ((start {} nestingLimit).run nestedInitializers).2
    ∃ a ∈ s.actors, ∃ v w, s.process.Knows v ∧ s.process.Knows w ∧
      let sc : Scene := { process := s.process, thread := a.thread }
      sc.own? = some 0 ∧ sc.thread.carried? = none ∧
      sc.Initializes v (enter nestingLimit) current ∧ sc.Initializes w (enter nestingLimit) (pure 0) ∧
      (runOn (v.get (enter nestingLimit)) sc).1 = .ok (.int 7) ∧
      (runOn (w.getIn (enter nestingLimit) 0) sc).1 = .error (.panicked "boom") ∧
      (runOn (w.getIn (enter nestingLimit) 0) sc).2.thread.carried? = some 0 := by
  intro s
  have hview : ((s.actor? mainName).bind fun a => s.process.bySlot[1]?.bind fun v =>
      s.process.bySlot[2]?.map fun w =>
        let sc : Scene := { process := s.process, thread := a.thread }
        let ended := runOn (w.getIn (enter nestingLimit) 0) sc
        ((sc.own?, sc.thread.carried?, sc.thread.interrupted,
            decide (0 < sc.thread.nextTable ∧ sc.thread.locals.Intact)),
          (runOn (v.get (enter nestingLimit)) sc).1, ended.1, ended.2.thread.carried?)) =
      some ((some 0, none, false, true), .ok (.int 7), .error (.panicked "boom"), some 0) := by
    decide +kernel
  have hbound : s.process.byHandle[2]? = some 3 := by decide +kernel
  have honly := only_nestedInitializers
  have hsound : s.Sound := (sound_start {} nestingLimit).run nestedInitializers
  have hinitialized := initialized_when_needed {} nestingLimit nestedInitializers
  -- from here on the session is not evaluated any more
  have hs : ((start {} nestingLimit).run nestedInitializers).2 = s := rfl
  rw [hs] at hinitialized honly
  clear_value s
  obtain ⟨a, ha, hview⟩ := Option.bind_eq_some_iff.1 hview
  obtain ⟨v, hv, hview⟩ := Option.bind_eq_some_iff.1 hview
  obtain ⟨w, hw, hview⟩ := Option.map_eq_some_iff.1 hview
  simp only [Prod.mk.injEq, decide_eq_true_eq] at hview
  obtain ⟨⟨hown, hcarried, hinterrupted, hmade, hintact⟩, hget, hboom, hcarries⟩ := hview
  have hmem : a ∈ s.actors := mem_actors ha
  have hagrees : (a.thread.table 0).Agrees :=
    hsound.agrees a hmem hinterrupted 0 (Thread.holds_of_own? hown) (by simp)
  -- what is true of every variable in one of the first two slots
  have hknown : ∀ {slot : Nat} {u : Variable}, slot ≠ 3 → s.process.bySlot[slot]? = some u →
      s.process.Knows u ∧ s.process.Apart (· = 2) u := by
    intro slot u hslot hu
    obtain ⟨he, -⟩ := hsound.process.bySlot slot u hu
    subst he
    refine ⟨hu, fun handle other hhandle hother => ?_⟩
    subst hhandle
    rw [hbound] at hother
    cases hother
    exact ⟨Ne.symm hslot, fun t ht => honly 3 t ht⟩
  obtain ⟨hvknown, hvapart⟩ := hknown (by decide) hv
  obtain ⟨hwknown, hwapart⟩ := hknown (by decide) hw
  obtain ⟨-, hvown⟩ := hinitialized a hmem [] _ .rest v hvknown _ hvapart
    (fun nested h => (honly 1 v hv).initializer h) nestingLimit
  obtain ⟨hwgiven, -⟩ := hinitialized a hmem [] _ .rest w hwknown _ hwapart
    (fun nested h => (honly 2 w hw).initializer h) nestingLimit
  refine ⟨a, hmem, v, w, hvknown, hwknown, hown, hcarried, hvown ?_ ?_, hwgiven 0 hmade hagrees,
    hget, hboom, hcarries⟩
  · exact hintact
  · intro id hid
    obtain rfl : id = 0 := Option.some.inj (hid.symm.trans hown)
    exact hagrees

end Session

end ThreadSlots
