import ThreadSlots.Proofs.Effects

/-!
# Actions that are not refused

Most of what a thread can do is never refused, whatever the scene: it ends well, or nested code panics
(`Panics`). Nested code itself only panics, since a refusal inside it is a reply (`Panics.enter`). What
is left out here needs an index from a supply, stores something into a table, or makes tables with
values in them.

A command that is never refused does not reply that anything was either (`Frank`).
-/

namespace ThreadSlots

open Storage

/-- The action ends well or panics. -/
def Panics {α : Type} (x : Storage α) : Prop :=
  ∀ sc stop sc', runOn x sc = (.error stop, sc') → ∃ message, stop = .panicked message

namespace Panics

variable {α β : Type}

theorem of_ok {x : Storage α} (h : ∀ sc, ∃ a sc', runOn x sc = (.ok a, sc')) : Panics x := by
  intro sc stop sc' hr
  obtain ⟨a, sc₁, hok⟩ := h sc
  rw [hok] at hr
  cases hr

theorem pure (a : α) : Panics (Pure.pure a : Storage α) := of_ok fun _ => ⟨_, _, rfl⟩

theorem bind {x : Storage α} {f : α → Storage β} (hx : Panics x) (hf : ∀ a, Panics (f a)) :
    Panics (x >>= f) := by
  intro sc stop sc' hr
  obtain hrun | ⟨a, sc₁, -, hrest⟩ := runOn_bind_eq_error.1 hr
  · exact hx sc stop sc' hrun
  · exact hf a sc₁ stop sc' hrest

theorem map {x : Storage α} (f : α → β) (hx : Panics x) : Panics (f <$> x) := by
  rw [map_eq_pure_bind]
  exact bind hx fun _ => pure _

theorem ite {c : Prop} [Decidable c] {x y : Storage α} (hx : Panics x) (hy : Panics y) :
    Panics (if c then x else y) := by
  split
  · exact hx
  · exact hy

theorem panicWith (message : String) : Panics (Storage.panicWith message : Storage α) := by
  intro sc stop sc' hr
  rw [runOn_panicWith] at hr
  cases hr
  exact ⟨message, rfl⟩

theorem process : Panics Storage.process := of_ok fun _ => ⟨_, _, rfl⟩

theorem thread : Panics Storage.thread := of_ok fun _ => ⟨_, _, rfl⟩

theorem table (id : TableId) : Panics (Storage.table id) := of_ok fun _ => ⟨_, _, rfl⟩

theorem modifyProcess (f : Process → Process) : Panics (Storage.modifyProcess f) :=
  of_ok fun _ => ⟨_, _, rfl⟩

theorem modifyThread (f : Thread → Thread) : Panics (Storage.modifyThread f) :=
  of_ok fun _ => ⟨_, _, rfl⟩

theorem emit (e : Event) : Panics (Storage.emit e) := of_ok fun _ => ⟨_, _, rfl⟩

theorem count (c : Counter) : Panics (Storage.count c) := modifyProcess _

theorem settings : Panics Storage.settings := of_ok fun sc => ⟨_, _, runOn_settings sc⟩

theorem lookup (handle : Nat) : Panics (ThreadSlots.lookup handle) := of_ok fun _ => ⟨_, _, rfl⟩

/-! ## Nested code -/

/-- A refusal is a reply. -/
theorem perform (enter : Enter) (c : Command) : Panics (ThreadSlots.perform enter c) := by
  intro sc stop sc' hr
  unfold ThreadSlots.perform at hr
  rw [runOn_tryCatch] at hr
  rcases hc : runOn (c.run enter) sc with ⟨(e | message) | reply, sc₁⟩
  all_goals rw [hc] at hr
  · cases hr
  · cases hr
    exact ⟨message, rfl⟩
  · cases hr

theorem caught {x : Storage α} (h : Panics x) : Panics (Storage.caught x) := by
  intro sc stop sc' hr
  rw [runOn_caught] at hr
  rcases hx : runOn x sc with ⟨(e | message) | a, sc₁⟩
  all_goals rw [hx] at hr
  · cases hr
    exact h _ _ _ hx
  · cases hr
  · cases hr

theorem reportStep (name : String) (answer : Except String Reply) :
    Panics (ThreadSlots.reportStep name answer) := by
  cases answer with
  | ok reply => exact emit _
  | error message => exact pure ()

theorem script (enter : Enter) : ∀ s : Script, Panics (s.run enter)
  | .done result => pure result
  | .panic message => panicWith message
  | .step name c next =>
    bind (caught (perform enter c)) fun answer => bind (reportStep name answer) fun _ =>
      script enter (next answer)

theorem enter (depth : Nat) (s : Script) : Panics (ThreadSlots.enter depth s) := by
  cases depth with
  | zero => exact bind (emit _) fun _ => pure none
  | succ depth => exact script _ s

/-! ## Finding and leaving tables -/

theorem current : Panics Storage.current := of_ok fun sc => by
  rw [runOn_current]
  split <;> exact ⟨_, _, rfl⟩

theorem current? : Panics Storage.current? := of_ok fun sc => ⟨_, _, runOn_current? sc⟩

theorem discard : Panics Storage.discard := of_ok fun sc => ⟨_, _, runOn_discard sc⟩

theorem adopt : Panics Storage.adopt := of_ok fun sc => by
  rw [runOn_adopt]
  split <;> exact ⟨_, _, rfl⟩

theorem release : Panics Storage.release := of_ok fun sc => ⟨_, _, runOn_release sc⟩

theorem bindTable (name : String) (id : TableId) : Panics (ThreadSlots.bindTable name id) :=
  modifyThread _

theorem isCarrying : Panics ThreadSlots.isCarrying := of_ok fun _ => ⟨_, _, rfl⟩

theorem liveCount : Panics ThreadSlots.liveCount := by
  refine bind current? fun id => ?_
  cases id with
  | none => exact pure _
  | some id => exact bind (of_ok fun sc => ⟨_, _, runOn_liveSet? sc id⟩) fun _ => pure _

theorem resolve (place : Place) : Panics place.resolve := by
  cases place with
  | ambient => exact map _ current
  | table name => exact bind thread fun _ => pure _

theorem resolve? (place : Place) : Panics place.resolve? := by
  cases place with
  | ambient => exact current?
  | table name => exact bind thread fun _ => pure _

/-! ## Taking values out -/

theorem partFrom (id : TableId) (slot : Nat) (cell : Option Cell) (fate : Fate) :
    Panics (Storage.partFrom id slot cell fate) :=
  of_ok fun sc => ⟨_, _, runOn_partFrom sc id slot cell fate⟩

theorem unset (id : TableId) (slot : Nat) : Panics (Storage.unset id slot) :=
  of_ok fun sc => ⟨_, _, runOn_unset sc id slot⟩

theorem untrack (v : Variable) (id : TableId) : Panics (v.untrack id) := of_ok fun sc => by
  obtain ⟨sc', hrun, -⟩ := exists_runOn_untrack sc v id
  exact ⟨_, _, hrun⟩

theorem takeIn (v : Variable) (id : TableId) : Panics (v.takeIn id) :=
  bind (untrack v id) fun _ => bind (unset id _) fun _ => bind (partFrom _ _ _ _) fun _ => pure _

theorem isSetIn (v : Variable) (id : TableId) : Panics (v.isSetIn id) :=
  bind (table id) fun _ => pure _

section

variable {enter : Enter} (henter : ∀ s, Panics (enter s)) (v : Variable)

include henter

omit v in
theorem runNested (initial : Initializer) : Panics (initial.runNested enter) := by
  unfold Initializer.runNested
  split
  · exact henter _
  · exact pure none

theorem makeInitial : Panics (v.makeInitial enter) := by
  have hdraw : Panics v.draw := of_ok fun _ => ⟨_, _, rfl⟩
  unfold Variable.makeInitial
  refine bind (runNested henter v.initial) fun result => bind hdraw fun n => ?_
  cases v.initial.outcome n result with
  | ok made => exact ite (bind (emit _) fun _ => pure _) (pure _)
  | error message => exact ite (bind (emit _) fun _ => panicWith _) (panicWith _)

theorem callHook (id : TableId) (cell : Option Cell) : Panics (v.callHook enter id cell) := by
  have hrun : Panics (v.runHook enter cell) := by
    unfold Variable.runHook
    split
    · next hook value _ _ =>
      unfold Hook.run
      cases hook.nested
      case' some nested => refine bind (henter _) fun _ => ?_
      all_goals
        cases hook.panics value with
        | none => exact pure _
        | some message => exact panicWith _
    · exact pure _
  intro sc stop sc' hr
  rw [runOn_callHook] at hr
  exact hrun _ _ _ hr

theorem clear (id : TableId) : Panics (v.clear enter id) :=
  bind (unset id _) fun _ => callHook henter v id _

theorem removeIn (id : TableId) : Panics (v.removeIn enter id) :=
  bind (untrack v id) fun _ => clear henter v id

theorem clearEach (id : TableId) (vs : List Variable) : Panics (ThreadSlots.clearEach enter id vs) := by
  induction vs with
  | nil => exact pure ()
  | cons v vs ih => exact bind (clear henter v id) fun _ => ih

theorem clearTable : Panics (ThreadSlots.clearTable enter) := by
  intro sc stop sc' hr
  rw [runOn_clearTable] at hr
  split at hr
  · cases hr
  · next id _ =>
    rcases hcleared : runOn (ThreadSlots.clearEach enter id (sc.thread.table id).listed)
      (sc.detached id) with ⟨stop' | _, sc₁⟩
    all_goals
      rw [hcleared] at hr
      cases hr
    exact clearEach henter id _ _ _ _ hcleared

theorem clearThread : Panics (ThreadSlots.clearThread enter) :=
  bind (clearTable henter) fun _ => ite discard (pure _)

theorem clearAndRelease : Panics (ThreadSlots.clearAndRelease enter) :=
  bind (clearTable henter) fun _ => ite (bind release fun _ => ite discard (pure _)) (pure _)

end

/-- An exiting thread is not refused its last clearing. -/
theorem clearOnExit (kind : ThreadKind) (depth : Nat) : Panics (ThreadSlots.clearOnExit kind depth) :=
  ite (clearAndRelease (Panics.enter depth)) (pure _)

/-! ## Watchers -/

theorem watch (watcher : Nat) (job : Job) : Panics (Storage.watch watcher job) := by
  unfold Storage.watch
  refine bind thread fun t => ?_
  rcases t.sentinel with _ | watchers | _
  · exact bind (modifyThread _) fun _ => modifyProcess _
  · exact ite (bind (modifyThread _) fun _ => modifyProcess _) (modifyProcess _)
  · refine bind (modifyProcess _) fun _ => ?_
    split
    · exact panicWith _
    · exact pure _

end Panics

/-! ## Replies -/

mutual

/-- The refusal that a reply tells of. -/
def Reply.refusal? : Reply → Option StorageError
  | .refused e => some e
  | .several replies => firstRefusal? replies
  | _ => none

def firstRefusal? : List Reply → Option StorageError
  | [] => none
  | reply :: replies => reply.refusal?.or (firstRefusal? replies)

end

/-- The refusal that an action ended with, or that it answers. -/
def refusal? : Except Stop Reply → Option StorageError
  | .ok reply => reply.refusal?
  | .error (.refused e) => some e
  | .error (.panicked _) => none

/-- The refusal comes from one of the parts of an action. -/
theorem refusal?_bind_eq_some {α : Type} {x : Storage α} {f : α → Storage Reply} {sc : Scene}
    {e : StorageError} (h : refusal? (runOn (x >>= f) sc).1 = some e) :
    (∃ sc₁, runOn x sc = (.error (.refused e), sc₁)) ∨
      ∃ a sc₁, runOn x sc = (.ok a, sc₁) ∧ refusal? (runOn (f a) sc₁).1 = some e := by
  rw [runOn_bind] at h
  rcases hrun : runOn x sc with ⟨(e' | message) | a, sc₁⟩
  all_goals rw [hrun] at h
  · cases h
    exact .inl ⟨sc₁, rfl⟩
  · cases h
  · exact .inr ⟨a, sc₁, rfl, h⟩

/-- The action is not refused, and does not reply that anything was. -/
def Frank (x : Storage Reply) : Prop := ∀ sc, refusal? (runOn x sc).1 = none

namespace Frank

theorem pure {reply : Reply} (h : reply.refusal? = none) : Frank (Pure.pure reply) := fun _ => h

theorem bind {α : Type} {x : Storage α} {f : α → Storage Reply} (hx : Panics x)
    (hf : ∀ a, Frank (f a)) : Frank (x >>= f) := by
  intro sc
  rw [runOn_bind]
  rcases hrun : runOn x sc with ⟨stop | a, sc₁⟩
  · obtain ⟨message, rfl⟩ := hx sc _ _ hrun
    rfl
  · exact hf a sc₁

/-- A watcher is named. -/
theorem bind_watcher {name : String} {f : Nat → Storage Reply} (hf : ∀ i, Frank (f i)) :
    Frank (do
      let some i := (← process).watcherNames.lookup name | return .noWatcher
      f i) := by
  refine bind .process fun p => ?_
  split
  · exact hf _
  · exact pure rfl

/-- A table is found, if there is one. -/
theorem bind_resolve? {place : Place} {reply : Reply} {f : TableId → Storage Reply}
    (hreply : reply.refusal? = none) (hf : ∀ id, Frank (f id)) :
    Frank (do
      let some id ← place.resolve? | return reply
      f id) := by
  refine bind (.resolve? place) fun id => ?_
  cases id with
  | none => exact pure hreply
  | some id => exact hf id

theorem watchCommand (op : WatchCommand) : Frank op.run := by
  have hawait : Panics awaitWorkers := .modifyProcess _
  cases op with
  | trackedThreads => exact bind .process fun _ => pure rfl
  | awaitTracked n => exact bind hawait fun _ => bind .process fun _ => pure rfl
  | new name => exact bind (.modifyProcess _) fun _ => pure rfl
  | watch name label panics => exact bind_watcher fun i => bind (.watch i _) fun _ => pure rfl
  | unwatch name target =>
    refine bind_watcher fun i => ?_
    cases target
    case' none => refine bind .thread fun _ => bind (.pure _) fun id => ?_
    case' some => refine bind .process fun _ => bind (.pure _) fun id => ?_
    all_goals
      cases id with
      | none => exact pure rfl
      | some id => exact bind (.modifyProcess _) fun _ => pure rfl
  | count name => exact bind_watcher fun i => bind .process fun _ => pure rfl
  | isActive name => exact bind_watcher fun i => bind .process fun _ => pure rfl
  | await name limited =>
    exact bind_watcher fun i => bind hawait fun _ => bind .process fun _ => pure rfl
  | jobs => exact bind .process fun _ => bind (.modifyProcess _) fun _ => pure rfl

theorem upkeep {enter : Enter} (henter : ∀ s, Panics (enter s)) (op : Upkeep) :
    Frank (op.run enter) := by
  cases op with
  | clear => exact bind (.clearThread henter) fun _ => pure rfl
  | destroy =>
    exact bind (.bind (.modifyProcess _) fun _ => .count _) fun _ => pure rfl
  | discard => exact bind .discard fun _ => pure rfl
  | isCarrying => exact bind .isCarrying fun _ => pure rfl
  | liveCount => exact bind .liveCount fun _ => pure rfl
  | hasTable => exact bind .current? fun _ => pure rfl
  | threadName => exact bind .thread fun _ => pure rfl
  | adopt name =>
    exact bind .adopt fun id => bind (.bindTable name id) fun _ => bind .isCarrying fun _ =>
      bind (.table id) fun _ => pure rfl
  | adoptSize =>
    exact bind .adopt fun id => bind .isCarrying fun _ => bind (.table id) fun _ => pure rfl
  | release name =>
    refine bind .release fun id => ?_
    split
    · exact bind (.bindTable name _) fun _ => pure rfl
    · exact pure rfl

/-! ## Handles -/

section

variable (enter : Enter) (handle : Nat)

theorem slotOf : Frank (Command.run enter (.slotOf handle)) := by
  refine bind (.lookup handle) fun v => ?_
  split <;> exact pure rfl

theorem describe : Frank (Command.run enter (.describe handle)) := by
  refine bind (.lookup handle) fun v => ?_
  split <;> exact pure rfl

theorem duplicate : Frank (Command.run enter (.duplicate handle)) := by
  have htake : Panics takeHandle := .of_ok fun _ => ⟨_, _, rfl⟩
  refine bind (.lookup handle) fun v => ?_
  split
  · exact bind htake fun _ => bind (.modifyProcess _) fun _ => pure rfl
  · exact pure rfl

theorem drop : Frank (Command.run enter (.drop handle)) :=
  bind (.lookup handle) fun _ => bind (.modifyProcess _) fun _ => pure rfl

theorem compare (other : Nat) : Frank (Command.run enter (.compare handle other)) := by
  refine bind (.lookup handle) fun v => ?_
  split
  · refine bind (.lookup other) fun w => ?_
    split <;> exact pure rfl
  · exact pure rfl

end

end Frank

end ThreadSlots
