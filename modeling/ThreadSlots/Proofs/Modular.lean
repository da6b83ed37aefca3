import ThreadSlots.Proofs.Course

/-!
# Properties of actions, part by part

A property of actions is `Modular` if an action has it whose parts have it, and if it is a matter
neither of counters and watchers nor of names. What a command does besides reading and writing
stored values then needs no proof of its own (`Modular.watchCommand`, `Modular.processCommand`), and
what it does with a variable comes down to a few steps (`Operates`, `Modular.access`).
-/

namespace ThreadSlots

open Storage

/-- What of the process concerns its variables and their values. -/
def Process.lasting (p : Process) :=
  (p.register, p.draws, p.epoch)

/-- What of a thread concerns its tables. -/
def Thread.lasting (t : Thread) :=
  (t.tables, t.nextTable, t.locals.seen, t.interrupted, t.filled)

/-- A property that an action has if its parts have it, and that no change makes it lose which
concerns neither variables nor their values. -/
structure Modular (P : {α : Type} → Storage α → Prop) : Prop where
  /-- What comes next may rely on what the first action's results are like. -/
  bind_of : ∀ {α β : Type} {Q : α → Prop} {x : Storage α} {f : α → Storage β}, P x → Yields Q x →
    (∀ a, Q a → P (f a)) → P (x >>= f)
  like : ∀ {α : Type} {x : Storage α}, (∀ sc : Scene, sc.Like (runOn x sc).2) → P x
  /-- An initializer is seen to have ended. -/
  initialized : ∀ {handle : Nat} {value : Value}, P (Storage.emit (.initialized handle value))
  initializerPanicked : ∀ {handle : Nat}, P (Storage.emit (.initializerPanicked handle))
  modifyProcess : ∀ {f : Process → Process}, (∀ p : Process, (f p).lasting = p.lasting) →
    P (Storage.modifyProcess f)
  modifyThread : ∀ {f : Thread → Thread}, (∀ t : Thread, (f t).lasting = t.lasting) →
    P (Storage.modifyThread f)

/-- The steps of the operations on a variable have the property. -/
structure Operates (P : {α : Type} → Storage α → Prop) (enter : Enter) (v : Variable) : Prop where
  putIn : ∀ id {value : Value}, value.kind = v.kind → ∀ {fate},
    fate = .returned ∨ fate = .overwritten → P (v.putIn id value fate)
  takeIn : ∀ id, P (v.takeIn id)
  removeIn : ∀ id, P (v.removeIn enter id)
  storeIn : ∀ id {entry : Option Value}, (∀ value ∈ entry, value.kind = v.kind) →
    P (v.storeIn enter id entry)
  makeInitial : P (v.makeInitial enter)

/-- An initial value is of the variable's type. -/
theorem Variable.kind_makeInitial (enter : Enter) (v : Variable) :
    Yields (·.kind = v.kind) (v.makeInitial enter) := by
  unfold Variable.makeInitial
  refine .bind fun result => .bind fun n => ?_
  cases v.initial.outcome n result with
  | ok made =>
    have hfit : (v.kind.fit made).kind = v.kind := v.kind.kind_fit made
    exact .ite (.bind fun _ => .pure hfit) (.pure hfit)
  | error message => exact .ite (.bind fun _ => .panicWith _) (.panicWith _)

namespace Modular

variable {P : {α : Type} → Storage α → Prop} (hP : Modular @P) {α β : Type}

include hP

theorem of_runOn {x : Storage α} {r : Scene → Except Stop α} (h : ∀ sc, runOn x sc = (r sc, sc)) :
    P x :=
  hP.like fun sc => by
    rw [h]
    exact .refl sc

theorem pure (a : α) : P (Pure.pure a : Storage α) := hP.of_runOn fun _ => rfl

theorem bind {x : Storage α} {f : α → Storage β} (hx : P x) (hf : ∀ a, P (f a)) : P (x >>= f) :=
  hP.bind_of (Q := fun _ => True) hx (fun _ _ _ _ => trivial) fun a _ => hf a

theorem map {x : Storage α} {f : α → β} (hx : P x) : P (f <$> x) := by
  rw [map_eq_pure_bind]
  exact hP.bind hx fun _ => hP.pure _

/-- What is done in a table, if there is one. -/
theorem bind_some {x : Storage (Option TableId)} {f : TableId → Storage α} {a : α} (hx : P x)
    (hf : ∀ id, P (f id)) :
    P (do
      let some id ← x | return a
      f id) := by
  refine hP.bind hx fun id => ?_
  rcases id with _ | id
  · exact hP.pure a
  · exact hf id

theorem process : P Storage.process := hP.of_runOn fun _ => rfl

theorem thread : P Storage.thread := hP.of_runOn fun _ => rfl

theorem table (id : TableId) : P (Storage.table id) := hP.of_runOn fun _ => rfl

theorem lookup (handle : Nat) : P (ThreadSlots.lookup handle) := hP.of_runOn fun _ => rfl

theorem panicWith (message : String) : P (Storage.panicWith message : Storage α) :=
  hP.of_runOn fun _ => rfl

theorem ofExcept (e : Except StorageError α) : P (Storage.ofExcept e) := by
  cases e <;> exact hP.of_runOn fun _ => rfl

theorem count {c : Counter} (hc : c ≠ .fallbackDestroys ∧ c ≠ .variablesRegistered) :
    P (Storage.count c) :=
  hP.like fun sc => .count sc hc

theorem settings : P Storage.settings :=
  hP.like fun sc => by
    rw [runOn_settings]
    exact .settled sc

/-! ## Names of tables -/

theorem bindTable (name : String) (id : TableId) : P (ThreadSlots.bindTable name id) :=
  hP.modifyThread fun _ => rfl

theorem carried? : P Storage.carried? :=
  hP.bind (hP.modifyThread fun t => by simp [Thread.lasting]) fun _ =>
    hP.bind hP.thread fun _ => hP.pure _

theorem isCarrying : P ThreadSlots.isCarrying := hP.bind hP.carried? fun _ => hP.pure _

theorem liveCount (hcurrent? : P Storage.current?) : P ThreadSlots.liveCount := by
  refine hP.bind hcurrent? fun id => ?_
  split
  · exact hP.pure _
  · exact hP.bind (hP.of_runOn (runOn_liveSet? · _)) fun _ => hP.pure _

theorem resolve (hcurrent : P Storage.current) (place : Place) : P place.resolve := by
  cases place with
  | ambient => exact hP.map hcurrent
  | table name => exact hP.of_runOn fun _ => rfl

theorem resolve? (hcurrent? : P Storage.current?) (place : Place) : P place.resolve? := by
  cases place with
  | ambient => exact hcurrent?
  | table name => exact hP.of_runOn fun _ => rfl

theorem tableCommand (hcurrent : P Storage.current) (hcurrent? : P Storage.current?)
    (hnew : ∀ name policy raw, P (TableCommand.run (.new name policy raw))) (op : TableCommand) :
    P op.run := by
  cases op with
  | new name policy raw => exact hnew name policy raw
  | current name =>
    exact hP.bind hcurrent fun id => hP.bind (hP.bindTable name id) fun _ => hP.pure _
  | currentIfSet name =>
    exact hP.bind_some hcurrent? fun id => hP.bind (hP.bindTable name id) fun _ => hP.pure _
  | copy source name =>
    refine hP.bind hP.thread fun t => ?_
    split
    · exact hP.bind (hP.bindTable name _) fun _ => hP.pure _
    · exact hP.pure _
  | drop name =>
    exact hP.bind hP.thread fun t => hP.bind (hP.modifyThread fun _ => rfl) fun _ => hP.pure _
  | same a b =>
    refine hP.bind hP.thread fun t => ?_
    split
    · refine hP.bind hP.thread fun t => ?_
      split <;> exact hP.pure _
    · exact hP.pure _
  | info name =>
    refine hP.bind hP.thread fun t => ?_
    split
    · exact hP.bind (hP.table _) fun _ => hP.pure _
    · exact hP.pure _
  | peek name n =>
    refine hP.bind hP.thread fun t => ?_
    split
    · exact hP.bind (hP.ofExcept _) fun _ => hP.bind (hP.table _) fun _ => hP.pure _
    · exact hP.pure _

/-! ## Variables -/

section

variable {enter : Enter} {v : Variable}

theorem runHook (hnested : ∀ hook nested, v.onRemoval = some hook → hook.nested = some nested →
    ∀ value, P (enter (nested value))) (cell : Option Cell) : P (v.runHook enter cell) := by
  unfold Variable.runHook
  split
  · next hook value hhook _ =>
    unfold Hook.run
    cases hn : hook.nested
    case' some => refine hP.bind (hnested hook _ hhook hn value) fun _ => ?_
    all_goals
      cases hook.panics value with
      | none => exact hP.pure _
      | some message => exact hP.panicWith _
  · exact hP.pure _

theorem runNested {initial : Initializer} (hnested : ∀ s, initial.nested = some s → P (enter s)) :
    P (initial.runNested enter) := by
  unfold Initializer.runNested
  split
  · next s hs => exact hnested s hs
  · exact hP.pure _

theorem makeInitial (hnested : ∀ s, v.initial.nested = some s → P (enter s)) (hdraw : P v.draw) :
    P (v.makeInitial enter) := by
  unfold Variable.makeInitial
  refine hP.bind (hP.runNested hnested) fun result => hP.bind hdraw fun n => ?_
  cases v.initial.outcome n result with
  | ok made =>
    dsimp only
    split
    · exact hP.bind hP.initialized fun _ => hP.pure _
    · exact hP.pure _
  | error message =>
    dsimp only
    split
    · exact hP.bind hP.initializerPanicked fun _ => hP.panicWith _
    · exact hP.panicWith _

variable (hv : Operates @P enter v)

include hv

theorem setIn (id : TableId) {value : Value} (hkind : value.kind = v.kind) :
    P (v.setIn id value) :=
  hP.bind (hv.putIn id hkind (.inr rfl)) fun _ => hP.pure _

theorem replaceIn (id : TableId) {value : Value} (hkind : value.kind = v.kind) :
    P (v.replaceIn id value) :=
  hP.bind (hv.putIn id hkind (.inl rfl)) fun _ => hP.pure _

theorem getIn (id : TableId) : P (v.getIn enter id) := by
  refine hP.bind (hP.table id) fun t => ?_
  split
  · exact hP.pure _
  · refine hP.bind (hP.count (by decide)) fun _ =>
      hP.bind_of hv.makeInitial (v.kind_makeInitial enter) fun value hkind => ?_
    exact hP.bind (hv.putIn id hkind (.inr rfl)) fun _ => hP.pure _

theorem withIn (id : TableId) {body : Option (Value → Script)}
    (hbody : ∀ nested, body = some nested → ∀ value, P (enter (nested value))) :
    P (v.withIn enter id body) := by
  refine hP.bind (hP.getIn hv id) fun value => ?_
  split
  · next nested => exact hP.bind (hbody nested rfl value) fun _ => hP.pure _
  · exact hP.pure _

theorem access (hcurrent : P Storage.current) (hcurrent? : P Storage.current?) (place : Place)
    {op : Access}
    (hbody : ∀ nested, op = .withValue (some nested) → ∀ value, P (enter (nested value))) :
    P (op.run enter v place) := by
  have hresolve := hP.resolve hcurrent place
  have hresolve? := hP.resolve? hcurrent? place
  cases op with
  | get => exact hP.bind_some hresolve fun id => hP.bind (hP.getIn hv id) fun _ => hP.pure _
  | withValue body =>
    refine hP.bind_some hresolve fun id => hP.bind (hP.withIn hv id fun nested hn => ?_) fun _ =>
      hP.pure _
    exact hbody nested (by rw [hn])
  | set value =>
    exact hP.bind_some hresolve fun id =>
      hP.bind (hP.setIn hv id (v.kind.kind_read value)) fun _ => hP.pure _
  | replace value =>
    exact hP.bind_some hresolve fun id =>
      hP.bind (hP.replaceIn hv id (v.kind.kind_read value)) fun _ => hP.pure _
  | store entry =>
    refine hP.bind_some hresolve fun id => hP.bind (hv.storeIn id ?_) fun _ => hP.pure _
    simp
  | take => exact hP.bind_some hresolve? fun id => hP.bind (hv.takeIn id) fun _ => hP.pure _
  | remove => exact hP.bind_some hresolve? fun id => hP.bind (hv.removeIn id) fun _ => hP.pure _
  | isSet =>
    exact hP.bind_some hresolve? fun id =>
      hP.bind (hP.bind (hP.table id) fun _ => hP.pure _) fun _ => hP.pure _

end

section

variable {enter : Enter} (handle n : Nat)
  (haccess : ∀ h, handle ≤ h → h < handle + n → ∀ op : Access, (∀ body, op ≠ .withValue body) →
    P (accessHandle enter h .ambient op))

include haccess

theorem setRow (factor : Int) : P (setRow enter factor handle n) := by
  induction n generalizing handle with
  | zero => exact hP.pure _
  | succ n ih =>
    have hrest := ih (handle + 1) fun h hle hlt => haccess h (by omega) (by omega)
    refine hP.bind (haccess handle (by omega) (by omega) _ (by simp)) fun reply => ?_
    split
    · exact hrest
    · exact hrest
    · exact hP.pure _

theorem getRow : P (getRow enter handle n) := by
  induction n generalizing handle with
  | zero => exact hP.pure _
  | succ n ih =>
    have hrest := ih (handle + 1) fun h hle hlt => haccess h (by omega) (by omega)
    exact hP.bind (haccess handle (by omega) (by omega) _ (by simp)) fun _ =>
      hP.bind hrest fun _ => hP.pure _

end

/-! ## Handles -/

theorem slotOf (enter : Enter) (handle : Nat) : P (Command.run enter (.slotOf handle)) := by
  refine hP.bind (hP.lookup handle) fun v => ?_
  split <;> exact hP.pure _

theorem describe (enter : Enter) (handle : Nat) : P (Command.run enter (.describe handle)) := by
  refine hP.bind (hP.lookup handle) fun v => ?_
  split <;> exact hP.pure _

theorem compare (enter : Enter) (a b : Nat) : P (Command.run enter (.compare a b)) := by
  refine hP.bind (hP.lookup a) fun x => ?_
  split
  · refine hP.bind (hP.lookup b) fun y => ?_
    split <;> exact hP.pure _
  · exact hP.pure _

theorem declareRow {kind : Kind} {initial : Initializer} {hook : Option Hook}
    (hdeclare : P (ThreadSlots.declare kind initial hook)) (n : Nat) :
    P (ThreadSlots.declareRow kind initial hook n) := by
  induction n with
  | zero => exact hP.bind hdeclare fun _ => hP.pure _
  | succ n ih => exact hP.bind ih fun _ => hP.bind hdeclare fun _ => hP.pure _

theorem drop (enter : Enter) {handle : Nat}
    (hunbind : P (Storage.modifyProcess fun p => { p with byHandle := p.byHandle.erase handle })) :
    P (Command.run enter (.drop handle)) :=
  hP.bind (hP.lookup handle) fun _ => hP.bind hunbind fun _ => hP.pure _

/-! ## Watchers and the process -/

theorem watch (watcher : Nat) (job : Job) : P (Storage.watch watcher job) := by
  unfold Storage.watch
  refine hP.bind hP.thread fun t => ?_
  rcases t.sentinel with _ | watchers | _
  · exact hP.bind (hP.modifyThread fun _ => rfl) fun _ => hP.modifyProcess fun _ => rfl
  · dsimp only
    split
    · exact hP.bind (hP.modifyThread fun _ => rfl) fun _ => hP.modifyProcess fun _ => rfl
    · exact hP.modifyProcess fun _ => rfl
  · refine hP.bind (hP.modifyProcess fun p => ?_) fun _ => ?_
    · cases job <;> rfl
    · split
      · exact hP.panicWith _
      · exact hP.pure _

theorem awaitWorkers : P ThreadSlots.awaitWorkers := hP.like fun sc => .settle sc

theorem watchCommand (op : WatchCommand) : P op.run := by
  cases op with
  | trackedThreads => exact hP.bind hP.process fun _ => hP.pure _
  | awaitTracked n => exact hP.bind hP.awaitWorkers fun _ => hP.bind hP.process fun _ => hP.pure _
  | new name => exact hP.bind (hP.modifyProcess fun _ => rfl) fun _ => hP.pure _
  | watch name label panics =>
    refine hP.bind hP.process fun p => ?_
    split
    · exact hP.bind (hP.watch _ _) fun _ => hP.pure _
    · exact hP.pure _
  | unwatch name target =>
    refine hP.bind hP.process fun p => ?_
    split
    · cases target
      case' none => refine hP.bind hP.thread fun _ => hP.bind (hP.pure _) fun id => ?_
      case' some => refine hP.bind hP.process fun _ => hP.bind (hP.pure _) fun id => ?_
      all_goals
        cases id with
        | none => exact hP.pure _
        | some id => exact hP.bind (hP.modifyProcess fun _ => rfl) fun _ => hP.pure _
    · exact hP.pure _
  | count name | isActive name =>
    refine hP.bind hP.process fun p => ?_
    split
    · exact hP.bind hP.process fun _ => hP.pure _
    · exact hP.pure _
  | await name limited =>
    refine hP.bind hP.process fun p => ?_
    split
    · exact hP.bind hP.awaitWorkers fun _ => hP.bind hP.process fun _ => hP.pure _
    · exact hP.pure _
  | jobs =>
    exact hP.bind hP.process fun _ => hP.bind (hP.modifyProcess fun _ => rfl) fun _ => hP.pure _

theorem processCommand (hburn : ∀ n, P (ProcessCommand.run (.burn n))) (op : ProcessCommand) :
    P op.run := by
  cases op with
  | tally => exact hP.bind hP.process fun _ => hP.pure _
  | supply => exact hP.bind hP.process fun _ => hP.pure _
  | burn n => exact hburn n
  | settings => exact hP.bind hP.settings fun _ => hP.pure _
  | policy => exact hP.bind hP.settings fun _ => hP.pure _
  | environmentSettings => exact hP.bind hP.process fun _ => hP.pure _
  | install c =>
    refine hP.bind hP.process fun p => ?_
    split
    · exact hP.pure _
    · exact hP.bind (hP.modifyProcess fun _ => rfl) fun _ => hP.pure _

end Modular

end ThreadSlots
