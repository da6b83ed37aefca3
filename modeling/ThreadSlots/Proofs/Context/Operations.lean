import ThreadSlots.Proofs.Context.Steps
import ThreadSlots.Proofs.LocalCommands

/-!
# Operations on the thread of a context

Each operation on a variable does the same as its ambient form, where the code that it calls back is the
ambient form of what it calls back on the other side. Here the two ways to name the thread's table meet:
on the thread of a context both find the same one (`Context.resolve`).
-/

namespace ThreadSlots

open Storage

namespace Context

open Scene (Recast)

variable {id i : TableId} {v : Variable}

/-! ## Writing without callbacks -/

theorem putIn (i : TableId) (hv : v.Only Command.Stays) (value : Value) (fate : Fate) :
    Coupled (Recast id) (fun c d => d = c.map Cell.ambientForm) (v.putIn i value fate)
      (v.ambientForm.putIn i value fate) := by
  refine .bind (store_value i v.slot value) fun stored _ hs => ?_
  subst hs
  refine .bind (partFrom v.slot stored.previous fate) fun _ _ _ => ?_
  exact .ite (.bind (track i hv) fun _ _ _ => .pure rfl) (.pure rfl)

theorem setIn (i : TableId) (hv : v.Only Command.Stays) (value : Value) :
    Coupled (Recast id) (fun _ _ => True) (v.setIn i value) (v.ambientForm.setIn i value) :=
  .bind (putIn i hv value .overwritten) fun _ _ _ => .pure trivial

theorem replaceIn (i : TableId) (hv : v.Only Command.Stays) (value : Value) :
    Coupled (Recast id) Eq (v.replaceIn i value) (v.ambientForm.replaceIn i value) :=
  .bind (putIn i hv value .returned) fun c _ hc =>
    .pure (by rw [hc]; exact (bind_value?_ambientForm c v.kind).symm)

theorem takeIn (i : TableId) (v : Variable) :
    Coupled (Recast id) Eq (v.takeIn i) (v.ambientForm.takeIn i) := by
  refine .bind (untrack i v) fun _ _ _ => .bind (unset i v.slot) fun c _ hc => ?_
  subst hc
  refine .bind (partFrom v.slot c .returned) fun _ _ _ => .pure ?_
  exact (bind_value?_ambientForm c v.kind).symm

theorem isSetIn (i : TableId) (v : Variable) :
    Coupled (Recast id) Eq (v.isSetIn i) (v.ambientForm.isSetIn i) :=
  .bind (table i) fun t _ ⟨ht, _⟩ => .pure (by rw [ht]; exact (t.contains_ambientForm v.slot).symm)

/-! ## The thread's own table -/

theorem runOn_current {sc : Scene} (h : sc.thread.carried? = some id) :
    runOn Storage.current sc = (.ok id, sc) := by
  rw [Storage.runOn_current, Scene.own?_of_carried h]
  exact congrArg (Prod.mk _) (Scene.reached_of_carried h)

theorem runOn_current? {sc : Scene} (h : sc.thread.carried? = some id) :
    runOn Storage.current? sc = (.ok (some id), sc) := by
  rw [Storage.runOn_current?, Scene.own?_of_carried h]
  exact congrArg (Prod.mk _) (Scene.reached_of_carried h)

theorem runOn_carried? {sc : Scene} (h : sc.thread.carried? = some id) :
    runOn Storage.carried? sc = (.ok (some id), sc) := by
  rw [Storage.runOn_carried?, h]
  exact congrArg (fun l => (Except.ok (some id), sc.setLocals l)) (Locals.useCarried_of_some h)

theorem carried? :
    Coupled (Recast id) (fun a b => a = some id ∧ b = some id) Storage.carried? Storage.carried? :=
  .of_runOn fun sc sc' ⟨hsc, h⟩ =>
    ⟨some id, some id, sc, sc', runOn_carried? h.carried, runOn_carried? (hsc ▸ h.carried), ⟨rfl, rfl⟩,
      hsc, h⟩

theorem current : Coupled (Recast id) (fun a b => a = id ∧ b = id) Storage.current Storage.current :=
  .of_runOn fun sc sc' ⟨hsc, h⟩ =>
    ⟨id, id, sc, sc', runOn_current h.carried, runOn_current (hsc ▸ h.carried), ⟨rfl, rfl⟩, hsc, h⟩

theorem current? :
    Coupled (Recast id) (fun a b => a = some id ∧ b = some id) Storage.current? Storage.current? :=
  .of_runOn fun sc sc' ⟨hsc, h⟩ =>
    ⟨some id, some id, sc, sc', runOn_current? h.carried, runOn_current? (hsc ▸ h.carried), ⟨rfl, rfl⟩,
      hsc, h⟩

theorem adopt : Coupled (Recast id) (fun a b => a = id ∧ b = id) Storage.adopt Storage.adopt := by
  have hrun {sc : Scene} (h : sc.thread.carried? = some id) :
      runOn Storage.adopt sc = (.ok id, sc) := by
    rw [runOn_adopt, h]
  exact .of_runOn fun sc sc' ⟨hsc, h⟩ =>
    ⟨id, id, sc, sc', hrun h.carried, hrun (hsc ▸ h.carried), ⟨rfl, rfl⟩, hsc, h⟩

/-- Discarding a carried table empties it: the thread carries the same one. -/
theorem discard : Coupled (Recast id) (fun _ _ => True) Storage.discard Storage.discard := by
  refine .bind carried? fun a b ⟨ha, hb⟩ => ?_
  subst ha hb
  refine .bind (count _) fun _ _ _ => .bind settings fun c _ hc => ?_
  subst hc
  have hblank : Coupled (Recast id) (fun _ _ => True)
      (Storage.setTable id { policy := c.sentinelPolicy })
      (Storage.setTable id (Table.ambientForm { policy := c.sentinelPolicy })) :=
    setTable id (.blank _)
  rw [Table.blank_ambientForm] at hblank
  exact .bind hblank fun _ _ _ => part _

theorem named? (name : String) :
    Coupled (Recast id) Eq (return (← Storage.thread).named? name)
      (return (← Storage.thread).named? name) :=
  .bind thread fun t _ ⟨ht, _⟩ => .pure (by rw [ht]; rfl)

theorem runOn_named {sc : Scene} (h : sc.thread.named? contextName = some id) :
    runOn (return (← Storage.thread).named? contextName) sc = (.ok (some id), sc) := by
  rw [runOn_bind, runOn_thread]
  dsimp only
  rw [h]
  rfl

theorem place_ambientForm_of_ne {name : String} (h : name ≠ contextName) :
    (Place.table name).ambientForm = .table name :=
  if_neg h

/-- The place of the context is the thread's own one. -/
theorem resolve (place : Place) :
    Coupled (Recast id) (Option.Rel Eq) place.resolve place.ambientForm.resolve := by
  cases place with
  | ambient => exact .map current fun a b ⟨ha, hb⟩ => .some (ha.trans hb.symm)
  | table name =>
    by_cases hname : name = contextName
    · subst hname
      refine .of_runOn fun sc sc' ⟨hsc, h⟩ =>
        ⟨some id, some id, sc, sc', runOn_named h.named, ?_, .some rfl, hsc, h⟩
      show runOn (some <$> Storage.current) sc' = _
      have hcarried : sc'.thread.carried? = some id := hsc ▸ h.carried
      rw [runOn_map, runOn_current hcarried]
    · rw [place_ambientForm_of_ne hname]
      exact (named? name).mono fun a _ hab => hab ▸ OwnBond.optionRel a

theorem resolve? (place : Place) :
    Coupled (Recast id) (Option.Rel Eq) place.resolve? place.ambientForm.resolve? := by
  cases place with
  | ambient => exact current?.mono fun a b ⟨ha, hb⟩ => by rw [ha, hb]; exact .some rfl
  | table name =>
    by_cases hname : name = contextName
    · subst hname
      exact .of_runOn fun sc sc' ⟨hsc, h⟩ =>
        ⟨some id, some id, sc, sc', runOn_named h.named, runOn_current? (hsc ▸ h.carried), .some rfl,
          hsc, h⟩
    · rw [place_ambientForm_of_ne hname]
      exact (named? name).mono fun a _ hab => hab ▸ OwnBond.optionRel a

/-! ## Callbacks -/

section Callbacks

variable {v : Variable} {enter enter' : Enter}
  (henter : ∀ s : Script, s.Only Command.Stays →
    Coupled (Recast id) Eq (enter s) (enter' s.ambientForm))

include henter

theorem hook_run {hook : Hook} (hv : v.Only Command.Stays) (hhook : v.onRemoval = some hook)
    (value : Value) :
    Coupled (Recast id) (fun _ _ => True) (hook.run enter value)
      (hook.ambientForm.run enter' value) := by
  unfold Hook.run
  rw [hook.nested_ambientForm, hook.panics_ambientForm]
  cases hnested : hook.nested
  case' some => refine .bind (henter _ (hv.hook hhook hnested value)) fun _ _ _ => ?_
  all_goals
    cases hook.panics value with
    | none => exact .pure trivial
    | some message => exact .throw _

theorem callHook (i : TableId) (hv : v.Only Command.Stays) (cell : Option Cell) :
    Coupled (Recast id) (fun _ _ => True) (v.callHook enter i cell)
      (v.ambientForm.callHook enter' i (cell.map Cell.ambientForm)) := by
  have hslot : v.ambientForm.slot = v.slot := rfl
  have hkind : v.ambientForm.kind = v.kind := rfl
  have honRemoval : v.ambientForm.onRemoval = v.onRemoval.map Hook.ambientForm := rfl
  unfold Variable.callHook
  rw [honRemoval, hkind, bind_value?_ambientForm]
  cases hhook : v.onRemoval with
  | none => exact partFrom v.slot cell .removed
  | some hook =>
    cases cell.bind (·.value? v.kind) with
    | none => exact partFrom v.slot cell .removed
    | some value =>
      exact .bind (part _) fun _ _ _ => .bind (emit _) fun _ _ _ => hook_run henter hv hhook value

theorem clear (i : TableId) (hv : v.Only Command.Stays) :
    Coupled (Recast id) (fun _ _ => True) (v.clear enter i) (v.ambientForm.clear enter' i) := by
  refine .bind (unset i v.slot) fun c _ hc => ?_
  subst hc
  exact callHook henter i hv c

theorem clearEach (i : TableId) (vs : List Variable) (hvs : ∀ v ∈ vs, v.Only Command.Stays) :
    Coupled (Recast id) (fun _ _ => True) (ThreadSlots.clearEach enter i vs)
      (ThreadSlots.clearEach enter' i (vs.map Variable.ambientForm)) := by
  induction vs with
  | nil => exact .pure trivial
  | cons v vs ih =>
    obtain ⟨hv, hvs⟩ := List.forall_mem_cons.1 hvs
    exact .bind (clear henter i hv) fun _ _ _ => ih hvs

theorem removeIn (i : TableId) (hv : v.Only Command.Stays) :
    Coupled (Recast id) (fun _ _ => True) (v.removeIn enter i) (v.ambientForm.removeIn enter' i) :=
  .bind (untrack i v) fun _ _ _ => clear henter i hv

theorem storeIn (i : TableId) (hv : v.Only Command.Stays) (entry : Option Value) :
    Coupled (Recast id) (fun _ _ => True) (v.storeIn enter i entry)
      (v.ambientForm.storeIn enter' i entry) := by
  have htail : ∀ stored : Table.Outcome Cell, Coupled (Recast id) (fun _ _ => True)
      (if stored.newlySet then v.track i
        else do
          if !(← v.isSetIn i) then
            v.untrack i
            v.callHook enter i stored.previous)
      (if stored.newlySet then v.ambientForm.track i
        else do
          if !(← v.ambientForm.isSetIn i) then
            v.ambientForm.untrack i
            v.ambientForm.callHook enter' i (stored.previous.map Cell.ambientForm)) := by
    intro stored
    refine .ite (track i hv) (.bind (isSetIn i v) fun isSet _ hs => ?_)
    subst hs
    refine .ite (.bind (untrack i v) fun _ _ _ => ?_) (.pure trivial)
    exact callHook henter i hv stored.previous
  refine .bind (storeEntry i v.slot entry) fun stored _ hs => ?_
  subst hs
  cases entry with
  | none => exact htail stored
  | some value => exact .bind (partFrom v.slot stored.previous .overwritten) fun _ _ _ => htail stored

omit henter in
theorem draw (v : Variable) : Coupled (Recast id) Eq v.draw v.ambientForm.draw := by
  refine .bind process fun p _ ⟨hp, _⟩ => ?_
  subst hp
  exact .bind (change ⟨fun _ _ => rfl, fun _ _ => rfl⟩) fun _ _ _ => .pure rfl

theorem makeInitial (hv : v.Only Command.Stays) :
    Coupled (Recast id) Eq (v.makeInitial enter) (v.ambientForm.makeInitial enter') := by
  have hinitial : v.ambientForm.initial = v.initial.ambientForm := rfl
  have hnested : Coupled (Recast id) Eq (v.initial.runNested enter)
      (v.initial.ambientForm.runNested enter') := by
    unfold Initializer.runNested
    rw [v.initial.nested_ambientForm]
    cases hs : v.initial.nested with
    | none => exact .pure rfl
    | some s => exact henter s (hv.initializer hs)
  unfold Variable.makeInitial
  rw [hinitial, v.initial.outcome_ambientForm, v.initial.silent_ambientForm]
  refine .bind hnested fun result _ hresult => .bind (draw v) fun n _ hn => ?_
  subst hresult hn
  split
  · exact .ite (.bind (emit _) fun _ _ _ => .pure rfl) (.pure rfl)
  · exact .ite (.bind (emit _) fun _ _ _ => .throw _) (.throw _)

theorem getIn (i : TableId) (hv : v.Only Command.Stays) :
    Coupled (Recast id) Eq (v.getIn enter i) (v.ambientForm.getIn enter' i) := by
  have hmake : Coupled (Recast id) Eq (v.makeIn enter i) (v.ambientForm.makeIn enter' i) := by
    refine .bind (count _) fun _ _ _ => .bind (makeInitial henter hv) fun value _ hvalue => ?_
    subst hvalue
    exact .bind (putIn i hv value .overwritten) fun _ _ _ => .pure rfl
  refine .bind (table i) fun t _ ⟨ht, _⟩ => ?_
  subst ht
  have hvalue : ((Table.ambientForm t).get? v.ambientForm.slot).bind (·.value? v.ambientForm.kind) =
      (Table.get? t v.slot).bind (·.value? v.kind) := by
    rw [Table.get?_ambientForm]
    exact bind_value?_ambientForm _ v.kind
  rw [hvalue]
  cases (Table.get? t v.slot).bind (·.value? v.kind) with
  | none => exact hmake
  | some value => exact .pure rfl

theorem withIn (i : TableId) (hv : v.Only Command.Stays) {body : Option (Value → Script)}
    (hbody : ∀ nested, body = some nested → ∀ value, (nested value).Only Command.Stays) :
    Coupled (Recast id) Eq (v.withIn enter i body)
      (v.ambientForm.withIn enter' i (body.map fun nested value => (nested value).ambientForm)) := by
  refine .bind (getIn henter i hv) fun value _ hvalue => ?_
  subst hvalue
  cases body with
  | none => exact .pure rfl
  | some nested => exact .bind (henter _ (hbody _ rfl value)) fun _ _ _ => .pure rfl

/-- An operation on a variable, in the context or on the thread's own table. -/
theorem access (hv : v.Only Command.Stays) (place : Place) {op : Access}
    (hbody : ∀ nested, op = .withValue (some nested) → ∀ value, (nested value).Only Command.Stays) :
    Coupled (Recast id) Eq (op.run enter v place)
      (op.ambientForm.run enter' v.ambientForm place.ambientForm) := by
  cases op with
  | get =>
    refine .bind_some (resolve place) rfl fun i _ hi => ?_
    subst hi
    exact .bind (getIn henter i hv) fun _ _ hr => .pure (by rw [hr])
  | withValue body =>
    rw [Access.withValue_ambientForm]
    refine .bind_some (resolve place) rfl fun i _ hi => ?_
    subst hi
    refine .bind (withIn henter i hv ?_) fun _ _ hr => .pure (by rw [hr])
    intro nested hnested
    exact hbody nested (by rw [hnested])
  | set value =>
    refine .bind_some (resolve place) rfl fun i _ hi => ?_
    subst hi
    exact .bind (setIn i hv _) fun _ _ _ => .pure rfl
  | replace value =>
    refine .bind_some (resolve place) rfl fun i _ hi => ?_
    subst hi
    exact .bind (replaceIn i hv _) fun _ _ hr => .pure (by rw [hr])
  | store entry =>
    refine .bind_some (resolve place) rfl fun i _ hi => ?_
    subst hi
    exact .bind (storeIn henter i hv _) fun _ _ _ => .pure rfl
  | take =>
    refine .bind_some (resolve? place) rfl fun i _ hi => ?_
    subst hi
    exact .bind (takeIn i v) fun _ _ hr => .pure (by rw [hr])
  | remove =>
    refine .bind_some (resolve? place) rfl fun i _ hi => ?_
    subst hi
    exact .bind (removeIn henter i hv) fun _ _ _ => .pure rfl
  | isSet =>
    refine .bind_some (resolve? place) rfl fun i _ hi => ?_
    subst hi
    exact .bind (isSetIn i v) fun _ _ hr => .pure (by rw [hr])

end Callbacks

end Context

end ThreadSlots
