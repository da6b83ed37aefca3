import ThreadSlots.Proofs.Callbacks
import ThreadSlots.Proofs.Effects

/-!
# Code in its ambient form

A thread that was started with its context can reach its own table in two ways: as the ambient one, and
as the explicit table `ctx`. Code in its ambient form only does the former, at every depth of nested
code (`Script.ambientForm`). Two programs that differ in nothing else have the same ambient form.

Variables carry code, and tables list variables, so a state has an ambient form too. It differs from the
state in no value, slot, name or count (`Table.get?_ambientForm`, `Cell.value?_ambientForm`), and writing
to a table commutes with it (`Table.insert_ambientForm`).
-/

namespace ThreadSlots

open Std (ExtTreeMap)

/-! ## Code -/

/-- The place, with the thread's own table for the context. -/
def Place.ambientForm : Place → Place
  | .ambient => .ambient
  | .table name => if name = contextName then .ambient else .table name

mutual

/-- The script, in which every operation on a variable in the context is one on the thread's own
table. -/
def Script.ambientForm : Script → Script
  | .done result => .done result
  | .panic message => .panic message
  | .step name c next => .step name c.ambientForm fun answer => (next answer).ambientForm

def Initializer.ambientForm : Initializer → Initializer
  | { nested := none, outcome, silent } => { nested := none, outcome, silent }
  | { nested := some s, outcome, silent } => { nested := some s.ambientForm, outcome, silent }

def Hook.ambientForm : Hook → Hook
  | { nested := none, panics } => { nested := none, panics }
  | { nested := some nested, panics } =>
    { nested := some fun value => (nested value).ambientForm, panics }

def Access.ambientForm : Access → Access
  | .withValue (some body) => .withValue (some fun value => (body value).ambientForm)
  | op => op

def Command.ambientForm : Command → Command
  | .declare kind initial none => .declare kind initial.ambientForm none
  | .declare kind initial (some hook) => .declare kind initial.ambientForm (some hook.ambientForm)
  | .declareRow n kind initial none => .declareRow n kind initial.ambientForm none
  | .declareRow n kind initial (some hook) =>
    .declareRow n kind initial.ambientForm (some hook.ambientForm)
  | .access handle place op => .access handle place.ambientForm op.ambientForm
  | c => c

end

section

variable (initial : Initializer) (hook : Hook) (kind : Kind) (onRemoval : Option Hook)

theorem Initializer.nested_ambientForm :
    initial.ambientForm.nested = initial.nested.map Script.ambientForm := by
  obtain ⟨_ | s, outcome, silent⟩ := initial <;> rfl

@[simp] theorem Initializer.outcome_ambientForm : initial.ambientForm.outcome = initial.outcome := by
  obtain ⟨_ | s, outcome, silent⟩ := initial <;> rfl

@[simp] theorem Initializer.silent_ambientForm : initial.ambientForm.silent = initial.silent := by
  obtain ⟨_ | s, outcome, silent⟩ := initial <;> rfl

theorem Hook.nested_ambientForm :
    hook.ambientForm.nested = hook.nested.map fun nested value => (nested value).ambientForm := by
  obtain ⟨_ | nested, panics⟩ := hook <;> rfl

@[simp] theorem Hook.panics_ambientForm : hook.ambientForm.panics = hook.panics := by
  obtain ⟨_ | nested, panics⟩ := hook <;> rfl

theorem Command.declare_ambientForm : (Command.declare kind initial onRemoval).ambientForm =
    .declare kind initial.ambientForm (onRemoval.map Hook.ambientForm) := by
  cases onRemoval <;> rfl

theorem Command.declareRow_ambientForm (n : Nat) :
    (Command.declareRow n kind initial onRemoval).ambientForm =
      .declareRow n kind initial.ambientForm (onRemoval.map Hook.ambientForm) := by
  cases onRemoval <;> rfl

theorem Access.withValue_ambientForm (body : Option (Value → Script)) :
    (Access.withValue body).ambientForm =
      .withValue (body.map fun nested value => (nested value).ambientForm) := by
  cases body <;> rfl

end

/-- The variable, with the code that it calls back in its ambient form. -/
def Variable.ambientForm (v : Variable) : Variable :=
  { v with initial := v.initial.ambientForm, onRemoval := v.onRemoval.map Hook.ambientForm }

theorem Variable.describe_ambientForm (v : Variable) : v.ambientForm.describe = v.describe := by
  unfold Variable.describe Variable.ambientForm
  rw [Option.isSome_map]

/-! ## Maps that are mapped -/

section

variable {α β : Type} (m : ExtTreeMap Nat α) (f : α → β)

theorem map_insert (k : Nat) (a : α) :
    (m.insert k a).map (fun _ => f) = (m.map fun _ => f).insert k (f a) := by
  apply ExtTreeMap.ext_getElem?
  intro i
  simp only [ExtTreeMap.getElem?_map, ExtTreeMap.getElem?_insert]
  split <;> rfl

theorem map_erase (k : Nat) : (m.erase k).map (fun _ => f) = (m.map fun _ => f).erase k := by
  apply ExtTreeMap.ext_getElem?
  intro i
  simp only [ExtTreeMap.getElem?_map, ExtTreeMap.getElem?_erase]
  split <;> rfl

theorem map_empty : (∅ : ExtTreeMap Nat α).map (fun _ => f) = ∅ := by
  apply ExtTreeMap.ext_getElem?
  intro i
  simp

end

/-! ## Cells and tables -/

/-- The live set, in which the variables have their ambient form. -/
def LiveSet.ambientForm (set : LiveSet) : LiveSet := set.map fun _ => Variable.ambientForm

theorem LiveSet.variables_ambientForm (set : LiveSet) :
    set.ambientForm.toList.map (·.2) = (set.toList.map (·.2)).map Variable.ambientForm := by
  rw [ambientForm, ExtTreeMap.toList_map, List.map_map, List.map_map]
  rfl

theorem LiveSet.size_ambientForm (set : LiveSet) : set.ambientForm.size = set.size :=
  ExtTreeMap.size_map

namespace Cell

def ambientForm : Cell → Cell
  | .value v => .value v
  | .liveSet set => .liveSet set.ambientForm

@[simp] theorem value?_ambientForm (c : Cell) (kind : Kind) :
    c.ambientForm.value? kind = c.value? kind := by
  cases c <;> rfl

theorem liveSet?_ambientForm (c : Cell) :
    c.ambientForm.liveSet? = c.liveSet?.map LiveSet.ambientForm := by
  cases c <;> rfl

@[simp] theorem content_ambientForm (c : Cell) : c.ambientForm.content = c.content := by
  cases c <;> rfl

end Cell

/-- The value of a slot's cell is the same in ambient form. -/
theorem bind_value?_ambientForm (cell : Option Cell) (kind : Kind) :
    (cell.map Cell.ambientForm).bind (·.value? kind) = cell.bind (·.value? kind) := by
  cases cell with
  | none => rfl
  | some c => exact c.value?_ambientForm kind

theorem bind_liveSet?_ambientForm (cell : Option Cell) :
    (cell.map Cell.ambientForm).bind Cell.liveSet? =
      (cell.bind Cell.liveSet?).map LiveSet.ambientForm := by
  cases cell with
  | none => rfl
  | some c => exact c.liveSet?_ambientForm

namespace Table

/-- The table, in which the variables of the live set have their ambient form. -/
def ambientForm (t : Table Cell) : Table Cell :=
  { t with
    entries := t.entries.map (Option.map Cell.ambientForm)
    nonempty := by
      rw [Array.size_map]
      exact t.nonempty }

def Outcome.ambientForm (o : Outcome Cell) : Outcome Cell :=
  { o with previous := o.previous.map Cell.ambientForm }

def Stored.ambientForm (s : Stored Cell) : Stored Cell :=
  { s with table := s.table.ambientForm, previous := s.previous.map Cell.ambientForm }

variable (t : Table Cell)

@[simp] theorem capacity_ambientForm : t.ambientForm.capacity = t.capacity := Array.size_map

theorem get?_ambientForm (slot : Nat) :
    t.ambientForm.get? slot = (t.get? slot).map Cell.ambientForm := by
  unfold get? ambientForm
  rw [Array.getElem?_map]
  rcases t.entries[slot]? with _ | _ | _ <;> rfl

@[simp] theorem contains_ambientForm (slot : Nat) : t.ambientForm.contains slot = t.contains slot := by
  rw [contains, get?_ambientForm, Option.isSome_map, contains]

@[simp] theorem size_ambientForm : t.ambientForm.size = t.size := by
  unfold size
  simp only [contains_ambientForm, capacity_ambientForm]

@[simp] theorem slots_ambientForm : t.ambientForm.slots = t.slots := by
  unfold slots
  rw [capacity_ambientForm, funext t.contains_ambientForm]

@[simp] theorem describe_ambientForm : t.ambientForm.describe = t.describe := by
  unfold describe
  rw [size_ambientForm, capacity_ambientForm]
  rfl

theorem describeTable_ambientForm : describeTable t.ambientForm = describeTable t := by
  unfold describeTable
  rw [describe_ambientForm]

theorem describeContext_ambientForm : describeContext t.ambientForm = describeContext t := by
  unfold describeContext
  rw [describeTable_ambientForm]

theorem replace_ambientForm (slot : Nat) (entry : Option Cell) :
    t.ambientForm.replace slot (entry.map Cell.ambientForm) = (t.replace slot entry).ambientForm := by
  unfold replace ambientForm
  congr 1
  exact (Array.map_setIfInBounds ..).symm

theorem resize_ambientForm (c : Nat) : t.ambientForm.resize c = (t.resize c).ambientForm := by
  have hcapacity := t.capacity_ambientForm
  unfold resize
  simp only [hcapacity]
  unfold ambientForm
  congr 1
  simp only [Array.map_append, Array.map_replicate, Option.map_none]

theorem put_ambientForm (slot : Nat) (c : Cell) :
    t.ambientForm.put slot c.ambientForm = (t.put slot c).ambientForm := by
  unfold put Stored.ambientForm
  simp only [get?_ambientForm, Option.isSome_map, ← replace_ambientForm, Option.map_some]

theorem insert_ambientForm (slot : Nat) (c : Cell) :
    t.ambientForm.insert slot c.ambientForm = (t.insert slot c).map Stored.ambientForm := by
  unfold insert growTo
  rw [capacity_ambientForm]
  split
  · rw [put_ambientForm]
    rfl
  · cases doubledPast slot (max t.capacity 1) with
    | none => rfl
    | some c' =>
      refine congrArg Except.ok (Eq.trans ?_ (put_ambientForm (t.resize c') slot c))
      rw [← resize_ambientForm]

theorem erase_ambientForm (slot : Nat) : t.ambientForm.erase slot = (t.erase slot).ambientForm := by
  unfold erase Stored.ambientForm
  simp only [get?_ambientForm, ← replace_ambientForm, Option.map_none]

theorem store_ambientForm (slot : Nat) (entry : Option Cell) :
    t.ambientForm.store slot (entry.map Cell.ambientForm) =
      (t.store slot entry).map Stored.ambientForm := by
  cases entry with
  | some c => exact t.insert_ambientForm slot c
  | none =>
    have hpolicy : t.ambientForm.policy = t.policy := rfl
    simp only [store, Option.map_none, hpolicy, erase_ambientForm]
    split <;> rfl

theorem blank_ambientForm (policy : SentinelPolicy) :
    ({ policy := policy } : Table Cell).ambientForm = { policy := policy } := by
  unfold ambientForm
  congr 1
  exact Array.map_replicate

end Table

/-! ## Threads, processes and scenes -/

namespace Thread

def ambientForm (t : Thread) : Thread := { t with tables := t.tables.map fun _ => Table.ambientForm }

theorem table_ambientForm (t : Thread) (id : TableId) :
    t.ambientForm.table id = (t.table id).ambientForm := by
  unfold table ambientForm
  rw [ExtTreeMap.getD_map, ExtTreeMap.getD_eq_getD_getElem?]
  cases t.tables[id]? with
  | none => exact (Table.blank_ambientForm _).symm
  | some table => rfl

/-- A glance at the thread shows the same. -/
theorem glance_ambientForm (t : Thread) (epoch : UInt64) :
    t.ambientForm.glance epoch = t.glance epoch := by
  have hown : t.ambientForm.own? epoch = t.own? epoch := rfl
  have hcarried : t.ambientForm.carried? = t.carried? := rfl
  unfold glance
  rw [hown, hcarried]
  cases t.own? epoch with
  | none => rfl
  | some id =>
    simp only [Option.map_some, Option.bind_some, table_ambientForm, Table.capacity_ambientForm,
      Table.size_ambientForm, Table.get?_ambientForm, bind_liveSet?_ambientForm]
    cases ((t.table id).get? reservedSlot).bind Cell.liveSet? with
    | none => rfl
    | some set => exact congrArg (fun n => Glance.mk _ n _) set.size_ambientForm

end Thread

def Process.ambientForm (p : Process) : Process :=
  { p with bySlot := p.bySlot.map fun _ => Variable.ambientForm }

namespace Scene

/-- The scene, in which all code that can be called back has its ambient form. -/
def ambientForm (sc : Scene) : Scene :=
  { sc with process := sc.process.ambientForm, thread := sc.thread.ambientForm }

theorem setTable_ambientForm (sc : Scene) (id : TableId) (t : SlotTable) :
    (sc.setTable id t).ambientForm = sc.ambientForm.setTable id t.ambientForm := by
  unfold setTable ambientForm Thread.ambientForm
  simp only [map_insert]

end Scene

end ThreadSlots
