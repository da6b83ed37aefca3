import ThreadSlots.Session
import ThreadSlots.Proofs.Table

/-!
# How storage actions run

One equation per primitive action: what it ends with and the scene after it. Actions that only keep
count, read the settings or look after the death watch change nothing that a value depends on; they
are told apart by `Scene.stripped`, the scene without these things.
-/

namespace ThreadSlots

open Std (ExtTreeMap)

namespace Process

/-- The settings in effect, whether or not they were read. -/
def inEffect (p : Process) : Settings := p.settings.getD p.environment.settings

/-- The process once its settings were read. -/
def settled (p : Process) : Process := { p with settings := some p.inEffect }

@[simp] theorem readSettings_eq (p : Process) : p.readSettings = (p.inEffect, p.settled) := by
  unfold readSettings settled inEffect
  obtain ⟨⟨supply, tally, environment, settings⟩, burned⟩ := p
  cases settings <;> rfl

end Process

namespace Storage

section

variable {α β : Type} (sc : Scene)

@[simp] theorem runOn_pure (a : α) : runOn (pure a) sc = (.ok a, sc) := rfl

@[simp] theorem runOn_bind (x : Storage α) (f : α → Storage β) :
    runOn (x >>= f) sc = match runOn x sc with
      | (.ok a, sc) => runOn (f a) sc
      | (.error stop, sc) => (.error stop, sc) := by
  unfold runOn
  rw [ExceptT.run_bind, StateT.run_bind]
  show (match x.run.run sc with | (a, sc) => _) = _
  rcases x.run.run sc with ⟨a | a, sc'⟩ <;> rfl

/-- An action that ends well has ended well in each of its parts. -/
theorem runOn_bind_eq_ok {x : Storage α} {f : α → Storage β} {b : β} {sc sc' : Scene} :
    runOn (x >>= f) sc = (.ok b, sc') ↔
      ∃ a sc₁, runOn x sc = (.ok a, sc₁) ∧ runOn (f a) sc₁ = (.ok b, sc') := by
  rw [runOn_bind]
  constructor
  · intro h
    rcases hr : runOn x sc with ⟨stop | a, sc₁⟩
    · rw [hr] at h
      cases h
    · rw [hr] at h
      exact ⟨a, sc₁, rfl, h⟩
  · rintro ⟨a, sc₁, hx, hf⟩
    rw [hx]
    exact hf

/-- An action that stops has stopped in one of its parts. -/
theorem runOn_bind_eq_error {x : Storage α} {f : α → Storage β} {stop : Stop} {sc sc' : Scene} :
    runOn (x >>= f) sc = (.error stop, sc') ↔
      runOn x sc = (.error stop, sc') ∨
        ∃ a sc₁, runOn x sc = (.ok a, sc₁) ∧ runOn (f a) sc₁ = (.error stop, sc') := by
  rw [runOn_bind]
  rcases runOn x sc with ⟨stop' | a, sc₁⟩
  · simp
  · constructor
    · exact fun h => .inr ⟨a, sc₁, rfl, h⟩
    · rintro (h | ⟨b, sc₂, hx, hf⟩)
      · cases h
      · cases hx
        exact hf

@[simp] theorem runOn_map (f : α → β) (x : Storage α) :
    runOn (f <$> x) sc = match runOn x sc with
      | (.ok a, sc) => (.ok (f a), sc)
      | (.error stop, sc) => (.error stop, sc) := by
  rw [map_eq_pure_bind, runOn_bind]
  rcases runOn x sc with ⟨a | a, sc'⟩ <;> rfl

@[simp] theorem runOn_throw (stop : Stop) : runOn (throw stop : Storage α) sc = (.error stop, sc) :=
  rfl

@[simp] theorem runOn_tryCatch (x : Storage α) (h : Stop → Storage α) :
    runOn (tryCatch x h) sc = match runOn x sc with
      | (.ok a, sc) => (.ok a, sc)
      | (.error stop, sc) => runOn (h stop) sc := by
  unfold runOn
  rcases hx : x.run.run sc with ⟨a | a, sc'⟩
  all_goals
    simp only [tryCatch, tryCatchThe, MonadExceptOf.tryCatch, ExceptT.tryCatch, ExceptT.run_mk,
      StateT.run_bind]
    erw [hx]
    rfl

/-- What an action changed before a panic stays changed when the panic is caught. -/
@[simp] theorem runOn_caught (x : Storage α) :
    runOn (caught x) sc = match runOn x sc with
      | (.ok a, sc) => (.ok (.ok a), sc)
      | (.error (.panicked message), sc) => (.ok (.error message), sc)
      | (.error (.refused e), sc) => (.error (.refused e), sc) := by
  unfold caught
  rw [runOn_tryCatch, runOn_map]
  rcases runOn x sc with ⟨(e | message) | a, sc'⟩ <;> rfl

theorem scene_caught (x : Storage α) : (runOn (caught x) sc).2 = (runOn x sc).2 := by
  rw [runOn_caught]
  rcases runOn x sc with ⟨(e | message) | a, sc'⟩ <;> rfl

@[simp] theorem runOn_ite (c : Prop) [Decidable c] (x y : Storage α) :
    runOn (if c then x else y) sc = if c then runOn x sc else runOn y sc := by
  split <;> rfl

@[simp] theorem runOn_refuse (e : StorageError) :
    runOn (refuse e : Storage α) sc = (.error (.refused e), sc) := rfl

@[simp] theorem runOn_panicWith (message : String) :
    runOn (panicWith message : Storage α) sc = (.error (.panicked message), sc) := rfl

@[simp] theorem runOn_process : runOn process sc = (.ok sc.process, sc) := rfl

@[simp] theorem runOn_thread : runOn thread sc = (.ok sc.thread, sc) := rfl

@[simp] theorem runOn_modifyProcess (f : Process → Process) :
    runOn (modifyProcess f) sc = (.ok (), { sc with process := f sc.process }) := rfl

@[simp] theorem runOn_modifyThread (f : Thread → Thread) :
    runOn (modifyThread f) sc = (.ok (), { sc with thread := f sc.thread }) := rfl

@[simp] theorem runOn_emit (e : Event) :
    runOn (emit e) sc = (.ok (), { sc with events := e :: sc.events }) := rfl

@[simp] theorem runOn_part (parting : Parting) :
    runOn (part parting) sc = (.ok (), { sc with partings := parting :: sc.partings }) := rfl

@[simp] theorem runOn_count (c : Counter) :
    runOn (count c) sc = (.ok (), { sc with process := sc.process.count c }) := rfl

@[simp] theorem runOn_settings :
    runOn settings sc = (.ok sc.process.inEffect, { sc with process := sc.process.settled }) := by
  simp [settings]

@[simp] theorem runOn_table (id : TableId) :
    runOn (Storage.table id) sc = (.ok (sc.thread.table id), sc) := rfl

theorem runOn_ofExcept (e : Except StorageError α) :
    runOn (ofExcept e) sc = match e with
      | .ok a => (.ok a, sc)
      | .error e => (.error (.refused e), sc) := by
  cases e <;> rfl

end

/-- What the action ends with, if it ends well, has the property. -/
def Yields {α : Type} (P : α → Prop) (x : Storage α) : Prop :=
  ∀ sc a sc', runOn x sc = (.ok a, sc') → P a

namespace Yields

variable {α β : Type} {P : β → Prop}

theorem pure {b : β} (h : P b) : Yields P (Pure.pure b) := by
  intro sc a sc' hr
  rw [runOn_pure] at hr
  cases hr
  exact h

theorem panicWith (message : String) : Yields P (Storage.panicWith message) := by
  intro sc b sc' h
  rw [runOn_panicWith] at h
  cases h

theorem bind {x : Storage α} {f : α → Storage β} (hf : ∀ a, Yields P (f a)) :
    Yields P (x >>= f) := by
  intro sc b sc' h
  obtain ⟨a, sc₁, -, h⟩ := runOn_bind_eq_ok.1 h
  exact hf a sc₁ b sc' h

theorem ite {c : Prop} [Decidable c] {x y : Storage β} (hx : Yields P x) (hy : Yields P y) :
    Yields P (if c then x else y) := by
  split
  · exact hx
  · exact hy

end Yields

end Storage

/-! ## Scenes after a change -/

namespace Scene

/-- The scene with other contents of a table. -/
def setTable (sc : Scene) (id : TableId) (t : SlotTable) : Scene :=
  { sc with thread := { sc.thread with tables := sc.thread.tables.insert id t } }

/-- The scene with other thread-locals. -/
def setLocals (sc : Scene) (l : Locals) : Scene :=
  { sc with thread := { sc.thread with locals := l } }

/-- What is noted when a slot loses what it held: nothing, unless that was a value. -/
def departure (id : TableId) (slot : Nat) (fate : Fate) : Option Cell → List Parting
  | some (.value value) => [.left id slot value fate]
  | _ => []

/-- The scene once the fate of what a slot held was noted. -/
def parted (sc : Scene) (id : TableId) (slot : Nat) (fate : Fate) (cell : Option Cell) : Scene :=
  { sc with partings := departure id slot fate cell ++ sc.partings }

/-- The scene once it was noted that a slot received a cell, if that is a value. -/
def arrived (sc : Scene) (id : TableId) (slot : Nat) : Cell → Scene
  | .value value => { sc with arrivals := ⟨id, slot, value⟩ :: sc.arrivals }
  | .liveSet _ => sc

/-- The scene once what a variable's slot held was handed to the hook, or dropped if there is no
hook for it. -/
def handedOver (sc : Scene) (v : Variable) (id : TableId) (cell : Option Cell) : Scene :=
  match v.onRemoval, cell.bind (·.value? v.kind) with
  | some _, some value =>
    { sc with
      partings := .left id v.slot value (.hooked v.handle) :: sc.partings
      events := .removed v.handle value :: sc.events }
  | _, _ => sc.parted id v.slot .removed cell

end Scene

namespace Thread

theorem table_insert (t : Thread) (id : TableId) (tab : SlotTable) (i : TableId) :
    { t with tables := t.tables.insert id tab }.table i = if i = id then tab else t.table i := by
  unfold Thread.table
  rw [ExtTreeMap.getD_insert]
  simp only [Nat.compare_eq_eq, eq_comm (a := i)]

variable {β : Type} {t : Thread} {id : TableId}
  {f : SlotTable → Except StorageError β × SlotTable}

/-- A call that is not refused replaces the table. -/
theorem updateTable_of_ok {b : β} {u : SlotTable} (h : f (t.table id) = (.ok b, u)) :
    t.updateTable id f = (.ok b, { t with tables := t.tables.insert id u }) := by
  unfold updateTable
  unfold table at h
  rw [ExtTreeMap.getD_eq_getD_getElem?] at h
  rcases ht : t.tables[id]? with _ | table
  · rw [ht, Option.getD_none] at h
    simp only [h]
  · rw [ht, Option.getD_some] at h
    simp only [h, erase_insert]

/-- A refused call that leaves the table as it was leaves the thread as it was. -/
theorem updateTable_of_error {e : StorageError} (h : f (t.table id) = (.error e, t.table id)) :
    t.updateTable id f = (.error e, t) := by
  unfold updateTable
  unfold table at h
  rw [ExtTreeMap.getD_eq_getD_getElem?] at h
  rcases ht : t.tables[id]? with _ | table
  · rw [ht, Option.getD_none] at h
    simp only [h]
  · rw [ht, Option.getD_some] at h
    simp only [h, erase_insert, insert_of_getElem? ht]

end Thread

namespace Scene

variable (sc : Scene)

theorem table_setTable (id : TableId) (t : SlotTable) (i : TableId) :
    (sc.setTable id t).thread.table i = if i = id then t else sc.thread.table i :=
  sc.thread.table_insert id t i

@[simp] theorem table_setTable_self (id : TableId) (t : SlotTable) :
    (sc.setTable id t).thread.table id = t := by
  rw [table_setTable, if_pos rfl]

@[simp] theorem setTable_setTable (id : TableId) (t u : SlotTable) :
    (sc.setTable id t).setTable id u = sc.setTable id u := by
  simp only [setTable, insert_insert]

end Scene

namespace Storage

variable (sc : Scene)

@[simp] theorem runOn_setTable (id : TableId) (t : SlotTable) :
    runOn (Storage.setTable id t) sc = (.ok (), sc.setTable id t) := rfl

@[simp] theorem runOn_modifyLocals (f : Locals → Locals) :
    runOn (modifyLocals f) sc = (.ok (), sc.setLocals (f sc.thread.locals)) := rfl

@[simp] theorem runOn_partFrom (id : TableId) (slot : Nat) (cell : Option Cell) (fate : Fate) :
    runOn (partFrom id slot cell fate) sc = (.ok (), sc.parted id slot fate cell) := by
  unfold partFrom
  rcases cell with _ | _ | _ <;> rfl

@[simp] theorem runOn_arrive (id : TableId) (slot : Nat) (cell : Cell) :
    runOn (arrive id slot cell) sc = (.ok (), sc.arrived id slot cell) := by
  cases cell <;> rfl

@[simp] theorem runOn_liveSet? (id : TableId) :
    runOn (liveSet? id) sc =
      (.ok (((sc.thread.table id).get? reservedSlot).bind Cell.liveSet?), sc) :=
  rfl

theorem runOn_updateTable {β : Type} (id : TableId)
    (f : SlotTable → Except StorageError β × SlotTable) :
    runOn (updateTable id f) sc =
      ((sc.thread.updateTable id f).1.mapError Stop.refused,
        { sc with thread := (sc.thread.updateTable id f).2 }) := by
  unfold updateTable
  rw [runOn_bind]
  show runOn (ofExcept (sc.thread.updateTable id f).1) _ = _
  rw [runOn_ofExcept]
  cases (sc.thread.updateTable id f).1 <;> rfl

theorem runOn_updateTable_of_ok {β : Type} {id : TableId} {b : β} {u : SlotTable}
    {f : SlotTable → Except StorageError β × SlotTable} (h : f (sc.thread.table id) = (.ok b, u)) :
    runOn (updateTable id f) sc = (.ok b, sc.setTable id u) := by
  rw [runOn_updateTable, Thread.updateTable_of_ok h]
  rfl

theorem runOn_updateTable_of_error {β : Type} {id : TableId} {e : StorageError}
    {f : SlotTable → Except StorageError β × SlotTable}
    (h : f (sc.thread.table id) = (.error e, sc.thread.table id)) :
    runOn (updateTable id f) sc = (.error (.refused e), sc) := by
  rw [runOn_updateTable, Thread.updateTable_of_error h]
  rfl

@[simp] theorem runOn_setLiveSet (id : TableId) (set : LiveSet) :
    runOn (setLiveSet id set) sc =
      (.ok (), sc.setTable id ((sc.thread.table id).put reservedSlot (.liveSet set)).table) :=
  runOn_updateTable_of_ok sc rfl

@[simp] theorem runOn_unset (id : TableId) (slot : Nat) :
    runOn (unset id slot) sc = (.ok ((sc.thread.table id).get? slot),
      sc.setTable id ((sc.thread.table id).erase slot).table) :=
  runOn_updateTable_of_ok sc rfl

end Storage

/-! ## Likeness -/

namespace Process

/-- The process without most of its counters, on which no operation depends, and as if no thread
were watched. -/
def stripped (p : Process) : Process :=
  { p with
    tally :=
      { variablesRegistered := p.tally.variablesRegistered
        fallbackDestroys := p.tally.fallbackDestroys }
    settings := some p.inEffect
    tracked := ∅
    watchers := #[]
    recorded := [] }

@[simp] theorem stripped_settled (p : Process) : p.settled.stripped = p.stripped := rfl

theorem stripped_count (p : Process) {c : Counter}
    (hc : c ≠ .fallbackDestroys ∧ c ≠ .variablesRegistered) :
    (p.count c).stripped = p.stripped := by
  cases c <;> first | rfl | exact absurd rfl hc.1 | exact absurd rfl hc.2

theorem stripped_runJob (p : Process) (job : Job) : (p.runJob job).stripped = p.stripped := by
  cases job <;> rfl

theorem stripped_foldl {ι : Type} (f : Process → ι → Process)
    (hf : ∀ p i, (f p i).stripped = p.stripped) (l : List ι) (p : Process) :
    (l.foldl f p).stripped = p.stripped := by
  induction l generalizing p with
  | nil => rfl
  | cons i l ih => rw [List.foldl_cons, ih, hf]

theorem stripped_settle (p : Process) : p.settle.stripped = p.stripped := by
  unfold settle
  apply stripped_foldl
  intro p i
  unfold settleWatcher
  rw [stripped_foldl _ stripped_runJob]
  rfl

theorem stripped_reportDeath (p : Process) (thread : ThreadId) (s : Sentinel) :
    (p.reportDeath thread s).stripped = p.stripped := by
  cases s with
  | installed since watchers =>
    unfold reportDeath
    rw [stripped_foldl]
    exact fun _ _ => rfl
  | _ => rfl

end Process

namespace Scene

/-- The scene without the parts of the process that no value depends on, and without the thread's
sentinel. -/
def stripped (sc : Scene) : Scene :=
  { sc with process := sc.process.stripped, thread := { sc.thread with sentinel := .absent } }

/-- The scenes differ at most in counters and in who watches whom. -/
def Like (sc sc' : Scene) : Prop := sc.stripped = sc'.stripped

namespace Like

variable {sc sc' sc'' : Scene}

theorem refl (sc : Scene) : sc.Like sc := rfl

theorem symm (h : sc.Like sc') : sc'.Like sc := Eq.symm h

theorem trans (h : sc.Like sc') (h' : sc'.Like sc'') : sc.Like sc'' := Eq.trans h h'

theorem of_process {p : Process} (h : p.stripped = sc.process.stripped) :
    sc.Like { sc with process := p } := by
  unfold Like stripped
  rw [h]

theorem setTable (h : sc.Like sc') (id : TableId) (t : SlotTable) :
    (sc.setTable id t).Like (sc'.setTable id t) :=
  congrArg (fun sc : Scene => sc.setTable id t) h

theorem parted (h : sc.Like sc') (id : TableId) (slot : Nat) (fate : Fate) (cell : Option Cell) :
    (sc.parted id slot fate cell).Like (sc'.parted id slot fate cell) :=
  congrArg (fun sc : Scene => sc.parted id slot fate cell) h

theorem arrived (h : sc.Like sc') (id : TableId) (slot : Nat) (cell : Cell) :
    (sc.arrived id slot cell).Like (sc'.arrived id slot cell) := by
  cases cell with
  | value value =>
    exact congrArg (fun sc : Scene => { sc with arrivals := ⟨id, slot, value⟩ :: sc.arrivals }) h
  | liveSet set => exact h

theorem thread_table (h : sc.Like sc') (id : TableId) :
    sc'.thread.table id = sc.thread.table id :=
  (congrArg (fun sc : Scene => sc.thread.table id) h).symm

theorem process (h : sc.Like sc') : sc'.process.stripped = sc.process.stripped :=
  (congrArg (·.process) h).symm

theorem thread (h : sc.Like sc') :
    { sc'.thread with sentinel := .absent } = { sc.thread with sentinel := .absent } :=
  (congrArg (·.thread) h).symm

theorem events (h : sc.Like sc') : sc'.events = sc.events := (congrArg (·.events) h).symm

theorem partings (h : sc.Like sc') : sc'.partings = sc.partings :=
  (congrArg Scene.partings h).symm

theorem settled (sc : Scene) : sc.Like { sc with process := sc.process.settled } :=
  of_process sc.process.stripped_settled

theorem count (sc : Scene) {c : Counter}
    (hc : c ≠ .fallbackDestroys ∧ c ≠ .variablesRegistered) :
    sc.Like { sc with process := sc.process.count c } :=
  of_process (sc.process.stripped_count hc)

theorem settle (sc : Scene) : sc.Like { sc with process := sc.process.settle } :=
  of_process sc.process.stripped_settle

end Like

end Scene

end ThreadSlots
