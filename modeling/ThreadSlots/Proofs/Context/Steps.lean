import ThreadSlots.Proofs.Context.Forms
import ThreadSlots.Proofs.SharedCommands

/-!
# Storage on the thread of a context

`Scene.OnContext` says that the thread carries the table that its context names, and that code which can
be called back leaves it so (`Command.Stays`). `Scene.Recast` relates such a scene to its ambient form.
Each step of storage does the same on both sides: reading and changing the scene, writing to a table and
keeping the live sets. What threads share does not depend on the code of the variables
(`Context.shared`).
-/

namespace ThreadSlots

open Std (ExtTreeMap)
open Storage

/-- The command neither releases the thread's table nor gives the name of the context to another
table. -/
def Command.Stays : Command → Prop
  | .onThread (.release _) => False
  | .onTables (.new name _ _) | .onTables (.copy _ name) | .onTables (.drop name) =>
    name ≠ contextName
  | _ => True

theorem Process.Aside.ambientForm {f : Process → Process} (h : Aside f) (p : Process) :
    f p.ambientForm = (f p).ambientForm := by
  unfold Process.ambientForm
  rw [h.slots, h.bySlot]

namespace Scene

/-- The thread carries the table that its context names, and whatever code is called back stays. -/
structure OnContext (id : TableId) (sc : Scene) : Prop where
  carried : sc.thread.carried? = some id
  named : sc.thread.named? contextName = some id
  callbacks : sc.process.Only Command.Stays
  tracks : ∀ i, (sc.thread.table i).Tracks (·.Only Command.Stays)

/-- The second scene is the first one in ambient form, on the thread of a context. -/
def Recast (id : TableId) (sc sc' : Scene) : Prop := sc' = sc.ambientForm ∧ sc.OnContext id

end Scene

namespace Context

open Scene (Recast)

variable {id i : TableId} {α : Type}

/-! ## Reading and changing the scene -/

theorem process : Coupled (Recast id) (fun p q => q = p.ambientForm ∧ p.Only Command.Stays)
    Storage.process Storage.process :=
  .read runOn_process runOn_process fun _ _ ⟨hform, h⟩ => ⟨hform ▸ rfl, h.callbacks⟩

theorem thread : Coupled (Recast id)
    (fun t u => u = t.ambientForm ∧ t.carried? = some id ∧ t.named? contextName = some id)
    Storage.thread Storage.thread :=
  .read runOn_thread runOn_thread fun _ _ ⟨hform, h⟩ => ⟨hform ▸ rfl, h.carried, h.named⟩

theorem table (i : TableId) : Coupled (Recast id)
    (fun t u => u = t.ambientForm ∧ t.Tracks (·.Only Command.Stays)) (Storage.table i)
    (Storage.table i) :=
  .read (runOn_table · i) (runOn_table · i) fun sc _ ⟨hform, h⟩ =>
    ⟨hform ▸ sc.thread.table_ambientForm i, h.tracks i⟩

theorem emit (e : Event) : Coupled (Recast id) (fun _ _ => True) (Storage.emit e) (Storage.emit e) :=
  .of_runOn fun _ _ ⟨hform, h⟩ =>
    ⟨_, _, _, _, rfl, rfl, trivial, hform ▸ rfl, h.carried, h.named, h.callbacks, h.tracks⟩

theorem part (p : Parting) : Coupled (Recast id) (fun _ _ => True) (Storage.part p) (Storage.part p) :=
  .of_runOn fun _ _ ⟨hform, h⟩ =>
    ⟨_, _, _, _, rfl, rfl, trivial, hform ▸ rfl, h.carried, h.named, h.callbacks, h.tracks⟩

theorem modifyProcess {f g : Process → Process}
    (hform : ∀ p : Process, g p.ambientForm = (f p).ambientForm)
    (hcode : ∀ p : Process, p.Only Command.Stays → (f p).Only Command.Stays) :
    Coupled (Recast id) (fun _ _ => True) (Storage.modifyProcess f) (Storage.modifyProcess g) := by
  refine .of_runOn fun sc sc' ⟨hsc, h⟩ => ⟨_, _, _, _, rfl, rfl, trivial, ?_, ?_⟩
  · rw [hsc]
    show { sc.ambientForm with process := g sc.process.ambientForm } = _
    rw [hform]
    rfl
  · exact ⟨h.carried, h.named, hcode _ h.callbacks, h.tracks⟩

theorem change {f : Process → Process} (hf : Process.Aside f) :
    Coupled (Recast id) (fun _ _ => True) (Storage.modifyProcess f) (Storage.modifyProcess f) :=
  modifyProcess hf.ambientForm fun p h slot v hv => h slot v (hf.bySlot p ▸ hv)

theorem modifyThread {f : Thread → Thread} (hform : ∀ t : Thread, f t.ambientForm = (f t).ambientForm)
    (hcarried : ∀ t : Thread, t.carried? = some id → (f t).carried? = some id)
    (hnamed : ∀ t : Thread, t.named? contextName = some id → (f t).named? contextName = some id)
    (htables : ∀ t : Thread, (f t).tables = t.tables) :
    Coupled (Recast id) (fun _ _ => True) (Storage.modifyThread f) (Storage.modifyThread f) := by
  refine .of_runOn fun sc sc' ⟨hsc, h⟩ => ⟨_, _, _, _, rfl, rfl, trivial, ?_, ?_⟩
  · rw [hsc]
    show { sc.ambientForm with thread := f sc.thread.ambientForm } = _
    rw [hform]
    rfl
  · refine ⟨hcarried _ h.carried, hnamed _ h.named, h.callbacks, fun i => ?_⟩
    have htable : (f sc.thread).table i = sc.thread.table i := by
      unfold Thread.table
      rw [htables]
    show ((f sc.thread).table i).Tracks _
    rw [htable]
    exact h.tracks i

theorem setTable (i : TableId) {t : SlotTable} (ht : t.Tracks (·.Only Command.Stays)) :
    Coupled (Recast id) (fun _ _ => True) (Storage.setTable i t)
      (Storage.setTable i (Table.ambientForm t)) := by
  refine .of_runOn fun sc sc' ⟨hsc, h⟩ =>
    ⟨_, _, _, _, runOn_setTable sc i t, runOn_setTable sc' i _, trivial, ?_, ?_⟩
  · rw [hsc, sc.setTable_ambientForm]
  · refine ⟨h.carried, h.named, h.callbacks, fun j => ?_⟩
    rw [sc.table_setTable]
    split
    · exact ht
    · exact h.tracks j

theorem count (c : Counter) :
    Coupled (Recast id) (fun _ _ => True) (Storage.count c) (Storage.count c) :=
  change ⟨fun _ _ => rfl, fun _ _ => rfl⟩

theorem settings : Coupled (Recast id) Eq Storage.settings Storage.settings := by
  refine .of_runOn fun sc sc' ⟨hsc, h⟩ =>
    ⟨_, _, _, _, runOn_settings sc, runOn_settings sc', hsc ▸ rfl, hsc ▸ rfl, ?_⟩
  exact ⟨h.carried, h.named, h.callbacks, h.tracks⟩

/-- What the code of the variables is does not matter to what threads share. -/
theorem shared : SharedBond (Recast id) where
  process := process.mono fun _ _ ⟨hp, _⟩ => ⟨_, (congrArg Process.toState hp).trans rfl⟩
  change := change
  thread := thread.mono fun _ _ ⟨ht, _⟩ => ht ▸ ⟨rfl, rfl, rfl⟩
  sentinel _ := modifyThread (fun _ => rfl) (fun _ h => h) (fun _ h => h) fun _ => rfl
  settings := settings

theorem partFrom (slot : Nat) (cell : Option Cell) (fate : Fate) :
    Coupled (Recast id) (fun _ _ => True) (Storage.partFrom i slot cell fate)
      (Storage.partFrom i slot (cell.map Cell.ambientForm) fate) := by
  rcases cell with _ | value | set
  · exact .pure trivial
  · exact part _
  · exact .pure trivial

theorem arrive_value (slot : Nat) (value : Value) :
    Coupled (Recast id) (fun _ _ => True) (Storage.arrive i slot (.value value))
      (Storage.arrive i slot (.value value)) :=
  .of_runOn fun _ _ ⟨hform, h⟩ =>
    ⟨_, _, _, _, rfl, rfl, trivial, hform ▸ rfl, h.carried, h.named, h.callbacks, h.tracks⟩

/-! ## Writing to a table -/

theorem write (i : TableId)
    {f : SlotTable → Except StorageError (Table.Outcome Cell) × SlotTable}
    {f' : SlotTable → Except StorageError (Table.Outcome Cell) × SlotTable}
    {g g' : SlotTable → Except StorageError (Table.Stored Cell)}
    (hf : ∀ t, f t = Table.calling t g) (hf' : ∀ t, f' t = Table.calling t g')
    (hform : ∀ t : SlotTable, g' (Table.ambientForm t) = (g t).map Table.Stored.ambientForm)
    (htracks : ∀ (t : SlotTable) stored, g t = .ok stored → t.Tracks (·.Only Command.Stays) →
      stored.table.Tracks (·.Only Command.Stays)) :
    Coupled (Recast id) (fun o o' => o' = o.ambientForm) (Storage.write i f)
      (Storage.write i f') := by
  intro sc sc' hr
  have ⟨hsc, hold⟩ := hr
  have htable : sc'.thread.table i = Table.ambientForm (sc.thread.table i) := by
    rw [hsc]
    exact sc.thread.table_ambientForm i
  rw [runOn_write sc hf, runOn_write sc' hf', htable, hform]
  rcases hg : g (sc.thread.table i) with e | stored
  · exact ⟨.error _, hr⟩
  · have hset {s s' : Scene} (hs : Recast id s s') :
        Recast id (s.setTable i stored.table) (s'.setTable i stored.ambientForm.table) :=
      (setTable i (htracks _ stored hg (hold.tracks i)) s s' hs).2
    have hcapacity : (Table.ambientForm (sc.thread.table i)).capacity =
        (sc.thread.table i).capacity := Table.capacity_ambientForm _
    have hcapacity' : stored.ambientForm.table.capacity = stored.table.capacity :=
      Table.capacity_ambientForm _
    simp only [Except.map, hcapacity, hcapacity']
    split
    · exact ⟨.ok rfl, hset (count .tableExpansions sc sc' hr).2⟩
    · exact ⟨.ok rfl, hset hr⟩

theorem store_value (i : TableId) (slot : Nat) (value : Value) :
    Coupled (Recast id) (fun o o' => o' = o.ambientForm) (Storage.store i slot (.value value))
      (Storage.store i slot (.value value)) := by
  refine .bind (write i (·.set_eq slot _) (·.set_eq slot _)
    (fun t => t.insert_ambientForm slot (.value value)) fun t _ hs =>
    (Table.Follows.insert hs).tracks) fun _ _ hs => ?_
  exact .bind (arrive_value slot value) fun _ _ _ => .pure hs

theorem storeEntry (i : TableId) (slot : Nat) (entry : Option Value) :
    Coupled (Recast id) (fun s s' => s' = s.ambientForm)
      (Storage.storeEntry i slot (entry.map .value))
      (Storage.storeEntry i slot (entry.map .value)) := by
  cases entry with
  | some value => exact store_value i slot value
  | none =>
    refine .bind (write i (·.setEntry_eq slot _) (·.setEntry_eq slot _)
      (fun t => t.store_ambientForm slot none) fun t stored hs => ?_) fun _ _ hs => .pure hs
    simp only [Option.map_none, Table.store] at hs
    split at hs
    · cases hs
    · cases hs
      exact (Table.Follows.erase slot).tracks

theorem unset (i : TableId) (slot : Nat) :
    Coupled (Recast id) (fun c d => d = c.map Cell.ambientForm) (Storage.unset i slot)
      (Storage.unset i slot) := by
  intro sc sc' hr
  have ⟨hsc, hold⟩ := hr
  have htable : sc'.thread.table i = Table.ambientForm (sc.thread.table i) := by
    rw [hsc]
    exact sc.thread.table_ambientForm i
  rw [runOn_unset, runOn_unset, htable, Table.get?_ambientForm, Table.erase_ambientForm]
  exact ⟨.ok rfl, (setTable i ((Table.Follows.erase slot).tracks (hold.tracks i)) sc sc' hr).2⟩

/-! ## Live sets -/

theorem liveSet? (i : TableId) :
    Coupled (Recast id) (fun a b => b = a.map LiveSet.ambientForm ∧
        ∀ set, a = some set → ∀ (slot : Nat) (v : Variable), set[slot]? = some v → v.Only Command.Stays)
      (ThreadSlots.liveSet? i) (ThreadSlots.liveSet? i) := by
  refine .bind (table i) fun t _ ⟨ht, hold⟩ => .pure ⟨?_, fun set hset slot v hv => ?_⟩
  · rw [ht, Table.get?_ambientForm, bind_liveSet?_ambientForm]
  · refine hold slot v ?_
    rw [Table.live, hset]
    exact hv

theorem tracks_withLive (t : SlotTable) {set : LiveSet}
    (hset : ∀ (slot : Nat) (v : Variable), set[slot]? = some v → v.Only Command.Stays) :
    (Table.withLive t set).Tracks (·.Only Command.Stays) := by
  unfold Table.Tracks
  rw [Table.live_withLive]
  exact hset

theorem setLiveSet (i : TableId) {set : LiveSet}
    (hset : ∀ (slot : Nat) (v : Variable), set[slot]? = some v → v.Only Command.Stays) :
    Coupled (Recast id) (fun _ _ => True) (ThreadSlots.setLiveSet i set)
      (ThreadSlots.setLiveSet i set.ambientForm) := by
  intro sc sc' hr
  have htable : sc'.thread.table i = Table.ambientForm (sc.thread.table i) := by
    rw [hr.1]
    exact sc.thread.table_ambientForm i
  have hput : Table.put (Table.ambientForm (sc.thread.table i)) reservedSlot
      (.liveSet set.ambientForm) =
        (Table.put (sc.thread.table i) reservedSlot (.liveSet set)).ambientForm :=
    Table.put_ambientForm _ _ (.liveSet set)
  rw [runOn_setLiveSet, runOn_setLiveSet, htable, hput]
  exact setTable i (tracks_withLive _ hset) sc sc' hr

theorem ensureLiveSet (i : TableId) :
    Coupled (Recast id) (fun _ _ => True) (ThreadSlots.ensureLiveSet i)
      (ThreadSlots.ensureLiveSet i) := by
  have hstore : Coupled (Recast id) (fun s s' => s' = s.ambientForm)
      (Storage.store i reservedSlot (.liveSet ∅)) (Storage.store i reservedSlot (.liveSet ∅)) := by
    have hempty : (Cell.liveSet ∅).ambientForm = .liveSet ∅ := congrArg Cell.liveSet (map_empty _)
    refine .bind (write i (·.set_eq reservedSlot _) (·.set_eq reservedSlot _) (fun t => ?_)
      fun _ _ hs _ => Table.Tracks.of_insert hs) fun _ _ hs =>
      .bind (.pure trivial) fun _ _ (_ : True) => .pure hs
    have hinsert := Table.insert_ambientForm t reservedSlot (.liveSet ∅)
    rwa [hempty] at hinsert
  refine .bind (liveSet? i) fun a _ ⟨ha, _⟩ => ?_
  rw [ha, Option.isNone_map]
  refine .ite (.bind hstore fun _ _ _ => .bind settings fun c _ hc => ?_) (.pure trivial)
  subst hc
  exact .ite shared.trackThread (.pure trivial)

variable {v : Variable}

theorem track (i : TableId) (hv : v.Only Command.Stays) :
    Coupled (Recast id) (fun _ _ => True) (v.track i) (v.ambientForm.track i) := by
  refine .bind (ensureLiveSet i) fun _ _ _ => .bind (liveSet? i) fun a _ ⟨ha, hset⟩ => ?_
  subst ha
  cases a with
  | none => exact .pure trivial
  | some set =>
    have hform : set.ambientForm.insert v.ambientForm.slot v.ambientForm =
        LiveSet.ambientForm (set.insert v.slot v) := (map_insert set _ v.slot v).symm
    dsimp only [Option.map_some]
    rw [hform]
    refine setLiveSet i fun slot w hw => ?_
    rw [ExtTreeMap.getElem?_insert] at hw
    split at hw
    · cases hw
      exact hv
    · exact hset set rfl slot w hw

theorem untrack (i : TableId) (v : Variable) :
    Coupled (Recast id) (fun _ _ => True) (v.untrack i) (v.ambientForm.untrack i) := by
  refine .bind (liveSet? i) fun a _ ⟨ha, hset⟩ => ?_
  subst ha
  cases a with
  | none => exact .pure trivial
  | some set =>
    have hform : set.ambientForm.erase v.ambientForm.slot = LiveSet.ambientForm (set.erase v.slot) :=
      (map_erase set _ v.slot).symm
    dsimp only [Option.map_some]
    rw [hform]
    refine setLiveSet i fun slot w hw => ?_
    rw [ExtTreeMap.getElem?_erase] at hw
    split at hw
    · cases hw
    · exact hset set rfl slot w hw

theorem unset_liveSet (i : TableId) :
    Coupled (Recast id)
      (fun c d => d = c.map Cell.ambientForm ∧ ∀ set, c.bind Cell.liveSet? = some set →
        ∀ v ∈ set.toList.map (·.2), v.Only Command.Stays)
      (Storage.unset i reservedSlot) (Storage.unset i reservedSlot) := by
  intro sc sc' hr
  have h := unset i reservedSlot sc sc' hr
  rw [runOn_unset, runOn_unset] at h ⊢
  obtain ⟨ho, hs⟩ := h
  refine ⟨.ok ⟨?_, fun set hset v hv => (hr.2.tracks i).mem_toList ?_⟩, hs⟩
  · cases ho with
    | ok h => exact h
  · have hlive : Table.live (sc.thread.table i) = set := congrArg (Option.getD · ∅) hset
    rwa [hlive]

end Context

end ThreadSlots
