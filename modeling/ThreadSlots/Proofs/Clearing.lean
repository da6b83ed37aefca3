import ThreadSlots.Proofs.Course

/-!
# Clearing a table without nested code

If the removal hooks run no nested code, clearing a variable is one change of the scene
(`Scene.cleared`), and a pass over variables is a fold of it up to the first panic. A pass visits the
variables in the order of their slots.
-/

namespace ThreadSlots

open Storage

namespace Variable

/-- The variable's removal hook, if there is one, runs no nested code. -/
def HookRunsAlone (v : Variable) : Prop := ∀ hook, v.onRemoval = some hook → hook.nested = none

/-- The message with which the removal hook panics when it is handed what a slot held. -/
def panicOn? (v : Variable) (cell : Option Cell) : Option String :=
  match v.onRemoval, cell.bind (·.value? v.kind) with
  | some hook, some value => hook.panics value
  | _, _ => none

end Variable

/-! ## Clearing without nested code -/

/-- The table without what the slots of the variables held. -/
def Table.eraseAll (t : SlotTable) (vs : List Variable) : SlotTable :=
  vs.foldl (fun t v => (t.erase v.slot).table) t

theorem Table.get?_eraseAll (t : SlotTable) (vs : List Variable) (slot : Nat) :
    (t.eraseAll vs).get? slot = if slot ∈ vs.map (·.slot) then none else t.get? slot := by
  unfold eraseAll
  induction vs generalizing t with
  | nil => simp
  | cons v vs ih =>
    rw [List.foldl_cons, ih, get?_erase]
    by_cases h : slot ∈ vs.map (·.slot) <;> by_cases h' : slot = v.slot <;> simp [h, h']

theorem Table.policy_eraseAll (t : SlotTable) (vs : List Variable) :
    (t.eraseAll vs).policy = t.policy := by
  unfold eraseAll
  induction vs generalizing t with
  | nil => rfl
  | cons v vs ih => rw [List.foldl_cons, ih, policy_erase]

theorem Table.capacity_eraseAll (t : SlotTable) (vs : List Variable) :
    (t.eraseAll vs).capacity = t.capacity := by
  unfold eraseAll
  induction vs generalizing t with
  | nil => rfl
  | cons v vs ih => rw [List.foldl_cons, ih, capacity_erase]

/-- The scene once a variable of a table was cleared, if the hook runs no nested code. -/
def Scene.cleared (id : TableId) (sc : Scene) (v : Variable) : Scene :=
  (sc.setTable id ((sc.thread.table id).erase v.slot).table).handedOver v id
    ((sc.thread.table id).get? v.slot)

section

variable {enter : Enter} {id : TableId} {v : Variable} {sc sc' : Scene}

theorem runOn_clear_alone (hv : v.HookRunsAlone) :
    runOn (v.clear enter id) sc = match v.panicOn? ((sc.thread.table id).get? v.slot) with
      | some message => (.error (.panicked message), sc.cleared id v)
      | none => (.ok (), sc.cleared id v) := by
  rw [runOn_clear]
  unfold Variable.runHook Variable.panicOn? Hook.run Scene.cleared
  rcases hhook : v.onRemoval with _ | hook
  · rfl
  · rcases ((sc.thread.table id).get? v.slot).bind (·.value? v.kind) with _ | value
    · rfl
    · simp only [hv hook hhook]
      rcases hook.panics value with _ | message <;> rfl

/-- A pass over variables that ends in a panic has cleared them up to the one whose hook panicked. -/
theorem exists_panic_of_clearEach {vs : List Variable} (hvs : ∀ v ∈ vs, v.HookRunsAlone)
    {stop : Stop} (hrun : runOn (clearEach enter id vs) sc = (.error stop, sc')) :
    ∃ before v after message, vs = before ++ v :: after ∧
      sc' = (before ++ [v]).foldl (Scene.cleared id) sc ∧ stop = .panicked message ∧
      v.panicOn? (((before.foldl (Scene.cleared id) sc).thread.table id).get? v.slot) =
        some message := by
  induction vs generalizing sc with
  | nil => cases hrun
  | cons v vs ih =>
    obtain ⟨hv, hvs⟩ := List.forall_mem_cons.1 hvs
    unfold clearEach at hrun
    rw [runOn_bind, runOn_clear_alone hv] at hrun
    rcases hp : v.panicOn? ((sc.thread.table id).get? v.slot) with _ | message
    · rw [hp] at hrun
      obtain ⟨before, u, after, message, rfl, hsc, hstop, hpanic⟩ := ih hvs hrun
      exact ⟨v :: before, u, after, message, rfl, hsc, hstop, hpanic⟩
    · rw [hp] at hrun
      cases hrun
      exact ⟨[], v, vs, message, rfl, rfl, rfl, hp⟩

/-- If no hook panics, a pass clears every variable. -/
theorem runOn_clearEach_alone {vs : List Variable} (hvs : ∀ v ∈ vs, v.HookRunsAlone)
    (hcalm : ∀ v ∈ vs, ∀ cell, v.panicOn? cell = none) :
    runOn (clearEach enter id vs) sc = (.ok (), vs.foldl (Scene.cleared id) sc) := by
  induction vs generalizing sc with
  | nil => rfl
  | cons v vs ih =>
    obtain ⟨hv, hvs⟩ := List.forall_mem_cons.1 hvs
    obtain ⟨hvcalm, hcalm⟩ := List.forall_mem_cons.1 hcalm
    unfold clearEach
    rw [runOn_bind, runOn_clear_alone hv, hvcalm]
    exact ih hvs hcalm

theorem table_foldl_cleared (vs : List Variable) :
    (vs.foldl (Scene.cleared id) sc).thread.table id = (sc.thread.table id).eraseAll vs := by
  induction vs generalizing sc with
  | nil => rfl
  | cons v vs ih =>
    rw [List.foldl_cons, ih, Scene.cleared, Scene.thread_handedOver, Scene.table_setTable_self]
    rfl

theorem get?_foldl_cleared (vs : List Variable) (slot : Nat) :
    ((vs.foldl (Scene.cleared id) sc).thread.table id).get? slot =
      if slot ∈ vs.map (·.slot) then none else (sc.thread.table id).get? slot := by
  rw [table_foldl_cleared, Table.get?_eraseAll]

theorem own?_foldl_cleared (vs : List Variable) :
    (vs.foldl (Scene.cleared id) sc).own? = sc.own? := by
  induction vs generalizing sc with
  | nil => rfl
  | cons v vs ih =>
    rw [List.foldl_cons, ih, Scene.own?, Scene.cleared, Scene.thread_handedOver,
      Scene.process_handedOver]
    rfl

end

/-! ## The order of a pass -/

/-- The slots of the listed variables are the keys of the live set. -/
theorem Table.Lists.map_slot_listed {p : Process} {t : SlotTable} (ht : t.Lists p) :
    t.listed.map (·.slot) = t.live.keys := by
  unfold Table.listed
  rw [List.map_map, ← Std.ExtTreeMap.map_fst_toList_eq_keys]
  refine List.map_congr_left fun x hx => ?_
  exact (ht x.1 x.2 (Std.ExtTreeMap.mem_toList_iff_getElem?_eq_some.1 hx)).1

/-- A pass visits the variables in the order of their slots. -/
theorem Table.Lists.pairwise_listed {p : Process} {t : SlotTable} (ht : t.Lists p) :
    (t.listed.map (·.slot)).Pairwise (· < ·) := by
  rw [ht.map_slot_listed]
  exact t.live.ordered_keys.imp Nat.compare_eq_lt.1

/-- In a table that agrees, the slots of the listed variables are the set ones. -/
theorem Table.Agrees.mem_slots_listed {p : Process} {t : SlotTable} (ht : t.Agrees)
    (hl : t.Lists p) {slot : Nat} (hslot : slot ≠ reservedSlot) :
    slot ∈ t.listed.map (·.slot) ↔ t.contains slot := by
  rw [hl.map_slot_listed, Std.ExtTreeMap.mem_keys, ht slot]
  exact and_iff_right hslot

end ThreadSlots
