import ThreadSlots.Proofs.Threads
import ThreadSlots.Proofs.Accounting

/-!
# The tables are well typed

A table holds cells of any type. What makes each variable read its slot at the right type is that a
slot belongs to one variable for good: in every table that was not made with values in it by hand,
every set slot but the reserved one holds a value of the type of its variable, and the reserved one a
live set (`Table.Typed`). So whatever the threads of a session and their nested code do, a variable
that is set is read and handed back at its type, and no live set is taken for a missing one
(`Session.typed_of_run`).
-/

namespace ThreadSlots

open Storage

/-- Every set slot holds what belongs there. -/
structure Table.Typed (p : Process) (t : SlotTable) : Prop where
  reserved : ∀ cell, t.get? reservedSlot = some cell → ∃ set, cell = .liveSet set
  others : ∀ slot cell, slot ≠ reservedSlot → t.get? slot = some cell →
    ∃ v value, p.Knows v ∧ v.slot = slot ∧ cell = .value value ∧ value.kind = v.kind

namespace Table.Typed

variable {p : Process} {t : SlotTable}

theorem of_blank (h : t.Blank) : t.Typed p :=
  ⟨fun cell hcell => by simp [h reservedSlot] at hcell,
    fun slot cell _ hcell => by simp [h slot] at hcell⟩

theorem mono {p' : Process} (h : ∀ v, p.Knows v → p'.Knows v) (ht : t.Typed p) : t.Typed p' := by
  refine ⟨ht.reserved, fun slot cell hslot hcell => ?_⟩
  obtain ⟨v, value, hv, hvalue⟩ := ht.others slot cell hslot hcell
  exact ⟨v, value, h v hv, hvalue⟩

theorem erase (ht : t.Typed p) (slot : Nat) : (t.erase slot).table.Typed p := by
  constructor
  · intro cell hcell
    rw [Table.get?_erase] at hcell
    split at hcell
    · cases hcell
    · exact ht.reserved cell hcell
  · intro s cell hs hcell
    rw [Table.get?_erase] at hcell
    split at hcell
    · cases hcell
    · exact ht.others s cell hs hcell

theorem withLive (ht : t.Typed p) (set : LiveSet) : (t.withLive set).Typed p := by
  constructor
  · intro cell hcell
    rw [Table.get?_withLive, if_pos rfl] at hcell
    exact ⟨set, (Option.some.inj hcell).symm⟩
  · intro s cell hs hcell
    rw [Table.get?_withLive, if_neg hs] at hcell
    exact ht.others s cell hs hcell

theorem without (ht : t.Typed p) (v : Variable) : (t.without v).Typed p := by
  refine erase ?_ v.slot
  unfold Table.untracked
  split
  · exact ht.withLive _
  · exact ht

/-- A variable's slot receives a value of the variable's type. -/
theorem track (ht : t.Typed p) (hp : p.Sound) {v : Variable} (hv : p.Knows v) {value : Value}
    (hkind : value.kind = v.kind) {stored : Table.Stored Cell}
    (h : t.insert v.slot (.value value) = .ok stored) : (stored.track v).Typed p := by
  have hstored : stored.table.Typed p := by
    constructor
    · intro cell hcell
      rw [(Table.insert_eq_ok h).1, if_neg (hp.slot_ne hv).symm] at hcell
      exact ht.reserved cell hcell
    · intro s cell hs hcell
      rw [(Table.insert_eq_ok h).1] at hcell
      split at hcell
      · next he => exact ⟨v, value, hv, he.symm, (Option.some.inj hcell).symm, hkind⟩
      · exact ht.others s cell hs hcell
  unfold Table.Stored.track
  split
  · exact hstored.withLive _
  · exact hstored

end Table.Typed

/-- The tables that were not filled by hand are well typed. -/
def Thread.Typed (p : Process) (t : Thread) : Prop := ∀ id ∉ t.filled, (t.table id).Typed p

theorem Thread.Typed.setTable {sc : Scene} (h : sc.thread.Typed sc.process) {id : TableId}
    {t : SlotTable} (ht : (sc.thread.table id).Typed sc.process → t.Typed sc.process) :
    (sc.setTable id t).thread.Typed sc.process := by
  intro i hi
  rw [Scene.table_setTable]
  split
  · next he =>
    subst he
    exact ht (h i hi)
  · exact h i hi

/-- No thread loses its types. -/
theorem keeps_typed : Keeps Thread.Typed where
  empty {p t} htables _ _ _ := by
    intro id _
    refine .of_blank fun slot => ?_
    simp [Thread.table, htables]
  mono hp hgrows h id hid := (h id hid).mono (hgrows hp).2.knows
  interrupt h := h
  move {busy sc sc'} hs hm h := by
    cases hm with
    | aside haside =>
      intro id hid
      rw [haside.filled] at hid
      have := (h id hid).mono (haside.process hs.process).2.knows
      unfold Thread.table at *
      rwa [haside.tables]
    | make t marks news hfills =>
      intro id hid
      have hid : id ∉ marks ∧ id ∉ sc.thread.filled :=
        ⟨fun hm => hid (List.mem_append_left _ hm), fun hm => hid (List.mem_append_right _ hm)⟩
      show ((sc.makeTable t).thread.table id).Typed sc.process
      rw [Scene.table_makeTable]
      split
      · next he =>
        -- an unmarked table holds nothing yet
        refine .of_blank (hfills.unmarked (List.eq_nil_iff_forall_not_mem.2 fun i hi => ?_))
        obtain rfl := hfills.marked i hi
        exact hid.1 (he ▸ hi)
      · exact h id hid.2
    | relocate => exact h
    | empty id policy => exact h.setTable fun _ => .of_blank (Table.get?_mk _)
    | put hv id value hkind fate _ hi =>
      exact h.setTable fun ht => ht.track hs.process hv hkind hi
    | @take v hv id => exact h.setTable fun ht => ht.without v
    | @remove v hv id =>
      rw [Scene.thread_handedOver, Scene.process_handedOver]
      exact h.setTable fun ht => ht.without v
    | @clear v hv id hid =>
      rw [Scene.thread_handedOver, Scene.process_handedOver]
      exact h.setTable fun ht => ht.erase v.slot
    | detach hid => exact h.setTable fun ht => ht.erase reservedSlot

/-! ## What a variable reads -/

section

variable {sc : Scene} {id : TableId} {v : Variable} {x : Value}

/-- A set variable of a well-typed table has a value of its type. -/
theorem Table.Typed.exists_value {p : Process} {t : SlotTable} (ht : t.Typed p) (hp : p.Sound)
    (hv : p.Knows v) (hset : t.contains v.slot) :
    ∃ x, t.get? v.slot = some (.value x) ∧ x.kind = v.kind := by
  obtain ⟨cell, hcell⟩ := Option.isSome_iff_exists.1 hset
  obtain ⟨u, x, hu, he, rfl, hkind⟩ := ht.others v.slot cell (hp.slot_ne hv) hcell
  obtain rfl := hu.eq hv he
  exact ⟨x, hcell, hkind⟩

/-- A value at its variable's type is read without the initializer. -/
theorem runOn_getIn_of_value (hget : (sc.thread.table id).get? v.slot = some (.value x))
    (hkind : x.kind = v.kind) (enter : Enter) : runOn (v.getIn enter id) sc = (.ok x, sc) := by
  unfold Variable.getIn
  simp [hget, Cell.value?, hkind]

theorem runOn_withIn_of_value (hget : (sc.thread.table id).get? v.slot = some (.value x))
    (hkind : x.kind = v.kind) (enter : Enter) (nested : Value → Script) :
    runOn (v.withIn enter id (some nested)) sc =
      runOn (do let _ ← enter (nested x); return x : Storage Value) sc := by
  unfold Variable.withIn
  rw [runOn_bind, runOn_getIn_of_value hget hkind]

/-- A value at its variable's type is handed back when another one is stored. -/
theorem runOn_replaceIn_of_value (hget : (sc.thread.table id).get? v.slot = some (.value x))
    (hkind : x.kind = v.kind) (y : Value) :
    (∃ stop, runOn (v.replaceIn id y) sc = (.error stop, sc)) ∨
      (runOn (v.replaceIn id y) sc).1 = .ok (some x) := by
  unfold Variable.replaceIn
  rw [runOn_bind]
  rcases hi : (sc.thread.table id).insert v.slot (.value y) with e | stored
  · rw [runOn_putIn_error sc hi]
    exact .inl ⟨_, rfl⟩
  · obtain ⟨sc', hrun, -⟩ := ends_putIn sc .returned hi
    rw [hrun, hget]
    right
    simp [Cell.value?, hkind]

/-- A table that has a live set keeps it. -/
theorem runOn_ensureLiveSet_of_liveSet {set : LiveSet}
    (hget : (sc.thread.table id).get? reservedSlot = some (.liveSet set)) :
    runOn (ensureLiveSet id) sc = (.ok (), sc) := by
  unfold ensureLiveSet
  simp [hget, Cell.liveSet?]

end

/-- **Tables are well typed**: at every point of every session, nested code included, a table of a
thread that was not filled by hand has values only of the types of their variables, and a live set in
its reserved slot or nothing; no table that a thread carries or has as its fallback table was filled
by hand. So a set variable is read without its initializer, its value is handed back when it is taken
or replaced, and a table that has a live set is not given another. -/
theorem Session.typed_of_run (environment : Environment) (depth : Nat) (steps : List Step) :
    let s := ((Session.start environment depth).run steps).2
    ∀ a ∈ s.actors, ∀ busy sc, Course busy { process := s.process, thread := a.thread } sc →
      (∀ id, sc.thread.Holds id → id ∉ sc.thread.filled) ∧
      ∀ id ∉ sc.thread.filled,
        (sc.thread.table id).Typed sc.process ∧
        ((sc.thread.table id).contains reservedSlot →
          runOn (ensureLiveSet id) sc = (.ok (), sc)) ∧
        ∀ v, sc.process.Knows v → (sc.thread.table id).contains v.slot →
          ∃ x, x.kind = v.kind ∧ (sc.thread.table id).get? v.slot = some (.value x) ∧
            (∀ enter, runOn (v.getIn enter id) sc = (.ok x, sc)) ∧
            (∀ enter nested, runOn (v.withIn enter id (some nested)) sc =
              runOn (do let _ ← enter (nested x); return x : Storage Value) sc) ∧
            (runOn (v.takeIn id) sc).1 = .ok (some x) ∧
            ∀ y, (∃ stop, runOn (v.replaceIn id y) sc = (.error stop, sc)) ∨
              (runOn (v.replaceIn id y) sc).1 = .ok (some x) := by
  intro s a ha busy sc hcourse
  have hsound : s.Sound := (Session.sound_start environment depth).run steps
  have hs₀ : Scene.Sound { process := s.process, thread := a.thread } :=
    ⟨hsound.process, hsound.threads a ha⟩
  have hs := hcourse.sound hs₀
  have htyped : sc.thread.Typed sc.process :=
    keeps_typed.course hcourse hs₀ (keeps_typed.of_run environment depth steps a ha)
  refine ⟨fun id hid hfilled => (hs.thread.filled id hfilled).2 hid, fun id hid => ?_⟩
  have ht := htyped id hid
  refine ⟨ht, fun hset => ?_, fun v hv hset => ?_⟩
  · obtain ⟨cell, hcell⟩ := Option.isSome_iff_exists.1 hset
    obtain ⟨set, rfl⟩ := ht.reserved cell hcell
    exact runOn_ensureLiveSet_of_liveSet hcell
  · obtain ⟨x, hget, hkind⟩ := ht.exists_value hs.process hv hset
    refine ⟨x, hkind, hget, runOn_getIn_of_value hget hkind, runOn_withIn_of_value hget hkind, ?_,
      runOn_replaceIn_of_value hget hkind⟩
    rw [runOn_takeIn sc (hs.process.slot_ne hv), hget]
    simp [Cell.value?, hkind]

/-- A thread that carries its table has set a text and a number there; the number has gone to a table
that holds a number in the slot of the text, too. -/
def mixedKinds : List Step :=
  [.run "main" (.declare .text (.plain .text) none),
    .run "main" (.declare .int (.plain .int) none),
    .spawn "a" .carried none none,
    .run "a" (.access 0 .ambient (.set (.text "x"))),
    .run "a" (.access 1 .ambient (.set (.int 1))),
    .run "a" (.onTables (.new "t" none [(1, .int 7)]))]

theorem Session.typed_of_run_mixedKinds :
    let s := ((Session.start {} nestingLimit).run mixedKinds).2
    ∃ a ∈ s.actors, 0 ∉ a.thread.filled ∧ a.thread.filled = [1] ∧
      runOn (ensureLiveSet 0) { process := s.process, thread := a.thread } =
        (.ok (), { process := s.process, thread := a.thread }) ∧
      ∃ v, s.process.Knows v ∧ v.slot = 1 ∧ ∃ x, x.kind = .text ∧
        runOn (v.getIn (enter nestingLimit) 0) { process := s.process, thread := a.thread } =
          (.ok x, { process := s.process, thread := a.thread }) := by
  intro s
  have hvariable : (s.process.bySlot[1]?).map (fun v => (v.slot, v.kind)) = some (1, .text) := by
    decide +kernel
  have hthread : (s.actor? "a").map (fun a =>
      (a.thread.filled, (a.thread.table 0).contains reservedSlot, (a.thread.table 0).contains 1)) =
      some ([1], true, true) := by
    decide +kernel
  have htyped := Session.typed_of_run {} nestingLimit mixedKinds
  -- from here on the session is not evaluated any more
  have hs : ((Session.start {} nestingLimit).run mixedKinds).2 = s := rfl
  rw [hs] at htyped
  clear_value s
  obtain ⟨v, hv, h⟩ := Option.map_eq_some_iff.1 hvariable
  obtain ⟨a, ha, hfacts⟩ := Option.map_eq_some_iff.1 hthread
  simp only [Prod.mk.injEq] at h hfacts
  obtain ⟨hslot, hkind⟩ := h
  obtain ⟨hfilled, hreserved, hset⟩ := hfacts
  have hmem : a ∈ s.actors := Session.mem_actors ha
  have hknows : s.process.Knows v := by
    unfold Process.Knows
    rw [hslot]
    exact hv
  have hunfilled : 0 ∉ a.thread.filled := by simp [hfilled]
  obtain ⟨-, htables⟩ := htyped a hmem [] _ .rest
  obtain ⟨-, hensure, hvalues⟩ := htables 0 hunfilled
  obtain ⟨x, hx, -, hget, -⟩ := hvalues v hknows (by rw [hslot]; exact hset)
  exact ⟨a, hmem, hunfilled, hfilled, hensure hreserved, v, hknows, hslot, x, hx.trans hkind,
    hget (enter nestingLimit)⟩

end ThreadSlots
