import ThreadSlots.Proofs.Maps.Refinement

/-!
# Operations on variables refine those on maps

One lemma for each operation on a variable in one table, which reads, writes or deletes in the map
that the table mirrors, and one for the clearing of a thread. A pass over the live set calls the
hooks in the order in which the map lists its values (`Table.Mirrors.flatMap_farewell`).
-/

namespace ThreadSlots

open Std (ExtTreeMap)
open Storage
open Maps (Turn World ValueMap Own Owner Shared farewell)

/-! ## Effects of pure callbacks -/

section

variable {known : List Variable} {destroys : Nat} {sc : Scene} {w : World} {v : Variable}

theorem Scene.Mirrors.knows (hm : sc.Mirrors known destroys w) (hv : v ∈ known) :
    sc.process.Knows v :=
  hm.known v hv

theorem Scene.Mirrors.isPure (hm : sc.Mirrors known destroys w) (hv : v ∈ known) : v.Pure :=
  hm.process.pure _ _ (hm.knows hv)

theorem Scene.Mirrors.table_value? (hm : sc.Mirrors known destroys w) (hv : v ∈ known)
    (i : TableId) :
    ((sc.thread.table i).get? v.slot).bind (·.value? v.kind) = (w.owner.map i).value? v :=
  (hm.thread.tables i).value?_eq hm.process.sound (hm.knows hv)

theorem Scene.Mirrors.parted (hm : sc.Mirrors known destroys w) (i : TableId) (slot : Nat)
    (fate : Fate) (cell : Option Cell) : (sc.parted i slot fate cell).Mirrors known destroys w :=
  ⟨hm.process, hm.thread, hm.events, hm.known⟩

theorem Scene.Mirrors.arrived (hm : sc.Mirrors known destroys w) (i : TableId) (slot : Nat)
    (value : Value) : (sc.arrived i slot (.value value)).Mirrors known destroys w :=
  ⟨hm.process, hm.thread, hm.events, hm.known⟩

/-- Handing over what a slot held calls the hook if that was a value. -/
theorem Scene.handedOver_eq (sc : Scene) (v : Variable) (i : TableId) (cell : Option Cell) :
    sc.handedOver v i cell =
      { sc with
        events := (farewell v (cell.bind (·.value? v.kind))).reverse ++ sc.events
        partings := (sc.handedOver v i cell).partings } := by
  unfold Scene.handedOver farewell
  rcases v.onRemoval with _ | hook
  · rcases cell.bind (·.value? v.kind) with _ | value <;> rfl
  · rcases cell.bind (·.value? v.kind) with _ | value <;> rfl

theorem map_shown_farewell (v : Variable) (value : Option Value) :
    (farewell v value).map Event.shown = farewell v value := by
  unfold farewell
  rcases value with _ | value
  · rfl
  · dsimp only
    split <;> rfl

theorem Scene.Mirrors.handedOver (hm : sc.Mirrors known destroys w) (i : TableId)
    (cell : Option Cell) :
    (sc.handedOver v i cell).Mirrors known destroys
      (w.say (farewell v (cell.bind (·.value? v.kind)))) := by
  obtain ⟨hprocess, hthread, hevents, hknown⟩ :=
    hm.say (farewell v (cell.bind (·.value? v.kind)))
  rw [map_shown_farewell] at hevents hprocess hthread
  rw [Scene.handedOver_eq]
  exact ⟨hprocess, hthread, hevents, hknown⟩

end

theorem Variable.Pure.hookRunsAlone {v : Variable} (h : v.Pure) : v.HookRunsAlone :=
  fun hook hhook => (h.hook hook hhook).1

theorem Variable.Pure.panicOn?_eq {v : Variable} (h : v.Pure) (cell : Option Cell) :
    v.panicOn? cell = none := by
  unfold Variable.panicOn?
  split
  · next hook _ hhook _ => exact (h.hook hook hhook).2 _
  · rfl

theorem runOn_runHook_pure {v : Variable} (hv : v.Pure) (enter : Enter) (cell : Option Cell)
    (sc : Scene) : runOn (v.runHook enter cell) sc = (.ok (), sc) := by
  unfold Variable.runHook
  split
  · next hook value hhook _ =>
    obtain ⟨hnested, hpanics⟩ := hv.hook hook hhook
    simp [Hook.run, hnested, hpanics value]
  · rfl

/-! ## One variable -/

namespace Refines

section

variable {known : List Variable} {v : Variable} (hv : v ∈ known)

include hv in
theorem putIn (i : TableId) {value : Value} (hkind : value.kind = v.kind) (fate : Fate) :
    Refines known (·.bind (·.value? v.kind)) (v.putIn i value fate) (Turn.put v i value) := by
  refine of_ends fun destroys sc w hm => ?_
  have ht := hm.thread.tables i
  obtain ⟨stored, hi, -⟩ := ht.exists_insert hm.process.sound (hm.knows hv) (.value value)
  refine ⟨_, _, ends_putIn sc fate hi, ?_, rfl, ?_⟩
  · exact congrArg Except.ok (hm.table_value? hv i).symm
  · exact ((hm.setTable i (ht.insert hm.process.sound (hm.knows hv) hkind hi)).arrived i _ _).parted i
      _ _ _

include hv in
theorem setIn (i : TableId) {value : Value} (hkind : value.kind = v.kind) :
    Refines known id (v.setIn i value) (Turn.set v i value) :=
  bind (putIn hv i hkind .overwritten) fun _ => pure ()

include hv in
theorem replaceIn (i : TableId) {value : Value} (hkind : value.kind = v.kind) :
    Refines known id (v.replaceIn i value) (Turn.put v i value) := by
  intro destroys sc w hm hbound
  obtain ⟨hresult, hm'⟩ := putIn hv i hkind .returned destroys sc w hm hbound
  unfold Variable.replaceIn
  rw [runOn_bind]
  rcases hr : runOn (v.putIn i value .returned) sc with ⟨stop | cell, sc'⟩
  all_goals
    rw [hr] at hresult hm'
    exact ⟨hresult, hm'⟩

include hv in
theorem takeIn (i : TableId) : Refines known id (v.takeIn i) (Turn.take v i) := by
  refine of_ends fun destroys sc w hm => ?_
  have hslot := hm.process.sound.slot_ne (hm.knows hv)
  refine ⟨_, _, .of_runOn (runOn_takeIn sc hslot i), ?_, rfl, ?_⟩
  · exact congrArg Except.ok (hm.table_value? hv i).symm
  · have ht := (hm.thread.tables i).erase hm.process.sound (hm.knows hv)
    exact (hm.setTable i ht).parted i _ _ _

/-- The scene after a removal is the world after it. -/
theorem removed_mirrors {destroys : Nat} {sc : Scene} {w : World}
    (hm : sc.Mirrors known destroys w) (hv : v ∈ known) (i : TableId) :
    ((sc.setTable i ((sc.thread.table i).without v)).handedOver v i
      ((sc.thread.table i).get? v.slot)).Mirrors known destroys (Turn.remove v i w).world := by
  have ht := (hm.thread.tables i).erase hm.process.sound (hm.knows hv)
  have hover := (hm.setTable i ht).handedOver (v := v) i ((sc.thread.table i).get? v.slot)
  rw [hm.table_value? hv i] at hover
  exact hover

include hv in
theorem removeIn (enter : Enter) (i : TableId) :
    Refines known id (v.removeIn enter i) (Turn.remove v i) := by
  refine of_ends fun destroys sc w hm => ?_
  have hrun := runOn_removeIn sc enter v i
  rw [runOn_runHook_pure (hm.isPure hv)] at hrun
  exact ⟨(), _, .of_runOn hrun, rfl, rfl, removed_mirrors hm hv i⟩

include hv in
theorem storeIn (enter : Enter) (i : TableId) (entry : Option Literal) :
    Refines known id (v.storeIn enter i (entry.map v.kind.read))
      (Turn.store v i (entry.map v.kind.read)) := by
  cases entry with
  | some literal =>
    refine of_ends fun destroys sc w hm => ?_
    have ht := hm.thread.tables i
    obtain ⟨stored, hi, -⟩ := ht.exists_insert hm.process.sound (hm.knows hv)
      (.value (v.kind.read literal))
    refine ⟨(), _, ends_storeIn_some sc enter hi, rfl, rfl, ?_⟩
    have ht' := ht.insert hm.process.sound (hm.knows hv) (v.kind.kind_read literal) hi
    exact ((hm.setTable i ht').arrived i _ _).parted i _ _ _
  | none =>
    intro destroys sc w hm hbound
    have hpolicy : (sc.thread.table i).policy = (w.owner.map i).policy :=
      (hm.thread.tables i).policy
    have hturn : Turn.store v i none w =
        if (w.owner.map i).policy.rejectsSentinel then
          { result := .error (.refused (.sentinelStored v.slot)), world := w }
        else Turn.remove v i w := by
      rw [Turn.store, Turn.bind_eq rfl]
      split <;> rfl
    have hrun := runOn_storeIn_none sc enter v i
    rw [hpolicy, runOn_runHook_pure (hm.isPure hv)] at hrun
    rw [Option.map_none, hrun, hturn]
    split
    · exact ⟨rfl, hm⟩
    · exact ⟨rfl, removed_mirrors hm hv i⟩

include hv in
theorem isSetIn (i : TableId) : Refines known id (v.isSetIn i) (Turn.isSet v i) := by
  refine of_runOn fun destroys sc w hm => ⟨_, rfl, ?_⟩
  rw [(hm.thread.tables i).contains_eq hm.process.sound (hm.knows hv)]
  rfl

end

end Refines

/-! ## Initial values -/

/-- The scene once the initializer has made a value. -/
def Scene.initialized (sc : Scene) (v : Variable) (value : Value) : Scene :=
  { sc with
    process :=
      { sc.process with
        draws := sc.process.draws.insert v.slot (sc.process.draws.getD v.slot 0 + 1) }
    events := (if v.initial.silent then [] else [.initialized v.handle value]) ++ sc.events }

theorem Scene.Mirrors.initialized {known : List Variable} {destroys : Nat} {sc : Scene} {w : World}
    (hm : sc.Mirrors known destroys w) (v : Variable) (value : Value) :
    (sc.initialized v value).Mirrors known destroys
      ({ w with
        shared :=
          { w.shared with
            draws := w.shared.draws.insert v.slot (w.shared.draws.getD v.slot 0 + 1) } }.say
        (if v.initial.silent then [] else [.initialized v.handle value])) := by
  have hp := hm.process
  have hknows : ∀ u, sc.process.Knows u → (sc.initialized v value).process.Knows u := fun _ hu => hu
  have hregister : (sc.initialized v value).process.register = sc.process.register := rfl
  refine ⟨⟨hp.sound.of_eq hregister, hp.pure, hp.supply, hp.bySlot, hp.byHandle,
    hp.nextHandle, ?_, hp.policy, hp.epoch, hp.bound⟩, hm.thread.mono hknows, ?_, hm.known⟩
  · exact congrArg (fun draws : ExtTreeMap Nat Nat =>
      draws.insert v.slot (draws.getD v.slot 0 + 1)) hp.draws
  · unfold Scene.initialized World.say
    rw [List.map_append, ← hm.events]
    split <;> rfl

theorem runOn_makeInitial_pure {v : Variable} (hv : v.Pure) (enter : Enter) (sc : Scene) :
    ∃ made, v.initial.outcome (sc.process.draws.getD v.slot 0) none = .ok made ∧
      runOn (v.makeInitial enter) sc =
        (.ok (v.kind.fit made), sc.initialized v (v.kind.fit made)) := by
  obtain ⟨hnested, houtcome⟩ := hv.initial
  obtain ⟨made, hmade⟩ := houtcome (sc.process.draws.getD v.slot 0)
  refine ⟨made, hmade, ?_⟩
  unfold Variable.makeInitial Variable.draw Initializer.runNested
  simp only [hnested, runOn_bind, runOn_process, runOn_modifyProcess, runOn_pure, hmade]
  unfold Scene.initialized
  cases v.initial.silent <;> rfl

namespace Refines

section

variable {known : List Variable} {v : Variable} (hv : v ∈ known)

include hv in
theorem makeInitial (enter : Enter) :
    Refines known id (v.makeInitial enter) (Turn.makeInitial v) := by
  refine of_ends fun destroys sc w hm => ?_
  obtain ⟨made, hmade, hrun⟩ := runOn_makeInitial_pure (hm.isPure hv) enter sc
  rw [← hm.process.draws] at hmade
  have hturn : Turn.makeInitial v w =
      { result := .ok (v.kind.fit made)
        world :=
          { w with
            shared :=
              { w.shared with
                draws := w.shared.draws.insert v.slot (w.shared.draws.getD v.slot 0 + 1) } }.say
            (if v.initial.silent then [] else [.initialized v.handle (v.kind.fit made)]) } := by
    rw [Turn.makeInitial, Turn.bind_eq rfl, Turn.bind_eq rfl, hmade]
    rfl
  rw [hturn]
  exact ⟨_, _, .of_runOn hrun, rfl, rfl, hm.initialized v _⟩

include hv in
theorem getIn (enter : Enter) (i : TableId) :
    Refines known id (v.getIn enter i) (Turn.get v i) := by
  have hmake : Refines known id (v.makeIn enter i) (do
      let value ← Turn.makeInitial v
      let _ ← Turn.put v i value
      return value) := by
    refine bind_quiet (fun sc => ⟨_, runOn_count sc _, .count sc (by decide)⟩) ?_
    refine bind_of (P := fun value => value.kind = v.kind) (makeInitial hv enter) ?_ fun value hkind =>
      bind (putIn hv i hkind .overwritten) fun _ => pure value
    intro destroys sc w value hm hvalue
    obtain ⟨made, -, hrun⟩ := runOn_makeInitial_pure (hm.isPure hv) enter sc
    rw [hrun] at hvalue
    cases hvalue
    exact v.kind.kind_fit made
  intro destroys sc w hm hbound
  have htable := hm.table_value? hv i
  cases hvalue : (w.owner.map i).value? v with
  | none =>
    have hget : runOn (v.getIn enter i) sc = runOn (v.makeIn enter i) sc := by
      rw [Variable.getIn, runOn_bind, runOn_table]
      simp only [htable, hvalue]
    have hturn : Turn.get v i w = (do
        let value ← Turn.makeInitial v
        let _ ← Turn.put v i value
        return value : Turn Value) w := by
      rw [Turn.get, Turn.bind_eq rfl, hvalue]
      rfl
    rw [hturn] at hbound ⊢
    rw [hget]
    exact hmake destroys sc w hm hbound
  | some value =>
    have hget : runOn (v.getIn enter i) sc = (.ok value, sc) := by
      rw [Variable.getIn, runOn_bind, runOn_table]
      simp only [htable, hvalue, runOn_pure]
    have hturn : Turn.get v i w = { result := .ok value, world := w } := by
      rw [Turn.get, Turn.bind_eq rfl, hvalue]
      rfl
    rw [hturn, hget]
    exact ⟨rfl, hm⟩

end

end Refines

/-! ## Clearing -/

namespace Table.Mirrors

variable {t : SlotTable} {p : Process} {m : ValueMap}

theorem listed_eq (h : t.Mirrors p m) : t.listed = m.values.toList.map (·.2.1) := by
  unfold Table.listed
  rw [h.live, ExtTreeMap.toList_map, List.map_map]
  rfl

theorem lists (h : t.Mirrors p m) : t.Lists p := by
  intro slot v hv
  rw [h.live, ExtTreeMap.getElem?_map] at hv
  obtain ⟨⟨u, value⟩, hm, rfl⟩ := Option.map_eq_some_iff.1 hv
  obtain ⟨hslot, hknows, -⟩ := h.entries slot u value hm
  exact ⟨hslot, hknows⟩

/-- The hooks of the listed variables are called with the values of the map. -/
theorem flatMap_farewell (h : t.Mirrors p m) (hp : p.Sound) :
    (t.listed.flatMap fun v =>
      farewell v (((t.erase reservedSlot).table.get? v.slot).bind (·.value? v.kind))) =
        m.farewells := by
  rw [h.listed_eq, List.flatMap_map, ValueMap.farewells, List.flatMap_def, List.flatMap_def]
  congr 1
  refine List.map_congr_left fun ⟨slot, v, value⟩ hmem => ?_
  have hm : m.values[slot]? = some (v, value) := ExtTreeMap.mem_toList_iff_getElem?_eq_some.1 hmem
  obtain ⟨rfl, hknows, -⟩ := h.entries slot v value hm
  have hvalue : m.value? v = some value := by rw [ValueMap.value?, hm]; rfl
  rw [Table.get?_erase, if_neg (hp.slot_ne hknows), h.value?_eq hp hknows, hvalue]

/-- A table that was cleared holds what the emptied map holds. -/
theorem cleared (h : t.Mirrors p m) :
    ((t.erase reservedSlot).table.eraseAll t.listed).Mirrors p m.emptied := by
  have hpolicy : ((t.erase reservedSlot).table.eraseAll t.listed).policy = m.policy := by
    rw [Table.policy_eraseAll, Table.policy_erase, h.policy]
  have hblank : ((t.erase reservedSlot).table.eraseAll t.listed).Blank := by
    intro slot
    rw [Table.get?_eraseAll, Table.get?_erase]
    split
    · rfl
    · next hnot =>
      split
      · rfl
      · next hs =>
        rw [h.lists.map_slot_listed, ExtTreeMap.mem_keys, h.live, ExtTreeMap.mem_map] at hnot
        rw [h.get slot hs, ExtTreeMap.getElem?_eq_none hnot]
        rfl
  have hgrown : ((t.erase reservedSlot).table.eraseAll t.listed).Grown := by
    unfold Table.Grown
    rw [Table.capacity_eraseAll, Table.capacity_erase]
    exact h.grown
  rw [ValueMap.emptied, ← hpolicy]
  exact .of_blank hgrown hblank

end Table.Mirrors

theorem map_shown_farewells (m : ValueMap) : m.farewells.map Event.shown = m.farewells := by
  unfold ValueMap.farewells
  rw [List.map_flatMap]
  congr 1
  funext ⟨_, v, value⟩
  exact map_shown_farewell v (some value)

/-- A pass over variables without nested code and panics: the table loses their values, and their
hooks are called in order. -/
theorem foldl_cleared_eq {vs : List Variable} (hnodup : (vs.map (·.slot)).Nodup) (sc : Scene)
    (i : TableId) (t : SlotTable) :
    ∃ partings, vs.foldl (Scene.cleared i) (sc.setTable i t) =
      { sc.setTable i (t.eraseAll vs) with
        events := (vs.flatMap fun v =>
          farewell v ((t.get? v.slot).bind (·.value? v.kind))).reverse ++ sc.events
        partings := partings } := by
  induction vs generalizing sc t with
  | nil => exact ⟨sc.partings, rfl⟩
  | cons v vs ih =>
    rw [List.map_cons, List.nodup_cons] at hnodup
    obtain ⟨hnot, hnodup⟩ := hnodup
    obtain ⟨partings, hstep⟩ : ∃ partings, Scene.cleared i (sc.setTable i t) v =
        { sc with
          events := (farewell v ((t.get? v.slot).bind (·.value? v.kind))).reverse ++ sc.events
          partings := partings }.setTable i (t.erase v.slot).table := by
      unfold Scene.cleared
      rw [Scene.table_setTable_self, Scene.setTable_setTable, Scene.handedOver_eq]
      exact ⟨_, rfl⟩
    obtain ⟨partings', hrest⟩ := ih hnodup
      { sc with
        events := (farewell v ((t.get? v.slot).bind (·.value? v.kind))).reverse ++ sc.events
        partings := partings } (t.erase v.slot).table
    refine ⟨partings', ?_⟩
    rw [List.foldl_cons, hstep, hrest]
    have hsame : (vs.flatMap fun u =>
        farewell u (((t.erase v.slot).table.get? u.slot).bind (·.value? u.kind))) =
          vs.flatMap fun u => farewell u ((t.get? u.slot).bind (·.value? u.kind)) := by
      rw [List.flatMap_def, List.flatMap_def]
      congr 1
      refine List.map_congr_left fun u hu => ?_
      have hne : u.slot ≠ v.slot := fun he => hnot (he ▸ List.mem_map_of_mem hu)
      rw [Table.get?_erase, if_neg hne]
    rw [hsame, List.flatMap_cons, List.reverse_append, List.append_assoc]
    rfl

namespace Refines

variable {known : List Variable}

theorem clearTable (enter : Enter) : Refines known id (clearTable enter) Turn.clearOwn := by
  refine of_ends fun destroys sc w hm => ?_
  have hrun := runOn_clearTable enter sc
  have hunwatched := hm.like sc.like_unwatched
  rw [hm.own?_eq] at hrun
  rcases hown : w.owner.own.id? with _ | i
  · rw [hown] at hrun
    rw [Turn.clearOwn_eq, hown]
    exact ⟨false, _, .of_runOn hrun, rfl, rfl, dropFallback_mirrors_of_none hunwatched hown⟩
  · rw [hown] at hrun
    have ht := hm.thread.tables i
    have hpure : ∀ v ∈ (sc.thread.table i).listed, v.Pure := by
      intro v hv
      exact hm.process.pure _ _ (ht.lists.of_mem_listed hv).2
    have hnodup := ht.lists.pairwise_listed.imp Nat.ne_of_lt
    -- Pure hooks leave the table alone, so the pass is a fold over the live set, and that lists the
    -- variables in the order in which the map lists its values.
    have hpass : runOn (clearEach enter i (sc.thread.table i).listed) (sc.detached i) =
        (.ok (), (sc.thread.table i).listed.foldl (Scene.cleared i) (sc.detached i)) :=
      runOn_clearEach_alone (fun v hv => (hpure v hv).hookRunsAlone) fun v hv cell =>
        (hpure v hv).panicOn?_eq cell
    obtain ⟨partings, hfold⟩ := foldl_cleared_eq hnodup sc.unwatched.reached i
      ((sc.thread.table i).erase reservedSlot).table
    rw [ht.flatMap_farewell hm.process.sound] at hfold
    rw [Scene.detached, hfold] at hpass
    simp only [Scene.detached, hpass] at hrun
    have hreached := reached_mirrors hunwatched
    have ht' : (sc.thread.table i).Mirrors _ _ :=
      sc.like_unwatched.thread_table i ▸ hunwatched.thread.tables i
    have hlast := (hreached.setTable i ht'.cleared).say (w.owner.map i).farewells
    rw [map_shown_farewells] at hlast
    rw [Turn.clearOwn_eq, Owner.farewells, hown]
    refine ⟨true, _, .of_runOn hrun, rfl, rfl, ?_⟩
    obtain ⟨hprocess, hthread, hevents, hknown⟩ :=
      hlast.like (.count _ (c := .removeAllPasses) (by decide))
    exact ⟨hprocess, hthread, hevents, hknown⟩

end Refines

end ThreadSlots
