import ThreadSlots.Proofs.Callbacks
import ThreadSlots.Proofs.Effects

/-!
# Running an action on two scenes

Two actions are `Coupled` by a relation on scenes if, started in related scenes, they end alike and in
related scenes. A property of single scenes that every action keeps is the same thing on the diagonal.

A `Bond` is a relation that the primitive steps of the operations on variables keep, with a relation
that says which tables correspond. From these the operations follow one after the other, with
whatever nested code they run (`Bond.access`). An `OwnBond` moreover keeps the thread's own table
and its explicit tables, on both sides under the same identities; then it keeps everything that a
thread can do with its own storage (`OwnBond.command`).
-/

namespace ThreadSlots

open Storage

/-- Both actions stopped alike, or both ended with related results. -/
inductive Outcomes {α β : Type} (V : α → β → Prop) : Except Stop α → Except Stop β → Prop where
  | ok {a : α} {b : β} (h : V a b) : Outcomes V (.ok a) (.ok b)
  | error (stop : Stop) : Outcomes V (.error stop) (.error stop)

theorem Outcomes.eq {α : Type} {a b : Except Stop α} (h : Outcomes Eq a b) : b = a := by
  cases h with
  | ok h => rw [h]
  | error stop => rfl

/-- From related scenes the actions end alike, in related scenes. -/
def Coupled {α β : Type} (R : Scene → Scene → Prop) (V : α → β → Prop) (x : Storage α)
    (y : Storage β) : Prop :=
  ∀ sc sc', R sc sc' → Outcomes V (runOn x sc).1 (runOn y sc').1 ∧ R (runOn x sc).2 (runOn y sc').2

namespace Coupled

variable {α β γ δ : Type} {R : Scene → Scene → Prop} {V : α → β → Prop} {W : γ → δ → Prop}

theorem of_runOn {x : Storage α} {y : Storage β}
    (h : ∀ sc sc', R sc sc' → ∃ a b s s', runOn x sc = (.ok a, s) ∧ runOn y sc' = (.ok b, s') ∧
      V a b ∧ R s s') : Coupled R V x y := by
  intro sc sc' hr
  obtain ⟨a, b, s, s', hx, hy, hv, hs⟩ := h sc sc' hr
  rw [hx, hy]
  exact ⟨.ok hv, hs⟩

theorem pure {a : α} {b : β} (h : V a b) : Coupled R V (Pure.pure a) (Pure.pure b) :=
  fun _ _ hr => ⟨.ok h, hr⟩

theorem throw (stop : Stop) : Coupled R V (MonadExcept.throw stop) (MonadExcept.throw stop) :=
  fun _ _ hr => ⟨.error stop, hr⟩

/-- The rest may keep a weaker relation only. -/
theorem bind_weaker {R' : Scene → Scene → Prop} {x : Storage α} {y : Storage β}
    {f : α → Storage γ} {g : β → Storage δ} (hx : Coupled R V x y)
    (hR : ∀ {sc sc'}, R sc sc' → R' sc sc') (hf : ∀ a b, V a b → Coupled R' W (f a) (g b))
    {sc sc' : Scene} (hr : R sc sc') :
    Outcomes W (runOn (x >>= f) sc).1 (runOn (y >>= g) sc').1 ∧
      R' (runOn (x >>= f) sc).2 (runOn (y >>= g) sc').2 := by
  have h := hx sc sc' hr
  rw [runOn_bind, runOn_bind]
  generalize runOn x sc = ended at h
  generalize runOn y sc' = ended' at h
  obtain ⟨a, s⟩ := ended
  obtain ⟨b, s'⟩ := ended'
  obtain ⟨ho, hs⟩ := h
  cases ho with
  | ok hv => exact hf _ _ hv s s' (hR hs)
  | error stop => exact ⟨.error stop, hR hs⟩

theorem bind {x : Storage α} {y : Storage β} {f : α → Storage γ} {g : β → Storage δ}
    (hx : Coupled R V x y) (hf : ∀ a b, V a b → Coupled R W (f a) (g b)) :
    Coupled R W (x >>= f) (y >>= g) :=
  fun _ _ => hx.bind_weaker id hf

theorem ite {c : Prop} [Decidable c] {x x' : Storage α} {y y' : Storage β} (hx : Coupled R V x y)
    (hy : Coupled R V x' y') : Coupled R V (if c then x else x') (if c then y else y') := by
  split
  · exact hx
  · exact hy

theorem mono {V' : α → β → Prop} {x : Storage α} {y : Storage β} (h : Coupled R V x y)
    (hv : ∀ a b, V a b → V' a b) : Coupled R V' x y := by
  intro sc sc' hr
  obtain ⟨ho, hs⟩ := h sc sc' hr
  refine ⟨?_, hs⟩
  generalize (runOn x sc).1 = a at ho
  generalize (runOn y sc').1 = b at ho
  cases ho with
  | ok h => exact .ok (hv _ _ h)
  | error stop => exact .error stop

theorem map {x : Storage α} {y : Storage β} {f : α → γ} {g : β → δ} (hx : Coupled R V x y)
    (hf : ∀ a b, V a b → W (f a) (g b)) : Coupled R W (f <$> x) (g <$> y) := by
  rw [map_eq_pure_bind, map_eq_pure_bind]
  exact bind hx fun a b hv => pure (hf a b hv)

theorem tryCatch {x : Storage α} {y : Storage β} {f : Stop → Storage α} {g : Stop → Storage β}
    (hx : Coupled R V x y) (hf : ∀ stop, Coupled R V (f stop) (g stop)) :
    Coupled R V (MonadExcept.tryCatch x f) (MonadExcept.tryCatch y g) := by
  intro sc sc' hr
  have h := hx sc sc' hr
  rw [runOn_tryCatch, runOn_tryCatch]
  generalize runOn x sc = ended at h
  generalize runOn y sc' = ended' at h
  obtain ⟨a, s⟩ := ended
  obtain ⟨b, s'⟩ := ended'
  obtain ⟨ho, hs⟩ := h
  cases ho with
  | ok hv => exact ⟨.ok hv, hs⟩
  | error stop => exact hf stop s s' hs

theorem ofExcept (e : Except StorageError α) :
    Coupled R Eq (Storage.ofExcept e) (Storage.ofExcept e) := by
  cases e with
  | ok a => exact pure rfl
  | error e => exact throw _

/-- What is read off the scenes. -/
theorem read {x : Storage α} {y : Storage β} {f : Scene → α} {g : Scene → β}
    (hx : ∀ sc, runOn x sc = (.ok (f sc), sc)) (hy : ∀ sc, runOn y sc = (.ok (g sc), sc))
    (h : ∀ sc sc', R sc sc' → V (f sc) (g sc')) : Coupled R V x y :=
  of_runOn fun sc sc' hr => ⟨_, _, sc, sc', hx sc, hy sc', h sc sc' hr, hr⟩

/-- What is done in a table, if there is one. -/
theorem bind_some {T : TableId → TableId → Prop} {x y : Storage (Option TableId)} {c : γ} {d : δ}
    {f : TableId → Storage γ} {g : TableId → Storage δ} (hx : Coupled R (Option.Rel T) x y)
    (hcd : W c d) (hf : ∀ i j, T i j → Coupled R W (f i) (g j)) :
    Coupled R W (do
      let some i ← x | return c
      f i) (do
      let some j ← y | return d
      g j) := by
  refine bind hx fun a b hab => ?_
  cases hab with
  | none => exact pure hcd
  | some h => exact hf _ _ h

end Coupled

/-- Both scenes are the same one, and it has the property. -/
def Diagonal (I : Scene → Prop) (sc sc' : Scene) : Prop := sc' = sc ∧ I sc

namespace Coupled

variable {α : Type} {I : Scene → Prop} {V : α → α → Prop} {x : Storage α}

theorem of_keeps (h : ∀ sc, I sc → I (runOn x sc).2) : Coupled (Diagonal I) Eq x x := by
  intro sc sc' ⟨hsame, hi⟩
  subst hsame
  refine ⟨?_, rfl, h _ hi⟩
  cases (runOn x sc').1 with
  | ok a => exact .ok rfl
  | error stop => exact .error stop

theorem keeps (h : Coupled (Diagonal I) V x x) {sc : Scene} (hi : I sc) : I (runOn x sc).2 :=
  (h sc sc ⟨rfl, hi⟩).2.2

end Coupled

/-! ## Operations on variables -/

/-- A relation on scenes, with the relation of corresponding tables, that the primitive steps of the
operations on variables keep. The property `Q` is one of the variables that are found. -/
structure Bond (Q : Variable → Prop) (R : Scene → Scene → Prop) (T : TableId → TableId → Prop) :
    Prop where
  table : ∀ {sc sc' i j}, R sc sc' → T i j →
    sc'.thread.table j = sc.thread.table i ∧ (sc.thread.table i).Tracks Q
  setTable : ∀ {sc sc' i j}, R sc sc' → T i j → ∀ t, (sc.thread.table i).Follows Q t →
    R (sc.setTable i t) (sc'.setTable j t)
  emit : ∀ {sc sc'}, R sc sc' → ∀ e, R { sc with events := e :: sc.events }
    { sc' with events := e :: sc'.events }
  part : ∀ {sc sc' i j}, R sc sc' → T i j → ∀ slot value fate,
    R { sc with partings := .left i slot value fate :: sc.partings }
      { sc' with partings := .left j slot value fate :: sc'.partings }
  arrive : ∀ {sc sc' i j}, R sc sc' → T i j → ∀ slot value,
    R { sc with arrivals := ⟨i, slot, value⟩ :: sc.arrivals }
      { sc' with arrivals := ⟨j, slot, value⟩ :: sc'.arrivals }
  count : ∀ {sc sc'}, R sc sc' → ∀ c : Counter, c ≠ .fallbackDestroys ∧ c ≠ .variablesRegistered →
    R { sc with process := sc.process.count c } { sc' with process := sc'.process.count c }
  ensureLiveSet : ∀ {i j}, T i j → Coupled R (fun _ _ => True) (ensureLiveSet i) (ensureLiveSet j)
  draw : ∀ {v}, Q v →
    Coupled R (fun n m => v.initial.outcome m = v.initial.outcome n) v.draw v.draw
  lookup : ∀ handle, Coupled R (fun a b => b = a ∧ ∀ v, a = some v → Q v) (lookup handle)
    (lookup handle)
  current : Coupled R T current current
  current? : Coupled R (Option.Rel T) current? current?

theorem coupled_write {Q : Variable → Prop} {R : Scene → Scene → Prop} {i j : TableId}
    {f : SlotTable → Except StorageError (Table.Outcome Cell) × SlotTable}
    {g : SlotTable → Except StorageError (Table.Stored Cell)} (hf : ∀ t, f t = Table.calling t g)
    (htable : ∀ {sc sc'}, R sc sc' →
      sc'.thread.table j = sc.thread.table i ∧ (sc.thread.table i).Tracks Q)
    (hcount : ∀ {sc sc'}, R sc sc' →
      R { sc with process := sc.process.count .tableExpansions }
        { sc' with process := sc'.process.count .tableExpansions })
    (hset : ∀ {sc sc' stored}, R sc sc' → g (sc.thread.table i) = .ok stored →
      R (sc.setTable i stored.table) (sc'.setTable j stored.table)) :
    Coupled R Eq (write i f) (write j f) := by
  intro sc sc' hr
  rw [runOn_write sc hf, runOn_write sc' hf, (htable hr).1]
  rcases hg : g (sc.thread.table i) with e | stored
  · exact ⟨.error _, hr⟩
  · dsimp only
    split
    · exact ⟨.ok rfl, hset (hcount hr) hg⟩
    · exact ⟨.ok rfl, hset hr hg⟩

/-- Giving a table a live set, for a relation that does not see who watches whom. -/
theorem coupled_ensureLiveSet {Q : Variable → Prop} {R : Scene → Scene → Prop} {i j : TableId}
    (htable : ∀ {sc sc'}, R sc sc' → sc'.thread.table j = sc.thread.table i)
    (hset : ∀ {sc sc'}, R sc sc' → ∀ t : SlotTable, t.Tracks Q →
      R (sc.setTable i t) (sc'.setTable j t))
    (hlike : ∀ {sc sc' s s'}, R sc sc' → sc.Like s → sc'.Like s' → R s s') :
    Coupled R (fun _ _ => True) (ensureLiveSet i) (ensureLiveSet j) := by
  intro sc sc' hr
  cases hlive : ((sc.thread.table i).get? reservedSlot).bind Cell.liveSet? with
  | some set =>
    have hrun : ∀ {sc : Scene} {id}, ((sc.thread.table id).get? reservedSlot).bind Cell.liveSet? =
        some set → runOn (ensureLiveSet id) sc = (.ok (), sc) := by
      intro sc id hset
      simp [ensureLiveSet, hset]
    rw [hrun hlive, hrun (by rw [htable hr]; exact hlive)]
    exact ⟨.ok trivial, hr⟩
  | none =>
    have hlive' : ((sc'.thread.table j).get? reservedSlot).bind Cell.liveSet? = none := by
      rw [htable hr]
      exact hlive
    cases hinsert : (sc.thread.table i).insert reservedSlot (.liveSet ∅) with
    | error e =>
      rw [runOn_ensureLiveSet_error sc hlive hinsert,
        runOn_ensureLiveSet_error sc' hlive' (by rw [htable hr]; exact hinsert)]
      exact ⟨.error _, hr⟩
    | ok stored =>
      obtain ⟨s, hs, hlikes⟩ := ends_ensureLiveSet sc hlive hinsert
      obtain ⟨s', hs', hlikes'⟩ :=
        ends_ensureLiveSet sc' hlive' (by rw [htable hr]; exact hinsert)
      rw [hs, hs']
      exact ⟨.ok trivial, hlike (hset hr _ (.of_insert hinsert)) hlikes hlikes'⟩

namespace Bond

variable {Q : Variable → Prop} {R : Scene → Scene → Prop} {T : TableId → TableId → Prop}
  {P : Command → Prop} {enter : Enter} {v : Variable} {i j : TableId}

theorem read_table (h : Bond Q R T) (hij : T i j) :
    Coupled R (fun t u => u = t ∧ t.Tracks Q) (Storage.table i) (Storage.table j) :=
  .read (runOn_table · i) (runOn_table · j) fun _ _ hr => h.table hr hij

theorem emit_event (h : Bond Q R T) (e : Event) :
    Coupled R (fun _ _ => True) (Storage.emit e) (Storage.emit e) :=
  .of_runOn fun _ _ hr => ⟨_, _, _, _, rfl, rfl, trivial, h.emit hr e⟩

theorem parted (h : Bond Q R T) (hij : T i j) {sc sc' : Scene} (hr : R sc sc') (slot : Nat)
    (fate : Fate) (cell : Option Cell) :
    R (sc.parted i slot fate cell) (sc'.parted j slot fate cell) := by
  rcases cell with _ | value | set
  · exact hr
  · exact h.part hr hij slot value fate
  · exact hr

theorem partFrom (h : Bond Q R T) (hij : T i j) (slot : Nat) (cell : Option Cell) (fate : Fate) :
    Coupled R (fun _ _ => True) (Storage.partFrom i slot cell fate)
      (Storage.partFrom j slot cell fate) :=
  .of_runOn fun sc sc' hr =>
    ⟨_, _, _, _, runOn_partFrom sc i slot cell fate, runOn_partFrom sc' j slot cell fate, trivial,
      h.parted hij hr slot fate cell⟩

theorem count_event (h : Bond Q R T) {c : Counter}
    (hc : c ≠ .fallbackDestroys ∧ c ≠ .variablesRegistered) :
    Coupled R (fun _ _ => True) (Storage.count c) (Storage.count c) :=
  .of_runOn fun _ _ hr => ⟨_, _, _, _, rfl, rfl, trivial, h.count hr c hc⟩

theorem arrive_value (h : Bond Q R T) (hij : T i j) (slot : Nat) (value : Value) :
    Coupled R (fun _ _ => True) (Storage.arrive i slot (.value value))
      (Storage.arrive j slot (.value value)) :=
  .of_runOn fun _ _ hr => ⟨_, _, _, _, rfl, rfl, trivial, h.arrive hr hij slot value⟩

theorem write (h : Bond Q R T) (hij : T i j)
    {f : SlotTable → Except StorageError (Table.Outcome Cell) × SlotTable}
    {g : SlotTable → Except StorageError (Table.Stored Cell)} (hf : ∀ t, f t = Table.calling t g)
    (hg : ∀ {t : SlotTable} {stored}, g t = .ok stored → t.Follows Q stored.table) :
    Coupled R Eq (Storage.write i f) (Storage.write j f) :=
  coupled_write hf (h.table · hij) (h.count · _ (by decide)) fun hr hstored =>
    h.setTable hr hij _ (hg hstored)

theorem store_value (h : Bond Q R T) (hij : T i j) (slot : Nat) (value : Value) :
    Coupled R Eq (store i slot (.value value)) (store j slot (.value value)) :=
  .bind (h.write hij (·.set_eq slot _) .insert) fun _ _ hs =>
    .bind (h.arrive_value hij slot value) fun _ _ _ => .pure hs

theorem storeEntry (h : Bond Q R T) (hij : T i j) (slot : Nat) (entry : Option Value) :
    Coupled R Eq (Storage.storeEntry i slot (entry.map .value))
      (Storage.storeEntry j slot (entry.map .value)) := by
  cases entry with
  | some value => exact h.store_value hij slot value
  | none =>
    refine .bind (h.write hij (·.setEntry_eq slot _) fun hstored => ?_) fun _ _ hs => .pure hs
    simp only [Option.map_none, Table.store] at hstored
    split at hstored
    · cases hstored
    · cases hstored
      exact .erase slot

theorem unset (h : Bond Q R T) (hij : T i j) (slot : Nat) :
    Coupled R Eq (Storage.unset i slot) (Storage.unset j slot) :=
  .of_runOn fun sc sc' hr => by
    refine ⟨_, _, _, _, runOn_unset sc i slot, runOn_unset sc' j slot, ?_, ?_⟩
    · rw [(h.table hr hij).1]
    · rw [(h.table hr hij).1]
      exact h.setTable hr hij _ (.erase slot)

/-! ### Live sets -/

theorem modifyLiveSet (h : Bond Q R T) (hij : T i j) {f : LiveSet → LiveSet}
    (hf : ∀ t : SlotTable, t.HasLive → t.Follows Q (t.withLive (f t.live))) :
    Coupled R (fun _ _ => True)
      (do if let some set ← liveSet? i then setLiveSet i (f set))
      (do if let some set ← liveSet? j then setLiveSet j (f set)) :=
  .of_runOn fun sc sc' hr => by
    have htable := (h.table hr hij).1
    simp only [runOn_bind, runOn_liveSet?, htable]
    rcases hset : ((sc.thread.table i).get? reservedSlot).bind Cell.liveSet? with _ | set
    · exact ⟨_, _, _, _, rfl, rfl, trivial, hr⟩
    · have hlive : (sc.thread.table i).live = set := by simp [Table.live, hset]
      have hhas : (sc.thread.table i).HasLive := by simp [Table.HasLive, hset]
      have hfollows := hf _ hhas
      rw [hlive] at hfollows
      refine ⟨_, _, _, _, runOn_setLiveSet sc i (f set), runOn_setLiveSet sc' j (f set), trivial, ?_⟩
      rw [htable]
      exact h.setTable hr hij _ hfollows

theorem track (h : Bond Q R T) (hij : T i j) (hv : Q v) :
    Coupled R (fun _ _ => True) (v.track i) (v.track j) :=
  .bind (h.ensureLiveSet hij) fun _ _ _ =>
    h.modifyLiveSet hij (f := (·.insert v.slot v)) fun _ ht => .withLive_insert ht hv

theorem untrack (h : Bond Q R T) (hij : T i j) (v : Variable) :
    Coupled R (fun _ _ => True) (v.untrack i) (v.untrack j) :=
  h.modifyLiveSet hij (f := (·.erase v.slot)) fun _ ht => .withLive_erase ht v.slot

/-! ### Writing without callbacks -/

theorem putIn (h : Bond Q R T) (hij : T i j) (hv : Q v) (value : Value) (fate : Fate) :
    Coupled R Eq (v.putIn i value fate) (v.putIn j value fate) := by
  unfold Variable.putIn
  refine .bind (h.store_value hij v.slot value) fun stored _ hs => ?_
  subst hs
  refine .bind (h.partFrom hij v.slot stored.previous fate) fun _ _ _ => ?_
  split
  · exact .bind (h.track hij hv) fun _ _ _ => .pure rfl
  · exact .pure rfl

theorem setIn (h : Bond Q R T) (hij : T i j) (hv : Q v) (value : Value) :
    Coupled R (fun _ _ => True) (v.setIn i value) (v.setIn j value) :=
  .bind (h.putIn hij hv value .overwritten) fun _ _ _ => .pure trivial

theorem replaceIn (h : Bond Q R T) (hij : T i j) (hv : Q v) (value : Value) :
    Coupled R Eq (v.replaceIn i value) (v.replaceIn j value) :=
  .bind (h.putIn hij hv value .returned) fun _ _ hp => .pure (by rw [hp])

theorem takeIn (h : Bond Q R T) (hij : T i j) (v : Variable) :
    Coupled R Eq (v.takeIn i) (v.takeIn j) := by
  refine .bind (h.untrack hij v) fun _ _ _ => .bind (h.unset hij v.slot) fun removed _ hr => ?_
  subst hr
  exact .bind (h.partFrom hij v.slot removed .returned) fun _ _ _ => .pure rfl

theorem isSetIn (h : Bond Q R T) (hij : T i j) (v : Variable) :
    Coupled R Eq (v.isSetIn i) (v.isSetIn j) :=
  .bind (h.read_table hij) fun _ _ ht => .pure (by rw [ht.1])

/-! ### Callbacks -/

section Callbacks

variable (henter : ∀ s, s.Only P → Coupled R Eq (enter s) (enter s))
  (hQ : ∀ v, Q v → v.Only P)

include henter hQ

theorem runHook (hv : Q v) (cell : Option Cell) :
    Coupled R (fun _ _ => True) (v.runHook enter cell) (v.runHook enter cell) := by
  unfold Variable.runHook
  split
  · next hook value hhook hvalue =>
    unfold Hook.run
    cases hnested : hook.nested
    case' some => refine .bind (henter _ ((hQ v hv).hook hhook hnested value)) fun _ _ _ => ?_
    all_goals
      cases hook.panics value with
      | none => exact .pure trivial
      | some message => exact .throw _
  · exact .pure trivial

theorem callHook (h : Bond Q R T) (hij : T i j) (hv : Q v) (cell : Option Cell) :
    Coupled R (fun _ _ => True) (v.callHook enter i cell) (v.callHook enter j cell) := by
  intro sc sc' hr
  rw [runOn_callHook, runOn_callHook]
  refine runHook henter hQ hv cell _ _ ?_
  unfold Scene.handedOver
  split
  · exact h.part (h.emit hr _) hij _ _ _
  · exact h.parted hij hr _ _ _

theorem clear (h : Bond Q R T) (hij : T i j) (hv : Q v) :
    Coupled R (fun _ _ => True) (v.clear enter i) (v.clear enter j) := by
  refine .bind (h.unset hij v.slot) fun removed _ hr => ?_
  subst hr
  exact callHook henter hQ h hij hv removed

theorem clearEach (h : Bond Q R T) (hij : T i j) (vs : List Variable) (hvs : ∀ v ∈ vs, Q v) :
    Coupled R (fun _ _ => True) (clearEach enter i vs) (clearEach enter j vs) := by
  induction vs with
  | nil => exact .pure trivial
  | cons v vs ih =>
    obtain ⟨hv, hvs⟩ := List.forall_mem_cons.1 hvs
    exact .bind (clear henter hQ h hij hv) fun _ _ _ => ih hvs

theorem removeIn (h : Bond Q R T) (hij : T i j) (hv : Q v) :
    Coupled R (fun _ _ => True) (v.removeIn enter i) (v.removeIn enter j) :=
  .bind (h.untrack hij v) fun _ _ _ => clear henter hQ h hij hv

theorem storeIn (h : Bond Q R T) (hij : T i j) (hv : Q v) (entry : Option Value) :
    Coupled R (fun _ _ => True) (v.storeIn enter i entry) (v.storeIn enter j entry) := by
  have htail : ∀ stored : Table.Outcome Cell, Coupled R (fun _ _ => True)
      (if stored.newlySet then v.track i
        else do
          if !(← v.isSetIn i) then
            v.untrack i
            v.callHook enter i stored.previous)
      (if stored.newlySet then v.track j
        else do
          if !(← v.isSetIn j) then
            v.untrack j
            v.callHook enter j stored.previous) := by
    intro stored
    refine .ite (h.track hij hv) (.bind (h.isSetIn hij v) fun isSet _ hs => ?_)
    subst hs
    refine .ite (.bind (h.untrack hij v) fun _ _ _ => ?_) (.pure trivial)
    exact callHook henter hQ h hij hv stored.previous
  unfold Variable.storeIn
  refine .bind (h.storeEntry hij v.slot entry) fun stored _ hs => ?_
  subst hs
  cases entry with
  | none => exact htail stored
  | some value =>
    exact .bind (h.partFrom hij v.slot stored.previous .overwritten) fun _ _ _ => htail stored

theorem makeInitial (h : Bond Q R T) (hv : Q v) :
    Coupled R Eq (v.makeInitial enter) (v.makeInitial enter) := by
  have hnested : Coupled R Eq (v.initial.runNested enter) (v.initial.runNested enter) := by
    unfold Initializer.runNested
    split
    · next s hs => exact henter s ((hQ v hv).initializer hs)
    · exact .pure rfl
  unfold Variable.makeInitial
  refine .bind hnested fun result _ hresult => .bind (h.draw hv) fun n m hnm => ?_
  rw [hnm, hresult]
  split
  · exact .ite (.bind (h.emit_event _) fun _ _ _ => .pure rfl) (.pure rfl)
  · exact .ite (.bind (h.emit_event _) fun _ _ _ => .throw _) (.throw _)

theorem getIn (h : Bond Q R T) (hij : T i j) (hv : Q v) :
    Coupled R Eq (v.getIn enter i) (v.getIn enter j) := by
  have hmake : Coupled R Eq (v.makeIn enter i) (v.makeIn enter j) := by
    refine .bind (h.count_event (by decide)) fun _ _ _ =>
      .bind (makeInitial henter hQ h hv) fun value _ hvalue => ?_
    subst hvalue
    exact .bind (h.putIn hij hv value .overwritten) fun _ _ _ => .pure rfl
  unfold Variable.getIn
  refine .bind (h.read_table hij) fun t _ ht => ?_
  rw [ht.1]
  split
  · exact .pure rfl
  · exact hmake

theorem withIn (h : Bond Q R T) (hij : T i j) (hv : Q v) {body : Option (Value → Script)}
    (hbody : ∀ nested, body = some nested → ∀ value, (nested value).Only P) :
    Coupled R Eq (v.withIn enter i body) (v.withIn enter j body) := by
  refine .bind (getIn henter hQ h hij hv) fun value _ hvalue => ?_
  subst hvalue
  cases body with
  | none => exact .pure rfl
  | some nested => exact .bind (henter _ (hbody _ rfl value)) fun _ _ _ => .pure rfl

/-- Every operation on a variable, at a place whose table is found on both sides. -/
theorem access (h : Bond Q R T) (hv : Q v) {place : Place}
    (hplace : Coupled R (Option.Rel T) place.resolve place.resolve)
    (hplace? : Coupled R (Option.Rel T) place.resolve? place.resolve?) {op : Access}
    (hbody : ∀ nested, op = .withValue (some nested) → ∀ value, (nested value).Only P) :
    Coupled R Eq (op.run enter v place) (op.run enter v place) := by
  cases op with
  | get =>
    exact .bind_some hplace rfl fun i j hij =>
      .bind (getIn henter hQ h hij hv) fun _ _ hr => .pure (by rw [hr])
  | withValue body =>
    refine .bind_some hplace rfl fun i j hij =>
      .bind (withIn henter hQ h hij hv ?_) fun _ _ hr => .pure (by rw [hr])
    intro nested hnested
    exact hbody nested (by rw [hnested])
  | set value =>
    exact .bind_some hplace rfl fun i j hij => .bind (h.setIn hij hv _) fun _ _ _ => .pure rfl
  | replace value =>
    exact .bind_some hplace rfl fun i j hij =>
      .bind (h.replaceIn hij hv _) fun _ _ hr => .pure (by rw [hr])
  | store entry =>
    exact .bind_some hplace rfl fun i j hij =>
      .bind (storeIn henter hQ h hij hv _) fun _ _ _ => .pure rfl
  | take =>
    exact .bind_some hplace? rfl fun i j hij =>
      .bind (h.takeIn hij v) fun _ _ hr => .pure (by rw [hr])
  | remove =>
    exact .bind_some hplace? rfl fun i j hij =>
      .bind (removeIn henter hQ h hij hv) fun _ _ _ => .pure rfl
  | isSet =>
    exact .bind_some hplace? rfl fun i j hij =>
      .bind (h.isSetIn hij v) fun _ _ hr => .pure (by rw [hr])

theorem accessHandle (h : Bond Q R T) (handle : Nat) {place : Place}
    (hplace : Coupled R (Option.Rel T) place.resolve place.resolve)
    (hplace? : Coupled R (Option.Rel T) place.resolve? place.resolve?) {op : Access}
    (hbody : ∀ nested, op = .withValue (some nested) → ∀ value, (nested value).Only P) :
    Coupled R Eq (accessHandle enter handle place op) (accessHandle enter handle place op) := by
  refine .bind (h.lookup handle) fun v _ hv => ?_
  rw [hv.1]
  cases v with
  | none => exact .pure rfl
  | some v => exact access henter hQ h (hv.2 v rfl) hplace hplace? hbody

end Callbacks

theorem resolve_ambient (h : Bond Q R T) :
    Coupled R (Option.Rel T) Place.ambient.resolve Place.ambient.resolve :=
  .map h.current fun _ _ hij => .some hij

theorem liveCount (h : Bond Q R T) : Coupled R Eq ThreadSlots.liveCount ThreadSlots.liveCount := by
  have hread : ∀ {i j}, T i j → Coupled R Eq (liveSet? i) (liveSet? j) := by
    intro i j hij
    refine .read (runOn_liveSet? · i) (runOn_liveSet? · j) fun sc sc' hr => ?_
    rw [(h.table hr hij).1]
  refine .bind h.current? fun a b hab => ?_
  cases hab with
  | none => exact .pure rfl
  | some hij => exact .bind (hread hij) fun _ _ hr => .pure (by rw [hr])

end Bond

/-! ## Making variables -/

section Declarations

variable {R : Scene → Scene → Prop} {V : Unit → Unit → Prop} {kind : Kind}
  {initial initial' : Initializer} {hook hook' : Option Hook}

/-- Variables that are enrolled alike are made alike, whatever code each of them calls back. -/
theorem coupled_declare (htake : Coupled R Eq takeHandle takeHandle)
    (henroll : ∀ handle, Coupled R (fun v w => w.slot = v.slot)
      (enroll fun slot => { slot, handle, kind, initial, onRemoval := hook })
      (enroll fun slot => { slot, handle, kind, initial := initial', onRemoval := hook' }))
    (hbind : ∀ handle slot, Coupled R V (bindHandle handle slot) (bindHandle handle slot)) :
    Coupled R Eq (declare kind initial hook) (declare kind initial' hook') := by
  refine .bind htake fun handle _ hh => ?_
  subst hh
  refine .bind (henroll handle) fun v w hvw => ?_
  rw [hvw]
  exact .bind (hbind handle v.slot) fun _ _ _ => .pure rfl

theorem coupled_declareRow
    (h : Coupled R Eq (declare kind initial hook) (declare kind initial' hook')) (n : Nat) :
    Coupled R Eq (declareRow kind initial hook n) (declareRow kind initial' hook' n) := by
  induction n with
  | zero => exact .bind h fun _ _ hm => .pure (by rw [hm])
  | succ n ih =>
    refine .bind ih fun made _ hm => ?_
    subst hm
    exact .bind h fun _ _ hm => .pure (by rw [hm])

end Declarations

/-! ## Commands and scripts -/

section Scripts

variable {R : Scene → Scene → Prop} {P : Command → Prop} {enter : Enter}

theorem coupled_perform {c : Command} (h : Coupled R Eq (c.run enter) (c.run enter)) :
    Coupled R Eq (perform enter c) (perform enter c) := by
  refine .tryCatch h fun stop => ?_
  cases stop with
  | refused e => exact .pure rfl
  | panicked message => exact .throw _

theorem coupled_caught {α : Type} {x y : Storage α} (h : Coupled R Eq x y) :
    Coupled R Eq (caught x) (caught y) := by
  refine .tryCatch (.map h fun _ _ hab => congrArg Except.ok hab) fun stop => ?_
  cases stop with
  | refused e => exact .throw _
  | panicked message => exact .pure rfl

theorem coupled_reportStep (hemit : ∀ e, Coupled R (fun _ _ => True) (emit e) (emit e))
    (name : String) (answer : Except String Reply) :
    Coupled R (fun _ _ => True) (reportStep name answer) (reportStep name answer) := by
  cases answer with
  | ok reply => exact hemit _
  | error message => exact .pure trivial

theorem coupled_script
    (hemit : ∀ e, Coupled R (fun _ _ => True) (emit e) (emit e))
    (hperform : ∀ c, Command.Only P c → Coupled R Eq (perform enter c) (perform enter c)) :
    ∀ s : Script, s.Only P → Coupled R Eq (s.run enter) (s.run enter)
  | .done _, _ => .pure rfl
  | .panic _, _ => .throw _
  | .step name c next, hs => by
    cases hs with
    | step _ hc hnext =>
      refine .bind (coupled_caught (hperform c hc)) fun answer _ hanswer => ?_
      subst hanswer
      exact .bind (coupled_reportStep hemit name answer) fun _ _ _ =>
        coupled_script hemit hperform (next answer) (hnext answer)

/-- Nested code is coupled to itself if each of its commands is, given that of the code that the
command runs. -/
theorem coupled_enter
    (hemit : ∀ e, Coupled R (fun _ _ => True) (emit e) (emit e))
    (hcommand : ∀ enter : Enter,
      (∀ s, s.Only P → Coupled R Eq (enter s) (enter s)) →
      ∀ c, Command.Only P c → Coupled R Eq (c.run enter) (c.run enter))
    (depth : Nat) {s : Script} (hs : s.Only P) :
    Coupled R Eq (ThreadSlots.enter depth s) (ThreadSlots.enter depth s) := by
  induction depth generalizing s with
  | zero => exact .bind (hemit _) fun _ _ _ => .pure rfl
  | succ depth ih =>
    exact coupled_script hemit (fun c hc => coupled_perform (hcommand _ (fun _ => ih) c hc)) s hs

end Scripts

end ThreadSlots
