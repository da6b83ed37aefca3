import ThreadSlots.Proofs.Coupling
import ThreadSlots.Proofs.Walk

/-!
# Nested code that leaves a variable alone

Nested code that stays within handles that do not lead to a variable, directly or through what other
variables call back, and that neither clears the thread nor takes its table away, leaves the variable
as it is in every table: set or not, listed or not, and its initializer is not called
(`Avoids.enter`). The table may grow meanwhile, receive its live set, or be carried from now on; it
stays the thread's own table unless a thread-local that could hold it was destroyed.
-/

namespace ThreadSlots

open Std (ExtTreeMap)
open Storage

/-! ## Staying away from a variable -/

/-- The command stays within the variables of the given handles, and leaves the thread its values and
its table. -/
def Command.Within (K : Nat → Prop) : Command → Prop
  | .access handle _ _ | .duplicate handle => K handle
  | .setRow first last _ | .getRow first last => ∀ handle, first ≤ handle → handle < last → K handle
  | .onThread .clear | .onThread .destroy | .onThread .discard | .onThread (.release _) => False
  | _ => True

/-- The other variable has a slot of its own, and calls back only what stays within the handles. -/
structure Variable.Apart (K : Nat → Prop) (v u : Variable) : Prop where
  slot : u.slot ≠ v.slot
  unreserved : u.slot ≠ reservedSlot
  callbacks : u.Only (Command.Within K)

/-- No variable of the given handles is the given one or leads to it. -/
def Process.Apart (K : Nat → Prop) (v : Variable) (p : Process) : Prop :=
  ∀ handle slot : Nat, K handle → p.byHandle[handle]? = some slot →
    slot ≠ v.slot ∧ ∀ u, p.bySlot[slot]? = some u → u.Only (Command.Within K)

/-- The slot holds the same in both tables, and the same variable is listed there. -/
structure Table.SameAt (slot : Nat) (t u : SlotTable) : Prop where
  cell : u.get? slot = t.get? slot
  live : u.live[slot]? = t.live[slot]?

/-- Since the first scene the variable was left alone in the table, its initializer made no value, and
the table is the thread's own one if it was, as long as the thread-locals are all there. -/
structure Scene.Untouched (K : Nat → Prop) (v : Variable) (id : TableId) (sc₀ sc : Scene) : Prop where
  sound : sc.process.Sound
  knows : sc.process.Knows v
  apart : sc.process.Apart K v
  draws : sc.process.draws[v.slot]? = sc₀.process.draws[v.slot]?
  made : id < sc.thread.nextTable
  same : (sc₀.thread.table id).SameAt v.slot (sc.thread.table id)
  intact : sc₀.thread.locals.Intact → sc.thread.locals.Intact
  own : sc₀.thread.locals.Intact → sc₀.own? = some id → sc.own? = some id

namespace Table.SameAt

variable {slot : Nat} {t u w : SlotTable} {v : Variable}

theorem refl (slot : Nat) (t : SlotTable) : t.SameAt slot t := ⟨rfl, rfl⟩

theorem trans (h : t.SameAt slot u) (h' : u.SameAt slot w) : t.SameAt slot w :=
  ⟨h'.cell.trans h.cell, h'.live.trans h.live⟩

theorem track (hs : slot ≠ reservedSlot) (hv : v.slot ≠ reservedSlot) (hne : v.slot ≠ slot) {c : Cell}
    {stored : Table.Stored Cell} (h : t.insert v.slot c = .ok stored) :
    t.SameAt slot (stored.track v) := by
  refine ⟨?_, ?_⟩
  · rw [Table.get?_track h hs, if_neg (Ne.symm hne)]
  · rw [Table.live_track h hv]
    split
    · rfl
    · rw [ExtTreeMap.getElem?_insert, if_neg (by simpa using hne)]

theorem without (hs : slot ≠ reservedSlot) (hv : v.slot ≠ reservedSlot) (hne : v.slot ≠ slot) :
    t.SameAt slot (t.without v) := by
  refine ⟨?_, ?_⟩
  · rw [Table.get?_without t v hs, if_neg (Ne.symm hne)]
  · rw [Table.live_without t hv, ExtTreeMap.getElem?_erase, if_neg (by simpa using hne)]

end Table.SameAt

/-! ## Steps -/

namespace Scene.Untouched

variable {K : Nat → Prop} {v : Variable} {id : TableId} {sc₀ sc sc' : Scene}

theorem refl (hs : sc.process.Sound) (hv : sc.process.Knows v) (ha : sc.process.Apart K v)
    (hid : id < sc.thread.nextTable) : sc.Untouched K v id sc :=
  ⟨hs, hv, ha, rfl, hid, .refl _ _, fun h => h, fun _ h => h⟩

/-- Nothing happened that concerns the variables or their values. -/
theorem of_eq (h : sc₀.Untouched K v id sc) (hprocess : sc'.process.lasting = sc.process.lasting)
    (hthread : sc'.thread.lasting = sc.thread.lasting) : sc₀.Untouched K v id sc' := by
  simp only [Process.lasting, Thread.lasting, Prod.mk.injEq] at hprocess hthread
  obtain ⟨hregister, hdraws, hepoch⟩ := hprocess
  obtain ⟨htables, hnext, hlocals, -⟩ := hthread
  obtain ⟨hsound, hlater⟩ := Process.Grows.of_eq hregister h.sound
  simp only [Process.register, Prod.mk.injEq] at hregister
  obtain ⟨hslots, -, -, -, hhandles, -⟩ := hregister
  refine ⟨hsound, hlater.knows v h.knows, ?_, hdraws ▸ h.draws, hnext ▸ h.made, ?_,
    fun hi => (h.intact hi).of_seen hlocals, fun hi hown => ?_⟩
  · unfold Process.Apart
    rw [hslots, hhandles]
    exact h.apart
  · unfold Thread.table at *
    rw [htables]
    exact h.same
  · rw [← h.own hi hown]
    unfold Scene.own?
    rw [hepoch, Thread.own?_of_seen hlocals]

theorem like (h : sc₀.Untouched K v id sc) (hlike : sc.Like sc') : sc₀.Untouched K v id sc' :=
  h.of_eq (congrArg (·.process.lasting) hlike).symm (congrArg (·.thread.lasting) hlike).symm

/-- Only process and thread matter. -/
theorem noted (h : sc₀.Untouched K v id sc) (hprocess : sc'.process = sc.process)
    (hthread : sc'.thread = sc.thread) : sc₀.Untouched K v id sc' :=
  h.of_eq (congrArg _ hprocess) (congrArg _ hthread)

/-- Variables were made, handles bound or given up, or initial values of other variables made. -/
theorem withProcess (h : sc₀.Untouched K v id sc) {p : Process} (hgrows : sc.process.Grows p)
    (hapart : p.Apart K v) (hdraws : p.draws[v.slot]? = sc.process.draws[v.slot]?)
    (hepoch : p.epoch = sc.process.epoch) : sc₀.Untouched K v id { sc with process := p } := by
  obtain ⟨hsound, hlater⟩ := hgrows h.sound
  refine ⟨hsound, hlater.knows v h.knows, hapart, hdraws.trans h.draws, h.made, h.same, h.intact,
    fun hi hown => ?_⟩
  have hown' := h.own hi hown
  unfold Scene.own? at *
  exact hepoch ▸ hown'

theorem setTable (h : sc₀.Untouched K v id sc) (i : TableId) {t : SlotTable}
    (ht : (sc.thread.table i).SameAt v.slot t) : sc₀.Untouched K v id (sc.setTable i t) := by
  refine ⟨h.sound, h.knows, h.apart, h.draws, h.made, ?_, h.intact, h.own⟩
  rw [table_setTable]
  split
  · next he =>
    subst he
    exact h.same.trans ht
  · exact h.same

/-- A table that is made is another one. -/
theorem makeTable (h : sc₀.Untouched K v id sc) (t : SlotTable) :
    sc₀.Untouched K v id (sc.makeTable t) := by
  refine ⟨h.sound, h.knows, h.apart, h.draws, Nat.lt_succ_of_lt h.made, ?_, h.intact, h.own⟩
  rw [table_makeTable, if_neg (Nat.ne_of_lt h.made)]
  exact h.same

theorem makeBlank (h : sc₀.Untouched K v id sc) : sc₀.Untouched K v id sc.makeBlank :=
  (h.makeTable _).like sc.like_makeBlank.symm

theorem setLocals (h : sc₀.Untouched K v id sc) {l : Locals}
    (hintact : sc.thread.locals.Intact → l.Intact)
    (hown : sc.thread.locals.Intact → sc.own? = some id → (sc.setLocals l).own? = some id) :
    sc₀.Untouched K v id (sc.setLocals l) :=
  ⟨h.sound, h.knows, h.apart, h.draws, h.made, h.same, fun hi => hintact (h.intact hi),
    fun hi h' => hown (h.intact hi) (h.own hi h')⟩

theorem reached (h : sc₀.Untouched K v id sc) : sc₀.Untouched K v id sc.reached :=
  h.setLocals (fun hi => hi.of_seen sc.thread.locals.seen_reached) fun _ hown => by
    rwa [← own?_reached sc] at hown

theorem slot_ne (h : sc₀.Untouched K v id sc) : v.slot ≠ reservedSlot := h.sound.slot_ne h.knows

/-- Another variable is set. -/
theorem stored (h : sc₀.Untouched K v id sc) {u : Variable} (hu : v.Apart K u) {i : TableId}
    {value : Value} {fate : Fate} {cell : Option Cell} {stored : Table.Stored Cell}
    (hi : (sc.thread.table i).insert u.slot (.value value) = .ok stored)
    (hlike : (((sc.setTable i (stored.track u)).arrived i u.slot (.value value)).parted i u.slot fate
      cell).Like sc') : sc₀.Untouched K v id sc' := by
  have hset := h.setTable i (.track h.slot_ne hu.unreserved hu.slot hi)
  have hnoted : sc₀.Untouched K v id (((sc.setTable i (stored.track u)).arrived i u.slot
      (.value value)).parted i u.slot fate cell) := hset.noted rfl rfl
  exact hnoted.like hlike

/-- Another variable is unset. -/
theorem unset (h : sc₀.Untouched K v id sc) {u : Variable} (hu : v.Apart K u) (i : TableId) :
    sc₀.Untouched K v id (sc.setTable i ((sc.thread.table i).without u)) :=
  h.setTable i (.without h.slot_ne hu.unreserved hu.slot)

end Scene.Untouched

/-- From every scene in which the variable was left alone so far the action leaves it alone. -/
def Avoids (K : Nat → Prop) (v : Variable) (id : TableId) (sc₀ : Scene) {α : Type} (x : Storage α) :
    Prop :=
  ∀ sc, sc₀.Untouched K v id sc → sc₀.Untouched K v id (runOn x sc).2

namespace Avoids

variable {K : Nat → Prop} {v : Variable} {id : TableId} {sc₀ : Scene} {α β : Type}

theorem modular : Modular (Avoids K v id sc₀) where
  bind_of {_ _ Q x f} hx hQ hf := by
    intro sc hsc
    rw [runOn_bind]
    have h := hx sc hsc
    rcases hr : runOn x sc with ⟨stop | a, sc'⟩
    · rw [hr] at h
      exact h
    · rw [hr] at h
      exact hf a (hQ _ _ _ hr) sc' h
  like h sc hsc := hsc.like (h sc)
  initialized _ hsc := hsc.noted rfl rfl
  initializerPanicked _ hsc := hsc.noted rfl rfl
  modifyProcess h sc hsc := hsc.of_eq (h sc.process) rfl
  modifyThread h sc hsc := hsc.of_eq rfl (h sc.thread)

theorem pure (a : α) : Avoids K v id sc₀ (Pure.pure a : Storage α) := modular.pure a

theorem bind {x : Storage α} {f : α → Storage β} (hx : Avoids K v id sc₀ x)
    (hf : ∀ a, Avoids K v id sc₀ (f a)) : Avoids K v id sc₀ (x >>= f) :=
  modular.bind hx hf

/-- A handle that does not lead to the variable leads to another one, or to none. -/
theorem lookup_bind {handle : Nat} (hK : K handle) {f : Option Variable → Storage β}
    (hnone : Avoids K v id sc₀ (f none)) (hsome : ∀ u, v.Apart K u → Avoids K v id sc₀ (f (some u))) :
    Avoids K v id sc₀ (lookup handle >>= f) := by
  intro sc hsc
  have hr : runOn (lookup handle) sc =
      (.ok (sc.process.byHandle[handle]?.bind (sc.process.bySlot[·]?)), sc) := rfl
  rw [runOn_bind, hr]
  rcases hu : sc.process.byHandle[handle]?.bind (sc.process.bySlot[·]?) with _ | u
  · exact hnone sc hsc
  · obtain ⟨slot, hslot, hu⟩ := Option.bind_eq_some_iff.1 hu
    obtain ⟨he, hne, -, -⟩ := hsc.sound.bySlot slot u hu
    obtain ⟨hv, hcallbacks⟩ := hsc.apart handle slot hK hslot
    exact hsome u ⟨he ▸ hv, he ▸ hne, hcallbacks u hu⟩ sc hsc

/-! ## The thread's own table -/

theorem current? : Avoids K v id sc₀ Storage.current? := by
  intro sc hsc
  rw [runOn_current?]
  dsimp only
  split
  · exact hsc.reached
  · next ho =>
    exact hsc.setLocals (fun hi => hi.emptied) fun _ hown => absurd (by rw [hown]; rfl) ho

theorem current : Avoids K v id sc₀ Storage.current := by
  intro sc hsc
  rw [runOn_current]
  rcases ho : sc.own? with _ | i
  · exact hsc.makeBlank.setLocals (fun hi => hi.emptied.setFallback _) fun _ hown =>
      absurd (ho.symm.trans hown) (by simp)
  · exact hsc.reached

/-- The thread's fallback table is carried from now on. -/
theorem adopt : Avoids K v id sc₀ Storage.adopt := by
  intro sc hsc
  rw [runOn_adopt]
  rcases hc : sc.thread.carried? with _ | i
  · rcases ho : sc.own? with _ | i
    · exact hsc.makeBlank.setLocals (fun hi => hi.emptied.setCarried _) fun _ hown =>
        absurd (ho.symm.trans hown) (by simp)
    · refine hsc.setLocals (fun hi => hi.emptied.setCarried _) fun hi hown => ?_
      obtain rfl := Option.some.inj (ho.symm.trans hown)
      exact Scene.own?_of_carried (Scene.carried?_carry_of_intact hi _)
  · exact hsc

/-! ## Another variable -/

section

variable {u : Variable} (hu : v.Apart K u)

include hu

theorem putIn (i : TableId) (value : Value) (fate : Fate) :
    Avoids K v id sc₀ (u.putIn i value fate) := by
  intro sc hsc
  rcases hi : (sc.thread.table i).insert u.slot (.value value) with e | stored
  · rw [runOn_putIn_error sc hi]
    exact hsc
  · obtain ⟨sc', hrun, hlike⟩ := ends_putIn sc fate hi
    rw [hrun]
    exact hsc.stored hu hi hlike

theorem takeIn (i : TableId) : Avoids K v id sc₀ (u.takeIn i) := by
  intro sc hsc
  rw [runOn_takeIn sc hu.unreserved i]
  exact (hsc.unset hu i).noted rfl rfl

theorem draw : Avoids K v id sc₀ u.draw := by
  intro sc hsc
  have hr : runOn u.draw sc = (.ok (sc.process.draws.getD u.slot 0),
      { sc with process := { sc.process with
          draws := sc.process.draws.insert u.slot (sc.process.draws.getD u.slot 0 + 1) } }) := rfl
  rw [hr]
  refine hsc.withProcess (.of_eq rfl) hsc.apart ?_ rfl
  rw [ExtTreeMap.getElem?_insert, if_neg (by simpa using hu.slot)]

variable {enter : Enter} (henter : ∀ s : Script, s.Only (Command.Within K) →
  Avoids K v id sc₀ (enter s))

include henter

theorem runHook (cell : Option Cell) : Avoids K v id sc₀ (u.runHook enter cell) :=
  modular.runHook (fun _ _ hhook hn value => henter _ (hu.callbacks.hook hhook hn value)) cell

theorem removeIn (i : TableId) : Avoids K v id sc₀ (u.removeIn enter i) := by
  intro sc hsc
  rw [runOn_removeIn sc enter u i]
  refine runHook hu henter _ _ ?_
  exact (hsc.unset hu i).noted (Scene.process_handedOver ..) (Scene.thread_handedOver ..)

theorem storeIn (i : TableId) (entry : Option Value) :
    Avoids K v id sc₀ (u.storeIn enter i entry) := by
  intro sc hsc
  rcases entry with _ | value
  · rw [runOn_storeIn_none sc enter u i]
    split
    · exact hsc
    · refine runHook hu henter _ _ ?_
      exact (hsc.unset hu i).noted
        (Scene.process_handedOver ..) (Scene.thread_handedOver ..)
  · rcases hi : (sc.thread.table i).insert u.slot (.value value) with e | stored
    · rw [runOn_storeIn_error sc enter hi]
      exact hsc
    · obtain ⟨sc', hrun, hlike⟩ := ends_storeIn_some sc enter hi
      rw [hrun]
      exact hsc.stored hu hi hlike

theorem operates : Operates (Avoids K v id sc₀) enter u where
  putIn i value _ fate _ := putIn hu i value fate
  takeIn := takeIn hu
  removeIn := removeIn hu henter
  storeIn i entry _ := storeIn hu henter i entry
  makeInitial :=
    modular.makeInitial (fun _ hn => henter _ (hu.callbacks.initializer hn)) (draw hu)

end

theorem accessHandle {enter : Enter}
    (henter : ∀ s : Script, s.Only (Command.Within K) → Avoids K v id sc₀ (enter s)) {handle : Nat}
    (hK : K handle) (place : Place) {op : Access}
    (hbody : ∀ nested, op = .withValue (some nested) → ∀ value,
      (nested value).Only (Command.Within K)) :
    Avoids K v id sc₀ (accessHandle enter handle place op) :=
  lookup_bind hK (pure _) fun _ hu =>
    modular.access (operates hu henter) current current? place fun nested hop value =>
      henter _ (hbody nested hop value)

/-! ## Variables and tables that are made -/

end Avoids

/-- A variable that is made has a slot and a handle that nothing had before. -/
theorem Process.Apart.enrolled {K : Nat → Prop} {v u : Variable} {p : Process} (h : p.Apart K v)
    (hv : v.slot < p.supply.next) (hu : u.Only (Command.Within K)) : (p.enrolled u).Apart K v := by
  have hmade : ∀ (slot : Nat) w, (p.enrolled u).bySlot[slot]? = some w → w = u ∨
      slot ≠ p.supply.next ∧ p.bySlot[slot]? = some w := by
    intro slot w hw
    replace hw : (p.bySlot.insert p.supply.next u)[slot]? = some w := hw
    rw [ExtTreeMap.getElem?_insert] at hw
    split at hw
    · exact .inl (Option.some.inj hw).symm
    · next hne => exact .inr ⟨fun he => hne (by simp [he]), hw⟩
  intro handle slot hK hbound
  replace hbound : (p.byHandle.insert p.nextHandle p.supply.next)[handle]? = some slot := hbound
  rw [ExtTreeMap.getElem?_insert] at hbound
  split at hbound
  · cases hbound
    refine ⟨Nat.ne_of_gt hv, fun w hw => ?_⟩
    rcases hmade _ w hw with rfl | ⟨hne, -⟩
    · exact hu
    · exact absurd rfl hne
  · obtain ⟨hne, hcallbacks⟩ := h handle slot hK hbound
    refine ⟨hne, fun w hw => ?_⟩
    rcases hmade slot w hw with rfl | ⟨-, hw⟩
    · exact hu
    · exact hcallbacks w hw

namespace Avoids

variable {K : Nat → Prop} {v : Variable} {id : TableId} {sc₀ : Scene}

theorem declare (kind : Kind) {initial : Initializer} {hook : Option Hook}
    (hcalled : ∀ s, CalledBack initial hook s → s.Only (Command.Within K)) :
    Avoids K v id sc₀ (declare kind initial hook) := by
  intro sc hsc
  rw [runOn_declare]
  split
  · next hslot =>
    obtain ⟨-, -, -, hlt⟩ := hsc.sound.bySlot _ _ hsc.knows
    exact hsc.withProcess (.enrolled rfl rfl hslot) (hsc.apart.enrolled hlt hcalled) rfl rfl
  · exact hsc.withProcess (.handle fun _ _ _ => .inl) hsc.apart rfl rfl

theorem duplicate (enter : Enter) {handle : Nat} (hK : K handle) :
    Avoids K v id sc₀ (Command.run enter (.duplicate handle)) := by
  intro sc hsc
  rw [runOn_duplicate]
  split
  · exact hsc
  · next u hu =>
    refine hsc.withProcess (.copied hu) (fun h slot hh hbound => ?_) rfl rfl
    replace hbound : (sc.process.byHandle.insert sc.process.nextHandle u.slot)[h]? = some slot := hbound
    rw [ExtTreeMap.getElem?_insert] at hbound
    split at hbound
    · cases hbound
      obtain ⟨slot, hslot, hu⟩ := Option.bind_eq_some_iff.1 hu
      obtain ⟨he, -⟩ := hsc.sound.bySlot slot u hu
      rw [he]
      exact hsc.apart handle slot hK hslot
    · exact hsc.apart h slot hh hbound

theorem drop (enter : Enter) (handle : Nat) :
    Avoids K v id sc₀ (Command.run enter (.drop handle)) := by
  refine modular.drop enter fun sc hsc => ?_
  refine hsc.withProcess (.unbind sc.process handle) (fun h slot hh hbound => ?_) rfl rfl
  replace hbound : (sc.process.byHandle.erase handle)[h]? = some slot := hbound
  rw [ExtTreeMap.getElem?_erase] at hbound
  split at hbound
  · cases hbound
  · exact hsc.apart h slot hh hbound

/-- A table that is made and filled is another one. -/
theorem newTable (name : String) (policy : Option SentinelPolicy) (raw : List (Nat × Value)) :
    Avoids K v id sc₀ (TableCommand.run (.new name policy raw)) := by
  intro sc hsc
  obtain ⟨t, marks, news, names, -, hlike⟩ := exists_new sc name policy raw
  have hmade := hsc.makeTable t
  have hfilled : sc₀.Untouched K v id ((sc.makeFilled t marks news).renamed names) :=
    ⟨hmade.sound, hmade.knows, hmade.apart, hmade.draws, hmade.made, hmade.same, hmade.intact,
      hmade.own⟩
  exact hfilled.like hlike

theorem burn (n : Nat) : Avoids K v id sc₀ (ProcessCommand.run (.burn n)) := by
  intro sc hsc
  have hburned := hsc.withProcess (.burn sc.process n) hsc.apart rfl rfl
  simp only [ProcessCommand.run, runOn_bind, runOn_process, runOn_modifyProcess]
  cases (sc.process.supply.takeLast n).1 with
  | none => exact hburned
  | some answer => exact modular.map (modular.ofExcept answer) _ hburned

/-! ## Commands and scripts -/

theorem upkeep {enter : Enter} {op : Upkeep} (hop : Command.Within K (.onThread op)) :
    Avoids K v id sc₀ (op.run enter) := by
  cases op with
  | clear | destroy | discard | release => exact False.elim hop
  | isCarrying => exact bind modular.isCarrying fun _ => pure _
  | liveCount => exact bind (modular.liveCount current?) fun _ => pure _
  | hasTable => exact bind current? fun _ => pure _
  | threadName => exact bind modular.thread fun _ => pure _
  | adopt name =>
    exact bind adopt fun i => bind (modular.bindTable name i) fun _ =>
      bind modular.isCarrying fun _ => bind (modular.table i) fun _ => pure _
  | adoptSize =>
    exact bind adopt fun i => bind modular.isCarrying fun _ => bind (modular.table i) fun _ => pure _

theorem command {enter : Enter}
    (henter : ∀ s : Script, s.Only (Command.Within K) → Avoids K v id sc₀ (enter s)) {c : Command}
    (hc : Command.Only (Command.Within K) c) : Avoids K v id sc₀ (c.run enter) := by
  have hwithin : Command.Within K c := hc.holds
  cases c with
  | declare kind initial hook =>
    exact bind (declare kind fun s hs => hc.nested (.declare kind hs)) fun _ => pure _
  | declareRow n kind initial hook =>
    cases n with
    | zero => exact pure _
    | succ n =>
      refine bind (modular.declareRow ?_ n) fun _ => pure _
      exact declare kind fun s hs => hc.nested (.declareRow (n + 1) kind hs)
  | access handle place op =>
    refine accessHandle henter hwithin place fun nested hop value => ?_
    subst hop
    exact hc.nested (.body handle place nested value)
  | setRow first last factor =>
    refine modular.setRow first _ (fun handle hle hlt op hop => ?_) factor
    exact accessHandle henter (hwithin handle hle (by omega)) _ fun _ h => absurd h (hop _)
  | getRow first last =>
    refine bind (modular.getRow first _ fun handle hle hlt op hop => ?_) fun _ => pure _
    exact accessHandle henter (hwithin handle hle (by omega)) _ fun _ h => absurd h (hop _)
  | slotOf handle => exact modular.slotOf enter handle
  | describe handle => exact modular.describe enter handle
  | duplicate handle => exact duplicate enter hwithin
  | drop handle => exact drop enter handle
  | compare a b => exact modular.compare enter a b
  | onThread op => exact upkeep hwithin
  | onTables op => exact modular.tableCommand current current? newTable op
  | onProcess op => exact modular.processCommand burn op
  | onWatchers op => exact modular.watchCommand op

/-- **Nested code leaves a variable alone** to which no handle that it uses leads. -/
theorem enter (depth : Nat) {s : Script} (hs : s.Only (Command.Within K)) :
    Avoids K v id sc₀ (ThreadSlots.enter depth s) := by
  have hcoupled : Coupled (Diagonal (sc₀.Untouched K v id)) Eq
      (ThreadSlots.enter depth s) (ThreadSlots.enter depth s) := by
    refine coupled_enter (fun e => ?_) (fun enter henter c hc => ?_) depth hs
    · exact (Coupled.of_keeps fun _ hsc => hsc.noted rfl rfl).mono fun _ _ _ => trivial
    · exact .of_keeps (command (fun s hs sc => (henter s hs).keeps) hc)
  exact fun sc => hcoupled.keeps

end Avoids

end ThreadSlots
