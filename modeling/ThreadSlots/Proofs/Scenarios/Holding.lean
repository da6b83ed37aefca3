import ThreadSlots.Proofs.Destructors
import ThreadSlots.Proofs.Maps.Operations
import ThreadSlots.Scenario.Report

/-!
# What a thread holds

`Scene.Holds` relates a scene to the values that the thread has set: those of the table that its
operations work on, or none if it has no such table. It does not tell apart what the table is called,
which policy it has, whether it is carried, and how the death watch stands; so each operation has one
statement (`Does`), for threads of every kind. Only variables without removal hooks may be held.

No operation on a thread's values changes what other threads' operations depend on (`Process.Steady`).
-/

namespace ThreadSlots

open Std (ExtTreeMap)
open Storage Maps

/-! ## What threads share -/

/-- The variables, the slots that were taken and the epoch are the same. -/
structure Process.Steady (p p' : Process) : Prop where
  register : p'.register = p.register
  epoch : p'.epoch = p.epoch

namespace Process.Steady

variable {p p' p'' : Process}

theorem refl (p : Process) : p.Steady p := ⟨rfl, rfl⟩

theorem trans (h : p.Steady p') (h' : p'.Steady p'') : p.Steady p'' :=
  ⟨h'.register.trans h.register, h'.epoch.trans h.epoch⟩

theorem of_stripped (h : p'.stripped = p.stripped) : p.Steady p' :=
  ⟨congrArg (·.register) h, congrArg (·.epoch) h⟩

theorem bySlot (h : p.Steady p') : p'.bySlot = p.bySlot := congrArg (·.1) h.register

theorem supply (h : p.Steady p') : p'.supply = p.supply := congrArg (·.2.1) h.register

theorem sound (h : p.Steady p') (hp : p.Sound) : p'.Sound := hp.of_eq h.register

theorem knows (h : p.Steady p') (v : Variable) (hv : p.Knows v) : p'.Knows v := by
  unfold Process.Knows at *
  rwa [h.bySlot]

end Process.Steady

theorem Scene.Like.steady {sc sc' : Scene} (h : sc.Like sc') : sc.process.Steady sc'.process :=
  .of_stripped h.process

/-! ## What a thread holds -/

/-- Values by the slots of their variables. -/
abbrev Holding := ExtTreeMap Nat (Variable × Value)

/-- The table holds the values, and nothing that it holds is out of its reach. -/
structure Table.Keeps (t : SlotTable) (p : Process) (values : Holding) : Prop where
  mirrors : t.Mirrors p { policy := t.policy, values := values }
  reach : ∀ slot ∈ values, slot < t.capacity

/-- The thread holds the values, which are values of the known variables. -/
structure Scene.Holds (known : List Variable) (values : Holding) (sc : Scene) : Prop where
  sound : sc.process.Sound
  knows : ∀ v ∈ known, sc.process.Knows v
  hookless : ∀ v ∈ known, v.onRemoval = none
  entries : ∀ (slot : Nat) (entry : Variable × Value), values[slot]? = some entry → entry.1 ∈ known
  intact : sc.thread.locals.Intact
  own : ∀ id, sc.own? = some id → (sc.thread.table id).Keeps sc.process values
  blank : sc.own? = none → values = ∅

namespace Table.Keeps

variable {t : SlotTable} {p p' : Process} {values : Holding} {v : Variable}

theorem of_policy (policy : SentinelPolicy) : ({ policy := policy } : SlotTable).Keeps p ∅ where
  mirrors := .of_policy policy
  reach slot h := by simp at h

theorem steady (h : t.Keeps p values) (hs : p.Steady p') : t.Keeps p' values :=
  { h with mirrors := h.mirrors.mono hs.knows }

theorem size_live (h : t.Keeps p values) : t.live.size = values.size := h.mirrors.size_live

theorem value?_eq (h : t.Keeps p values) (hp : p.Sound) (hv : p.Knows v) :
    (t.get? v.slot).bind (·.value? v.kind) = values[v.slot]?.map (·.2) :=
  h.mirrors.value?_eq hp hv

theorem contains_eq (h : t.Keeps p values) (hp : p.Sound) (hv : p.Knows v) :
    t.contains v.slot = values.contains v.slot := by
  rw [h.mirrors.contains_eq hp hv, ValueMap.value?, Option.isSome_map,
    ExtTreeMap.contains_eq_isSome_getElem?]

theorem capacity_le_of_insert {slot : Nat} {c : Cell} {stored : Table.Stored Cell}
    (h : t.insert slot c = .ok stored) : t.capacity ≤ stored.table.capacity := by
  unfold Table.insert at h
  split at h
  · cases h
    exact Nat.le_of_eq (Table.capacity_put ..).symm
  · unfold Table.growTo at h
    split at h
    · cases h
      rw [Table.capacity_put, Table.capacity_resize]
      exact Nat.le_max_left ..
    · cases h

theorem exists_insert (h : t.Keeps p values) (hp : p.Sound) (hv : p.Knows v) {value : Value}
    (hkind : value.kind = v.kind) :
    ∃ stored, t.insert v.slot (.value value) = .ok stored ∧
      (stored.track v).Keeps p (values.insert v.slot (v, value)) := by
  obtain ⟨stored, hi, -⟩ := h.mirrors.exists_insert hp hv (.value value)
  have hpolicy : (stored.track v).policy = t.policy := by
    rw [← (Table.insert_eq_ok hi).2.2.2.1]
    unfold Table.Stored.track
    split <;> rfl
  refine ⟨stored, hi, hpolicy ▸ h.mirrors.insert hp hv hkind hi, fun slot hslot => ?_⟩
  rw [Table.capacity_track]
  rcases ExtTreeMap.mem_insert.1 hslot with he | hmem
  · rw [← Nat.compare_eq_eq.1 he]
    exact (Table.insert_eq_ok hi).2.2.2.2
  · exact Nat.lt_of_lt_of_le (h.reach slot hmem) (capacity_le_of_insert hi)

theorem erase (h : t.Keeps p values) (hp : p.Sound) (hv : p.Knows v) :
    (t.without v).Keeps p (values.erase v.slot) := by
  have hpolicy : (t.without v).policy = t.policy := by
    unfold Table.without Table.untracked
    split <;> rfl
  refine ⟨hpolicy ▸ h.mirrors.erase hp hv, fun slot hslot => ?_⟩
  rw [Table.capacity_without]
  exact h.reach slot (ExtTreeMap.mem_erase.1 hslot).2

end Table.Keeps

namespace Scene.Holds

variable {known : List Variable} {values : Holding} {sc sc' : Scene}

/-- Only the thread, and of the process what is steady, matter. -/
theorem steady (h : sc.Holds known values) (hthread : sc'.thread = sc.thread)
    (hp : sc.process.Steady sc'.process) : sc'.Holds known values := by
  have hown : sc'.own? = sc.own? := by
    unfold Scene.own?
    rw [hp.epoch, hthread]
  refine ⟨hp.sound h.sound, fun v hv => hp.knows v (h.knows v hv), h.hookless, h.entries, ?_,
    fun id hid => ?_, fun hid => h.blank (hown ▸ hid)⟩
  · rw [hthread]
    exact h.intact
  · rw [hthread]
    exact (h.own id (hown ▸ hid)).steady hp

theorem parted (h : sc.Holds known values) (id : TableId) (slot : Nat) (fate : Fate)
    (cell : Option Cell) : (sc.parted id slot fate cell).Holds known values :=
  h.steady rfl (.refl _)

theorem arrived (h : sc.Holds known values) (id : TableId) (slot : Nat) (value : Value) :
    (sc.arrived id slot (.value value)).Holds known values :=
  h.steady rfl (.refl _)

theorem like (h : sc.Holds known values) (hlike : sc.Like sc') : sc'.Holds known values := by
  have hsteady := hlike.steady
  refine ⟨hsteady.sound h.sound, fun v hv => hsteady.knows v (h.knows v hv), h.hookless, h.entries, ?_,
    fun id hid => ?_, fun hid => h.blank (hlike.own? ▸ hid)⟩
  · rw [← show sc.thread.locals = sc'.thread.locals from congrArg (·.thread.locals) hlike]
    exact h.intact
  · rw [hlike.thread_table]
    exact (h.own id (hlike.own? ▸ hid)).steady hsteady

/-- The own table may be replaced. -/
theorem setTable (h : sc.Holds known values) {id : TableId} (hid : sc.own? = some id) {t : SlotTable}
    {values' : Holding} (ht : t.Keeps sc.process values')
    (hentries : ∀ (slot : Nat) (entry : Variable × Value), values'[slot]? = some entry →
      entry.1 ∈ known) :
    (sc.setTable id t).Holds known values' := by
  have hown : (sc.setTable id t).own? = some id := hid
  refine ⟨h.sound, h.knows, h.hookless, hentries, h.intact, fun i hi => ?_, fun hi => ?_⟩
  · rw [hown] at hi
    cases hi
    rw [Scene.table_setTable_self]
    exact ht
  · rw [hown] at hi
    cases hi

end Scene.Holds

namespace Scene

theorem table_makeBlank (sc : Scene) :
    sc.makeBlank.thread.table sc.thread.nextTable = sc.blankTable := by
  have htable := sc.table_makeTable sc.blankTable sc.thread.nextTable
  rw [if_pos rfl] at htable
  exact htable

end Scene

namespace Scene.Holds

variable {known : List Variable} {values : Holding} {sc sc' : Scene}

/-- A thread holds nothing if it has no table or a blank one. -/
theorem of_blank (hp : sc.process.Sound) (hknown : ∀ v ∈ known, sc.process.Knows v ∧ v.onRemoval = none)
    (hintact : sc.thread.locals.Intact)
    (hown : ∀ id, sc.own? = some id → ∃ policy, sc.thread.table id = { policy := policy }) :
    sc.Holds known ∅ := by
  refine ⟨hp, fun v hv => (hknown v hv).1, fun v hv => (hknown v hv).2, by simp, hintact, ?_,
    fun _ => rfl⟩
  intro id hid
  obtain ⟨policy, htable⟩ := hown id hid
  rw [htable]
  exact .of_policy policy

/-- Every value is held under the slot of its variable. -/
theorem slot_mem (h : sc.Holds known values) {slot : Nat} (hslot : slot ∈ values) :
    ∃ v ∈ known, v.slot = slot := by
  rw [ExtTreeMap.mem_iff_isSome_getElem?] at hslot
  obtain ⟨⟨v, value⟩, hentry⟩ := Option.isSome_iff_exists.1 hslot
  refine ⟨v, h.entries slot _ hentry, ?_⟩
  rcases hown : sc.own? with _ | id
  · rw [h.blank hown] at hentry
    simp at hentry
  · exact ((h.own id hown).mirrors.entries slot v value hentry).1

theorem known_and (h : sc.Holds known values) : ∀ v ∈ known, sc.process.Knows v ∧ v.onRemoval = none :=
  fun v hv => ⟨h.knows v hv, h.hookless v hv⟩

theorem dropFallback (h : sc.Holds known values)
    (hcarried : sc.thread.carried? = none) : sc.dropFallback.Holds known ∅ := by
  refine .of_blank h.sound h.known_and h.intact.emptied fun id hid => ?_
  rw [Scene.own?_dropFallback hcarried] at hid
  cases hid

/-- When the thread-locals were first used does not matter. -/
theorem setLocals (h : sc.Holds known values) {l : Locals} (hl : l.seen = sc.thread.locals.seen) :
    (sc.setLocals l).Holds known values := by
  have hown : (sc.setLocals l).own? = sc.own? := Thread.own?_of_seen hl _
  exact ⟨h.sound, h.knows, h.hookless, h.entries, h.intact.of_seen hl,
    fun id hid => h.own id (hown ▸ hid), fun hid => h.blank (hown ▸ hid)⟩

theorem reached (h : sc.Holds known values) : sc.reached.Holds known values :=
  h.setLocals sc.thread.locals.seen_reached

/-- The thread's own table is made if there is none. -/
theorem exists_current (h : sc.Holds known values) :
    ∃ id sc', runOn current sc = (.ok id, sc') ∧ sc'.Holds known values ∧ sc'.own? = some id ∧
      sc.process.Steady sc'.process := by
  have hrun := runOn_current sc
  rcases hown : sc.own? with _ | id
  · have hsome : (sc.makeBlank.keep sc.thread.nextTable).own? = some sc.thread.nextTable :=
      Scene.own?_keep (carried?_eq_none hown : sc.makeBlank.thread.carried? = none) h.intact _
    rw [hown] at hrun
    have hsteady : sc.process.Steady (sc.makeBlank.keep sc.thread.nextTable).process := ⟨rfl, rfl⟩
    refine ⟨_, _, hrun, ?_, hsome, hsteady⟩
    rw [h.blank hown]
    refine .of_blank (hsteady.sound h.sound)
      (fun v hv => (h.known_and v hv).imp_left (hsteady.knows v)) (h.intact.emptied.setFallback _)
      fun id hid => ?_
    cases hsome.symm.trans hid
    exact ⟨_, sc.table_makeBlank⟩
  · rw [hown] at hrun
    exact ⟨id, sc.reached, hrun, h.reached, sc.own?_reached.trans hown, .refl _⟩

/-- Looking for the thread's own table changes nothing that it holds. -/
theorem exists_current? (h : sc.Holds known values) :
    ∃ sc', runOn current? sc = (.ok sc.own?, sc') ∧ sc'.Holds known values ∧ sc'.own? = sc.own? ∧
      sc.process.Steady sc'.process := by
  have hrun := runOn_current? sc
  rcases hown : sc.own? with _ | id
  · rw [hown] at hrun
    have hcarried := carried?_eq_none hown
    refine ⟨sc.dropFallback, hrun, ?_, Scene.own?_dropFallback hcarried, .refl _⟩
    rw [h.blank hown]
    exact h.dropFallback hcarried
  · rw [hown] at hrun
    exact ⟨sc.reached, hrun, h.reached, sc.own?_reached.trans hown, .refl _⟩

end Scene.Holds

/-! ## Operations -/

/-- The variable is an integer that starts from a constant, and its removal runs no code. -/
structure Variable.Starts (v : Variable) (i : Int) : Prop where
  kind : v.kind = .int
  nested : v.initial.nested = none
  outcome : ∀ n, v.initial.outcome n none = .ok (.int i)
  hook : v.onRemoval = none

theorem Variable.Starts.isPure {v : Variable} {i : Int} (h : v.Starts i) : v.Pure where
  initial := ⟨h.nested, fun n => ⟨_, h.outcome n⟩⟩
  hook hook hv := by rw [h.hook] at hv; cases hv

theorem Variable.Starts.kind_int {v : Variable} {i : Int} (h : v.Starts i) (j : Int) :
    (Value.int j).kind = v.kind := h.kind.symm

namespace Storage

/-- On a thread that holds some values the action ends, with a result and values that satisfy the
condition. -/
def Does {α : Type} (known : List Variable) (x : Storage α) (values : Holding)
    (post : α → Holding → Prop) : Prop :=
  ∀ sc : Scene, sc.Holds known values → ∃ a values' sc', runOn x sc = (.ok a, sc') ∧ post a values' ∧
    sc'.Holds known values' ∧ sc.process.Steady sc'.process

/-- This result and these values. -/
def Exactly {α : Type} (a : α) (values : Holding) : α → Holding → Prop :=
  fun a' values' => a' = a ∧ values' = values

namespace Does

variable {α β : Type} {known : List Variable} {values values' : Holding} {v : Variable}

theorem pure {a : α} {post : α → Holding → Prop} (h : post a values) :
    Does known (Pure.pure a) values post := fun sc hsc => ⟨a, values, sc, rfl, h, hsc, .refl _⟩

theorem bind {x : Storage α} {f : α → Storage β} {mid : α → Holding → Prop}
    {post : β → Holding → Prop} (hx : Does known x values mid)
    (hf : ∀ a values', mid a values' → Does known (f a) values' post) :
    Does known (x >>= f) values post := by
  intro sc h
  obtain ⟨a, values', sc₁, hrun, hmid, h₁, hs₁⟩ := hx sc h
  obtain ⟨b, values'', sc₂, hrun', hpost, h₂, hs₂⟩ := hf a values' hmid sc₁ h₁
  refine ⟨b, values'', sc₂, ?_, hpost, h₂, hs₁.trans hs₂⟩
  rw [runOn_bind, hrun]
  exact hrun'

theorem mono {x : Storage α} {post post' : α → Holding → Prop} (hx : Does known x values post)
    (h : ∀ a values', post a values' → post' a values') : Does known x values post' := by
  intro sc hsc
  obtain ⟨a, values', sc', hrun, hpost, hrest⟩ := hx sc hsc
  exact ⟨a, values', sc', hrun, h a values' hpost, hrest⟩

/-- The rule for an action of which the result is known. -/
theorem next {x : Storage α} {f : α → Storage β} {a : α} {post : β → Holding → Prop}
    (hx : Does known x values (Exactly a values')) (hf : Does known (f a) values' post) :
    Does known (x >>= f) values post :=
  hx.bind fun _ _ h => h.1 ▸ h.2 ▸ hf

theorem isSet (hv : v ∈ known) :
    Does known v.isSet values (Exactly (values.contains v.slot) values) := by
  intro sc h
  obtain ⟨sc', hrun, h', hown, hs⟩ := h.exists_current?
  refine ⟨_, _, sc', ?_, ⟨rfl, rfl⟩, h', hs⟩
  unfold Variable.isSet Variable.isSetIn
  rw [runOn_bind, hrun]
  rcases ho : sc.own? with _ | id
  · rw [h.blank ho]
    simp
  · have hkeeps := h'.own id (hown.trans ho)
    simp only [runOn_bind, runOn_table, runOn_pure, hkeeps.contains_eq h'.sound (h'.knows v hv)]

theorem liveCount : Does known liveCount values (Exactly values.size values) := by
  intro sc h
  obtain ⟨sc', hrun, h', hown, hs⟩ := h.exists_current?
  refine ⟨_, _, sc', ?_, ⟨rfl, rfl⟩, h', hs⟩
  unfold ThreadSlots.liveCount
  rw [runOn_bind, hrun]
  rcases ho : sc.own? with _ | id
  · rw [h.blank ho]
    simp
  · have hsize := (h'.own id (hown.trans ho)).size_live
    rw [← hsize]
    rcases hset : ((sc'.thread.table id).get? reservedSlot).bind Cell.liveSet? with _ | set
    all_goals simp [hset, Table.live]

/-- Writing into the thread's own table. -/
theorem exists_putIn {sc : Scene} {id : TableId} (h : sc.Holds known values) (hid : sc.own? = some id)
    (hv : v ∈ known) {value : Value} (hkind : value.kind = v.kind) (fate : Fate) :
    ∃ cell sc', runOn (v.putIn id value fate) sc = (.ok cell, sc') ∧
      sc'.Holds known (values.insert v.slot (v, value)) ∧ sc.process.Steady sc'.process := by
  obtain ⟨stored, hi, hkeeps⟩ := (h.own id hid).exists_insert h.sound (h.knows v hv) hkind
  obtain ⟨sc', hrun, hlike⟩ := ends_putIn sc fate hi
  have hset : (sc.setTable id (stored.track v)).Holds known (values.insert v.slot (v, value)) := by
    refine h.setTable hid hkeeps fun slot entry hentry => ?_
    rw [ExtTreeMap.getElem?_insert] at hentry
    split at hentry
    · cases hentry
      exact hv
    · exact h.entries slot entry hentry
  exact ⟨_, sc', hrun, ((hset.arrived id v.slot value).parted id v.slot fate _).like hlike,
    hlike.steady⟩

/-- The thread's table reaches every slot that is set. -/
theorem table : Does known (do Storage.table (← current)) values fun t values' =>
    values' = values ∧ ∀ slot ∈ values, slot < t.capacity := by
  intro sc h
  obtain ⟨id, sc₁, hrun, h₁, hid, hs₁⟩ := h.exists_current
  refine ⟨_, values, sc₁, ?_, ⟨rfl, (h₁.own id hid).reach⟩, h₁, hs₁⟩
  rw [runOn_bind, hrun]
  rfl

theorem set (hv : v ∈ known) {value : Value} (hkind : value.kind = v.kind) :
    Does known (v.set value) values (Exactly () (values.insert v.slot (v, value))) := by
  intro sc h
  obtain ⟨id, sc₁, hrun, h₁, hid, hs₁⟩ := h.exists_current
  obtain ⟨cell, sc₂, hput, h₂, hs₂⟩ := exists_putIn h₁ hid hv hkind .overwritten
  refine ⟨(), _, sc₂, ?_, ⟨rfl, rfl⟩, h₂, hs₁.trans hs₂⟩
  unfold Variable.set Variable.setIn
  rw [runOn_bind, hrun]
  simp only [runOn_bind, hput, runOn_pure]

theorem get_of_some (enter : Enter) (hv : v ∈ known) {value : Value}
    (hvalue : values[v.slot]? = some (v, value)) :
    Does known (v.get enter) values (Exactly value values) := by
  intro sc h
  obtain ⟨id, sc₁, hrun, h₁, hid, hs₁⟩ := h.exists_current
  refine ⟨value, values, sc₁, ?_, ⟨rfl, rfl⟩, h₁, hs₁⟩
  have htable := (h₁.own id hid).value?_eq h₁.sound (h₁.knows v hv)
  rw [hvalue] at htable
  unfold Variable.get Variable.getIn
  rw [runOn_bind, hrun]
  simp only [runOn_bind, runOn_table, htable, Option.map_some, runOn_pure]

/-- A variable that is not set is given its initial value. -/
theorem get_of_none (enter : Enter) (hv : v ∈ known) {i : Int} (hstarts : v.Starts i)
    (hvalue : values[v.slot]? = none) :
    Does known (v.get enter) values (Exactly (.int i) (values.insert v.slot (v, .int i))) := by
  intro sc h
  obtain ⟨id, sc₁, hrun, h₁, hid, hs₁⟩ := h.exists_current
  have htable := (h₁.own id hid).value?_eq h₁.sound (h₁.knows v hv)
  rw [hvalue, Option.map_none] at htable
  obtain ⟨made, hmade, hinit⟩ := runOn_makeInitial_pure hstarts.isPure enter
    { sc₁ with process := sc₁.process.count .initializations }
  rw [hstarts.outcome] at hmade
  cases hmade
  have hfit : v.kind.fit (.int i) = .int i := by simp [Kind.fit, Value.kind, hstarts.kind]
  rw [hfit] at hinit
  generalize hsc₂ : Scene.initialized { sc₁ with process := sc₁.process.count .initializations } v
    (.int i) = sc₂ at hinit
  have hs₂ : sc₁.process.Steady sc₂.process := hsc₂ ▸ ⟨rfl, rfl⟩
  have hthread : sc₂.thread = sc₁.thread := hsc₂ ▸ rfl
  have hid₂ : sc₂.own? = some id := by
    rw [← hid, Scene.own?, Scene.own?, hthread, hs₂.epoch]
  have hkind : (Value.int i).kind = v.kind := hstarts.kind.symm
  obtain ⟨cell, sc₃, hput, h₃, hs₃⟩ := exists_putIn (h₁.steady hthread hs₂) hid₂ hv hkind .overwritten
  refine ⟨.int i, _, sc₃, ?_, ⟨rfl, rfl⟩, h₃, hs₁.trans (hs₂.trans hs₃)⟩
  unfold Variable.get Variable.getIn Variable.makeIn
  rw [runOn_bind, hrun]
  simp only [runOn_bind, runOn_table, htable, runOn_count, hinit, hput, runOn_pure]

theorem remove (enter : Enter) (hv : v ∈ known) :
    Does known (v.remove enter) values (Exactly () (values.erase v.slot)) := by
  intro sc h
  obtain ⟨sc', hrun, h', hown, hs⟩ := h.exists_current?
  unfold Variable.remove
  rcases ho : sc.own? with _ | id
  · refine ⟨(), _, sc', ?_, ⟨rfl, rfl⟩, ?_, hs⟩
    · rw [runOn_bind, hrun, ho]
      rfl
    · have hnone := h.blank ho
      subst hnone
      simpa using h'
  · have hid := hown.trans ho
    have hremove := runOn_removeIn sc' enter v id
    have hhook : v.onRemoval = none := h'.hookless v hv
    refine ⟨(), _, (sc'.setTable id ((sc'.thread.table id).without v)).handedOver v id
      ((sc'.thread.table id).get? v.slot), ?_, ⟨rfl, rfl⟩, ?_, ?_⟩
    · rw [runOn_bind, hrun, ho]
      simp only [hremove, Variable.runHook, hhook, runOn_pure]
    · have hset : (sc'.setTable id ((sc'.thread.table id).without v)).Holds known
          (values.erase v.slot) := by
        refine h'.setTable hid ((h'.own id hid).erase h'.sound (h'.knows v hv)) fun slot entry he => ?_
        rw [ExtTreeMap.getElem?_erase] at he
        split at he
        · cases he
        · exact h'.entries slot entry he
      simp only [Scene.handedOver, hhook]
      exact hset.parted id v.slot .removed _
    · simp only [Scene.handedOver, hhook]
      exact hs.trans (.refl _)

/-! ### Clearing -/

section

variable {sc : Scene} (h : sc.Holds known values) (enter : Enter)

include h in
/-- A discarded table leaves nothing. -/
theorem exists_discard : ∃ sc', runOn discard sc = (.ok (), sc') ∧ sc'.Holds known ∅ ∧
    sc.process.Steady sc'.process := by
  have hrun := runOn_discard sc
  rcases hc : sc.thread.carried? with _ | id
  · rw [hc] at hrun
    exact ⟨_, hrun, h.dropFallback hc, .refl _⟩
  · rw [hc] at hrun
    have hs : sc.process.Steady (sc.process.count .tablesCreated).settled := ⟨rfl, rfl⟩
    refine ⟨_, hrun, ?_, hs⟩
    refine .of_blank (hs.sound h.sound) (fun v hv => (h.known_and v hv).imp_left (hs.knows v))
      h.intact
      fun i hi => ⟨sc.process.inEffect.sentinelPolicy, ?_⟩
    have hown : some id = some i := (Scene.own?_of_carried hc).symm.trans hi
    cases hown
    exact sc.table_setTable_self id sc.blankTable

include h in
/-- Clearing the thread's table cannot fail. -/
theorem exists_clearTable : ∃ b sc', runOn (clearTable enter) sc = (.ok b, sc') ∧
    sc'.Holds known ∅ ∧ sc.process.Steady sc'.process := by
  have hrun := runOn_clearTable enter sc
  have hunwatched := h.like sc.like_unwatched
  rcases hown : sc.own? with _ | id
  · rw [hown] at hrun
    have hcarried := Scene.carried?_eq_none (sc.like_unwatched.own?.trans hown)
    exact ⟨false, _, hrun, hunwatched.dropFallback hcarried, sc.like_unwatched.steady⟩
  · rw [hown] at hrun
    have hkeeps := h.own id hown
    have hlists := hkeeps.mirrors.lists
    have hhook : ∀ v ∈ (sc.thread.table id).listed, v.onRemoval = none := by
      intro v hv
      rw [hkeeps.mirrors.listed_eq] at hv
      obtain ⟨⟨slot, entry⟩, hmem, rfl⟩ := List.mem_map.1 hv
      exact h.hookless _ (h.entries slot entry (ExtTreeMap.mem_toList_iff_getElem?_eq_some.1 hmem))
    -- Without hooks the pass is a fold over the listed variables.
    have hpass : runOn (clearEach enter id (sc.thread.table id).listed) (sc.detached id) =
        (.ok (), (sc.thread.table id).listed.foldl (Scene.cleared id) (sc.detached id)) := by
      refine runOn_clearEach_alone (fun v hv hook hsome => ?_) fun v hv cell => ?_
      · rw [hhook v hv] at hsome
        cases hsome
      · simp only [Variable.panicOn?, hhook v hv]
    obtain ⟨partings, hfold⟩ :=
      foldl_cleared_eq (hlists.pairwise_listed.imp Nat.ne_of_lt) sc.unwatched.reached id
      ((sc.thread.table id).erase reservedSlot).table
    rw [Scene.detached, hfold] at hpass
    simp only [Scene.detached, hpass] at hrun
    refine ⟨true, _, hrun, ?_, sc.like_unwatched.steady.trans ⟨rfl, rfl⟩⟩
    have hown' : sc.unwatched.reached.own? = some id :=
      sc.unwatched.own?_reached.trans (sc.like_unwatched.own?.trans hown)
    have hcleared : (((sc.thread.table id).erase reservedSlot).table.eraseAll
        (sc.thread.table id).listed).Keeps sc.unwatched.process ∅ := by
      have hpolicy : (((sc.thread.table id).erase reservedSlot).table.eraseAll
          (sc.thread.table id).listed).policy = (sc.thread.table id).policy := by
        rw [Table.policy_eraseAll, Table.policy_erase]
      have hmirrors := hkeeps.mirrors.cleared.mono sc.like_unwatched.steady.knows
      exact ⟨hpolicy ▸ hmirrors, by simp⟩
    exact (hunwatched.reached.setTable hown' hcleared (by simp)).steady rfl ⟨rfl, rfl⟩

theorem clearThread : Does known (ThreadSlots.clearThread enter) values (Exactly () ∅) := by
  intro sc h
  obtain ⟨b, sc₁, hrun, h₁, hs₁⟩ := exists_clearTable h enter
  unfold ThreadSlots.clearThread
  rw [runOn_bind, hrun]
  cases b with
  | false => exact ⟨(), _, sc₁, rfl, ⟨rfl, rfl⟩, h₁, hs₁⟩
  | true =>
    obtain ⟨sc₂, hdiscard, h₂, hs₂⟩ := exists_discard h₁
    exact ⟨(), _, sc₂, hdiscard, ⟨rfl, rfl⟩, h₂, hs₁.trans hs₂⟩

end

end Does

end Storage

/-! ## How a thread starts and ends -/

section

variable {known : List Variable} {values : Holding} {p : Process}

/-- A thread that has just begun to exist may adopt a table, which is blank. -/
theorem exists_prepare (mode : ThreadMode) (sc : Scene) (hp : sc.process.Sound)
    (hown : sc.own? = none) (hintact : sc.thread.locals.Intact) :
    ∃ b sc', runOn (prepare mode.kind) sc = (.ok b, sc') ∧ sc'.Holds [] ∅ ∧
      sc.process.Steady sc'.process := by
  have hgeneric : ∃ b sc', runOn (prepare .generic) sc = (.ok b, sc') ∧ sc'.Holds [] ∅ ∧
      sc.process.Steady sc'.process := by
    have hempty : sc.Holds [] ∅ := .of_blank hp (by simp) hintact fun id hid => by
      rw [hown] at hid
      cases hid
    exact ⟨_, _, rfl, hempty.setLocals sc.thread.locals.seen_useCarried, .refl _⟩
  have hcarried : ∃ b sc', runOn (prepare .carried) sc = (.ok b, sc') ∧ sc'.Holds [] ∅ ∧
      sc.process.Steady sc'.process := by
    have hadopt := runOn_adopt sc
    rw [Scene.carried?_eq_none hown, hown] at hadopt
    have hs : sc.process.Steady (sc.makeBlank.carry sc.thread.nextTable).process := ⟨rfl, rfl⟩
    have hcarried : (sc.makeBlank.carry sc.thread.nextTable).thread.carried? =
        some sc.thread.nextTable := Scene.carried?_carry_of_intact hintact _
    have hblank : (sc.makeBlank.carry sc.thread.nextTable).Holds [] ∅ := by
      refine .of_blank (hs.sound hp) (by simp) (hintact.emptied.setCarried _) fun id hid =>
        ⟨sc.process.inEffect.sentinelPolicy, ?_⟩
      cases (Scene.own?_of_carried hcarried).symm.trans hid
      exact sc.table_makeBlank
    let sc' := sc.makeBlank.carry sc.thread.nextTable
    refine ⟨(sc'.setLocals sc'.thread.locals.useCarried).thread.carried?.isSome, _, ?_,
      hblank.setLocals sc'.thread.locals.seen_useCarried, hs⟩
    simp only [prepare, ThreadKind.carries, if_true, runOn_bind, hadopt]
    rfl
  cases mode with
  | generic => exact hgeneric
  | carried | both => exact hcarried

/-- A new thread holds nothing. -/
theorem holds_startThread (hp : p.Sound) (mode : ThreadMode) :
    { process := (p.startThread mode.kind none).2.2
      thread := (p.startThread mode.kind none).2.1 : Scene }.Holds [] ∅ ∧
      p.Steady (p.startThread mode.kind none).2.2 := by
  have hgrown : p.Steady { p with nextThread := p.nextThread + 1 } := ⟨rfl, rfl⟩
  obtain ⟨b, sc', hrun, h', hs⟩ := exists_prepare mode
    { process := { p with nextThread := p.nextThread + 1 }
      thread := { id := p.nextThread, label := if mode.kind = .withContext then none else none } }
    (hgrown.sound hp) rfl ⟨nofun, nofun⟩
  unfold Process.startThread
  rw [hrun]
  exact ⟨h'.steady rfl (.refl _), hgrown.trans hs⟩

theorem Scene.steady_unwind (sc : Scene) : sc.process.Steady (sc.unwind 0).process.settle :=
  .of_stripped ((Process.stripped_settle _).trans (sc.stripped_unwind 0))

/-- The exit of a thread cannot fail. -/
theorem Scenario.exists_retire {t : Thread}
    (h : { process := p, thread := t : Scene }.Holds known values) (mode : ThreadMode) :
    ∃ p', retire mode p t = (.ok (), p') ∧ p.Steady p' := by
  have hexit : ∃ sc', runOn (clearOnExit mode.kind nestingLimit) { process := p, thread := t } =
      (.ok (), sc') ∧ p.Steady sc'.process := by
    have hcarried : ∃ sc', runOn (clearOnExit .carried nestingLimit) { process := p, thread := t } =
        (.ok (), sc') ∧ p.Steady sc'.process := by
      obtain ⟨b, sc₁, hrun, h₁, hs₁⟩ := Does.exists_clearTable h (enter nestingLimit)
      have hrelease := runOn_release sc₁
      unfold clearOnExit clearAndRelease
      simp only [ThreadKind.carries, if_true, runOn_bind, hrun]
      cases b with
      | false => exact ⟨sc₁, rfl, hs₁⟩
      | true =>
        have hdiscard (sc : Scene) : ∃ sc', runOn discard sc = (.ok (), sc') ∧
            sc.process.Steady sc'.process := by
          rw [runOn_discard]
          split
          · exact ⟨_, rfl, ⟨rfl, rfl⟩⟩
          · exact ⟨_, rfl, .refl _⟩
        simp only [if_true, runOn_bind, hrelease]
        split
        · obtain ⟨sc₂, hrun₂, hs₂⟩ := hdiscard sc₁.released
          exact ⟨sc₂, hrun₂, hs₁.trans hs₂⟩
        · exact ⟨_, rfl, hs₁⟩
    cases mode with
    | generic => exact ⟨_, rfl, .refl _⟩
    | carried | both => exact hcarried
  obtain ⟨sc', hrun, hs⟩ := hexit
  unfold retire
  rw [hrun]
  exact ⟨_, rfl, hs.trans sc'.steady_unwind⟩

end

end ThreadSlots
