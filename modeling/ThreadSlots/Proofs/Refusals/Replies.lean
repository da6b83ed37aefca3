import ThreadSlots.Proofs.Refusals.Commands

/-!
# What nested code is told

Initializers, removal hooks and the code that is handed a value do commands of their own, and every
reply that they get is noted among the events of the thread. Two refusals are foreseen there: that no
index is left, and that the unset sentinel is not stored (`StorageError.Foreseen`). No action tells
nested code of another one (`tells_perform`), since the scene in which nested code does its next
command is as able to store values as the one in which the thread began.
-/

namespace ThreadSlots

open Storage

/-- No index is left, or the unset sentinel is not stored. -/
def StorageError.Foreseen (e : StorageError) : Prop :=
  e = SlotSupply.exhausted ∨ ∃ slot, e = .sentinelStored slot

/-- The reply tells of no other refusal. -/
def Reply.Foreseen (r : Reply) : Prop := ∀ e, r.refusal? = some e → e.Foreseen

theorem Command.Refused.foreseen {sc sc' : Scene} {c : Command} {e : StorageError}
    (h : c.Refused sc e sc') : e.Foreseen := by
  cases h with
  | sentinel => exact .inr ⟨_, rfl⟩
  | _ => exact .inl rfl

/-- A thread is told of no other refusal. -/
theorem Scene.Able.foreseen {sc sc' : Scene} (h : sc.Able) {limit : Nat} {c : Command} {r : Reply}
    (hrun : runOn (perform (enter limit) c) sc = (.ok r, sc')) : r.Foreseen := by
  intro e he
  refine (h.refused limit c ?_).foreseen
  rw [hrun]
  exact he

/-! ## Steps of nested code -/

def Event.step? : Event → Option (String × Reply)
  | .stepped name reply => some (name, reply)
  | _ => none

/-- The steps that nested code did, the latest first. -/
def Scene.steps (sc : Scene) : List (String × Reply) := sc.events.filterMap Event.step?

/-- In every step nested code was told of foreseen refusals only. -/
def Scene.Told (sc : Scene) : Prop := ∀ step ∈ sc.steps, step.2.Foreseen

theorem Scene.Told.congr {sc sc' : Scene} (h : sc.Told) (hsteps : sc'.steps = sc.steps) :
    sc'.Told := by
  unfold Scene.Told
  rwa [hsteps]

theorem Scene.steps_handedOver (sc : Scene) (v : Variable) (id : TableId) (cell : Option Cell) :
    (sc.handedOver v id cell).steps = sc.steps := by
  unfold Scene.handedOver
  split <;> rfl

/-- The action does no step of nested code. -/
def Silent {α : Type} (x : Storage α) : Prop := ∀ sc, (runOn x sc).2.steps = sc.steps

namespace Silent

variable {α β : Type}

theorem of_events {x : Storage α} (h : ∀ sc, (runOn x sc).2.events = sc.events) : Silent x :=
  fun sc => congrArg (·.filterMap Event.step?) (h sc)

theorem modular : Modular Silent where
  bind_of {_ _ _ x f} hx hQ hf := by
    intro sc
    rw [runOn_bind]
    have h := hx sc
    rcases hr : runOn x sc with ⟨stop | a, sc₁⟩
    · rw [hr] at h
      exact h
    · rw [hr] at h
      exact (hf a (hQ _ _ _ hr) sc₁).trans h
  like h := of_events fun sc => (h sc).events
  initialized _ := rfl
  initializerPanicked _ := rfl
  modifyProcess _ _ := rfl
  modifyThread _ _ := rfl

theorem pure (a : α) : Silent (Pure.pure a : Storage α) := modular.pure a

theorem bind {x : Storage α} {f : α → Storage β} (hx : Silent x) (hf : ∀ a, Silent (f a)) :
    Silent (x >>= f) :=
  modular.bind hx hf

theorem ite {c : Prop} [Decidable c] {x y : Storage α} (hx : Silent x) (hy : Silent y) :
    Silent (if c then x else y) := by
  split
  · exact hx
  · exact hy

theorem modifyProcess (f : Process → Process) : Silent (Storage.modifyProcess f) := fun _ => rfl

theorem current? : Silent Storage.current? := by
  intro sc
  rw [runOn_current?]
  dsimp only
  split <;> rfl

theorem current : Silent Storage.current := by
  refine of_events fun sc => ?_
  rw [runOn_current]
  split
  · rfl
  · exact sc.like_makeBlank.symm.events

theorem discard : Silent Storage.discard := by
  intro sc
  rw [runOn_discard]
  dsimp only
  split <;> rfl

theorem adopt : Silent Storage.adopt := by
  refine of_events fun sc => ?_
  rw [runOn_adopt]
  split
  · rfl
  · rfl
  · exact sc.like_makeBlank.symm.events

theorem release : Silent Storage.release := fun _ => rfl

theorem putIn (v : Variable) (id : TableId) (value : Value) (fate : Fate) :
    Silent (v.putIn id value fate) := by
  refine of_events fun sc => ?_
  rcases hi : (sc.thread.table id).insert v.slot (.value value) with e | stored
  · rw [runOn_putIn_error sc hi]
  · obtain ⟨sc', hrun, hlike⟩ := ends_putIn sc fate hi
    rw [hrun]
    exact hlike.events

theorem declare (kind : Kind) (initial : Initializer) (hook : Option Hook) :
    Silent (ThreadSlots.declare kind initial hook) := by
  intro sc
  rw [runOn_declare]
  split <;> rfl

theorem duplicate (enter : Enter) (handle : Nat) :
    Silent (Command.run enter (.duplicate handle)) := by
  intro sc
  rw [runOn_duplicate]
  split <;> rfl

theorem newTable (name : String) (policy : Option SentinelPolicy) (raw : List (Nat × Value)) :
    Silent (TableCommand.run (.new name policy raw)) := by
  refine of_events fun sc => ?_
  obtain ⟨t, marks, news, names, -, hlike⟩ := exists_new sc name policy raw
  exact hlike.events

theorem burn (n : Nat) : Silent (ProcessCommand.run (.burn n)) := by
  refine bind modular.process fun p => bind (modifyProcess _) fun _ => ?_
  split
  · exact pure _
  · exact bind (modular.ofExcept _) fun _ => pure _

end Silent

/-- The action takes a course, and tells nested code of foreseen refusals only. -/
structure Tells {α : Type} (known : List Variable) (x : Storage α) : Prop where
  walks : Walks known x
  told : ∀ sc, sc.Able → (∀ v ∈ known, sc.process.Knows v) → sc.Told → (runOn x sc).2.Told

namespace Tells

variable {α β : Type} {known : List Variable}

theorem of_silent {x : Storage α} (hw : Walks known x) (hs : Silent x) : Tells known x :=
  ⟨hw, fun sc _ _ ht => ht.congr (hs sc)⟩

theorem weaken {x : Storage α} (h : Tells [] x) : Tells known x :=
  ⟨h.walks.weaken, fun sc hsc _ ht => h.told sc hsc (by simp) ht⟩

theorem modular : Modular (Tells known) where
  bind_of {_ _ _ x f} hx hQ hf := by
    refine ⟨Walks.modular.bind_of hx.walks hQ fun a ha => (hf a ha).walks, fun sc h hv ht => ?_⟩
    have hcourse := hx.walks [] sc h.sound hv
    have htold := hx.told sc h hv ht
    rw [runOn_bind]
    rcases hr : runOn x sc with ⟨stop | a, sc₁⟩
    all_goals rw [hr] at hcourse htold
    · exact htold
    · exact (hf a (hQ _ _ _ hr)).told sc₁ (h.course hcourse)
        (fun v hmem => hcourse.knows h.sound (hv v hmem)) htold
  like h := of_silent (Walks.modular.like h) (Silent.modular.like h)
  initialized := of_silent Walks.modular.initialized Silent.modular.initialized
  initializerPanicked := of_silent Walks.modular.initializerPanicked Silent.modular.initializerPanicked
  modifyProcess h := of_silent (Walks.modular.modifyProcess h) (Silent.modular.modifyProcess h)
  modifyThread h := of_silent (Walks.modular.modifyThread h) (Silent.modular.modifyThread h)

theorem pure (a : α) : Tells known (Pure.pure a : Storage α) := modular.pure a

theorem bind {x : Storage α} {f : α → Storage β} (hx : Tells known x)
    (hf : ∀ a, Tells known (f a)) : Tells known (x >>= f) :=
  modular.bind hx hf

theorem current? : Tells known Storage.current? := of_silent .current? .current?

theorem current : Tells known Storage.current := of_silent .current .current

/-! ## One variable -/

section

variable {v : Variable} (hv : v ∈ known) {enter : Enter} (henter : ∀ s, Tells [] (enter s))

include henter

theorem runHook (cell : Option Cell) : Tells known (v.runHook enter cell) :=
  modular.runHook (fun _ _ _ _ _ => weaken (henter _)) cell

/-- A hook is called in the scene to which a move has led. -/
theorem told_runHook (busy : List TableId) {sc sc' : Scene} (h : sc.Able) (ht : sc.Told)
    (hmove : Move busy sc sc') (hsteps : sc'.steps = sc.steps) (cell : Option Cell) :
    (runOn (v.runHook enter cell) sc').2.Told := by
  have hhook : Tells [] (v.runHook enter cell) := runHook henter cell
  exact hhook.told sc' (h.course (.of_move hmove)) (by simp) (ht.congr hsteps)

include hv

theorem removeIn (id : TableId) : Tells known (v.removeIn enter id) := by
  refine ⟨.removeIn hv (fun s => (henter s).walks) id, fun sc h hknown ht => ?_⟩
  rw [runOn_removeIn sc enter v id]
  exact told_runHook henter [] h ht (.remove (hknown v hv) id)
    (Scene.steps_handedOver ..) _

theorem storeIn (id : TableId) {entry : Option Value}
    (hkind : ∀ value ∈ entry, value.kind = v.kind) : Tells known (v.storeIn enter id entry) := by
  refine ⟨.storeIn hv (fun s => (henter s).walks) id hkind, fun sc h hknown ht => ?_⟩
  cases entry with
  | none =>
    rw [runOn_storeIn_none sc enter v id]
    split
    · exact ht
    · exact told_runHook henter [] h ht (.remove (hknown v hv) id)
        (Scene.steps_handedOver ..) _
  | some value =>
    rcases hi : (sc.thread.table id).insert v.slot (.value value) with e | stored
    · rw [runOn_storeIn_error sc enter hi]
      exact ht
    · obtain ⟨sc', hrun, hlike⟩ := ends_storeIn_some sc enter hi
      rw [hrun]
      exact ht.congr (congrArg (·.filterMap Event.step?) hlike.events)

theorem operates : Operates (Tells known) enter v where
  putIn id _ hkind fate hfate := of_silent (.putIn hv id hkind hfate) (.putIn v id _ fate)
  takeIn id := by
    refine ⟨.takeIn hv id, fun sc h hknown ht => ?_⟩
    rw [runOn_takeIn sc (h.sound.process.slot_ne (hknown v hv)) id]
    exact ht.congr rfl
  removeIn := removeIn hv henter
  storeIn := storeIn hv henter
  makeInitial := modular.makeInitial (fun _ _ => weaken (henter _))
    (of_silent (.of_quiet fun _ => .of_process (.of_eq rfl)) fun _ => rfl)

end

/-- A handle stands for a variable that the process knows. -/
theorem lookup_bind {handle : Nat} {f : Option Variable → Storage β} (hnone : Tells known (f none))
    (hsome : ∀ v, Tells (v :: known) (f (some v))) : Tells known (lookup handle >>= f) := by
  refine ⟨.lookup_bind hnone.walks fun v => (hsome v).walks, fun sc h hknown ht => ?_⟩
  rw [runOn_bind, runOn_lookup]
  rcases hv : sc.process.resolve? handle with _ | v
  · exact hnone.told sc h hknown ht
  · exact (hsome v).told sc h
      (List.forall_mem_cons.2 ⟨(h.sound.process.resolve?_eq_some.1 hv).2, hknown⟩) ht

section

variable {enter : Enter} (henter : ∀ s, Tells [] (enter s))

include henter

theorem accessHandle (handle : Nat) (place : Place) (op : Access) :
    Tells known (accessHandle enter handle place op) :=
  lookup_bind (pure _) fun _ =>
    modular.access (operates List.mem_cons_self henter) current current? place fun _ _ _ =>
      weaken (henter _)

/-! ## Clearing -/

theorem told_clearEach {id : TableId} {vs : List Variable} {sc : Scene} (h : sc.Able)
    (hvs : ∀ v ∈ vs, sc.process.Knows v) (ht : sc.Told) :
    (runOn (clearEach enter id vs) sc).2.Told := by
  induction vs generalizing sc with
  | nil => exact ht
  | cons v vs ih =>
    obtain ⟨hv, hvs⟩ := List.forall_mem_cons.1 hvs
    have hid : id ∈ [id] := List.mem_cons_self
    have hcourse := course_clear (fun s => (henter s).walks) hid h.sound hv
    have htold : (runOn (v.clear enter id) sc).2.Told := by
      rw [runOn_clear]
      exact told_runHook henter [id] h ht (.clear hv hid) (Scene.steps_handedOver ..) _
    unfold clearEach
    rw [runOn_bind]
    rcases hr : runOn (v.clear enter id) sc with ⟨stop | a, sc₁⟩
    all_goals rw [hr] at hcourse htold
    · exact htold
    · exact ih (h.course hcourse) (fun u hu => hcourse.knows h.sound (hvs u hu)) htold

theorem told_clearTable {sc : Scene} (h : sc.Able) (ht : sc.Told) :
    (runOn (clearTable enter) sc).2.Told := by
  rw [runOn_clearTable]
  have hunwatched : sc.unwatched.steps = sc.steps :=
    congrArg (·.filterMap Event.step?) sc.like_unwatched.events
  rcases sc.own? with _ | id
  · exact ht.congr hunwatched
  · have hcleared : (runOn (clearEach enter id (sc.thread.table id).listed) (sc.detached id)).2.Told :=
      told_clearEach henter (h.course (course_detached [] sc id)) (knows_detached h.sound id)
        (ht.congr hunwatched)
    dsimp only
    rcases hr : runOn (clearEach enter id (sc.thread.table id).listed) (sc.detached id)
      with ⟨stop | _, sc₁⟩
    all_goals
      rw [hr] at hcleared
      exact hcleared

theorem told_clearTable_then {x : Storage Unit} (hx : Silent x) {sc : Scene} (h : sc.Able)
    (ht : sc.Told) : (runOn (do if ← clearTable enter then x) sc).2.Told := by
  have hcleared := told_clearTable henter h ht
  rw [runOn_bind]
  rcases hr : runOn (clearTable enter) sc with ⟨stop | cleared, sc₁⟩
  all_goals rw [hr] at hcleared
  · exact hcleared
  · exact hcleared.congr ((hx.ite (.pure _)) sc₁)

theorem clearThread : Tells [] (ThreadSlots.clearThread enter) :=
  ⟨.clearThread fun s => (henter s).walks, fun _ h _ ht =>
    told_clearTable_then henter .discard h ht⟩

theorem clearAndRelease : Tells [] (ThreadSlots.clearAndRelease enter) :=
  ⟨.clearAndRelease fun s => (henter s).walks, fun _ h _ ht =>
    told_clearTable_then henter (.bind .release fun _ => .ite .discard (.pure _)) h ht⟩

theorem upkeep (op : Upkeep) : Tells [] (op.run enter) := by
  cases op with
  | clear => exact bind (clearThread henter) fun _ => pure _
  | destroy =>
    exact bind (of_silent (.of_quiet .destroyFallbacks) fun _ => rfl) fun _ => pure _
  | discard => exact bind (of_silent .discard .discard) fun _ => pure _
  | isCarrying => exact bind modular.isCarrying fun _ => pure _
  | liveCount => exact bind (modular.liveCount current?) fun _ => pure _
  | hasTable => exact bind current? fun _ => pure _
  | threadName => exact bind modular.thread fun _ => pure _
  | adopt name =>
    exact bind (of_silent .adopt .adopt) fun id => bind (modular.bindTable name id) fun _ =>
      bind modular.isCarrying fun _ => bind (modular.table id) fun _ => pure _
  | adoptSize =>
    exact bind (of_silent .adopt .adopt) fun id => bind modular.isCarrying fun _ =>
      bind (modular.table id) fun _ => pure _
  | release name =>
    refine bind (of_silent .release .release) fun id => ?_
    split
    · exact bind (modular.bindTable name _) fun _ => pure _
    · exact pure _

/-! ## Commands and scripts -/

theorem command (c : Command) : Tells [] (c.run enter) := by
  have hdeclare : ∀ kind initial hook, Tells [] (declare kind initial hook) :=
    fun kind initial hook =>
      of_silent (.of_quiet (.declare kind initial hook)) (.declare kind initial hook)
  cases c with
  | declare kind initial hook => exact bind (hdeclare kind initial hook) fun _ => pure _
  | declareRow n kind initial hook =>
    cases n with
    | zero => exact pure _
    | succ n => exact bind (modular.declareRow (hdeclare kind initial hook) n) fun _ => pure _
  | access handle place op => exact accessHandle henter handle place op
  | setRow first last factor =>
    exact modular.setRow first _ (fun handle _ _ op _ => accessHandle henter handle _ op) factor
  | getRow first last =>
    exact bind (modular.getRow first _ fun handle _ _ op _ => accessHandle henter handle _ op)
      fun _ => pure _
  | slotOf handle => exact modular.slotOf enter handle
  | describe handle => exact modular.describe enter handle
  | duplicate handle => exact of_silent (.of_quiet (.duplicate enter handle)) (.duplicate enter handle)
  | drop handle =>
    exact of_silent (.of_quiet (.drop enter handle)) (Silent.modular.drop enter (.modifyProcess _))
  | compare a b => exact modular.compare enter a b
  | onThread op => exact upkeep henter op
  | onTables op =>
    exact modular.tableCommand current current?
      (fun name policy raw => of_silent (.newTable name policy raw) (.newTable name policy raw)) op
  | onProcess op =>
    exact modular.processCommand (fun n => of_silent (.of_quiet (.burn n)) (.burn n)) op
  | onWatchers op => exact modular.watchCommand op

theorem perform (c : Command) : Tells [] (ThreadSlots.perform enter c) := by
  refine ⟨.perform (fun s => (henter s).walks) c, fun sc h hknown ht => ?_⟩
  rw [scene_perform]
  exact (command henter c).told sc h hknown ht

end

/-- A script does its next step in a scene that is as able to store values, with what it was told. -/
theorem script {depth : Nat} (hdepth : ∀ s, Tells [] (enter depth s)) :
    ∀ s : Script, Tells [] (s.run (enter depth))
  | .done result => pure result
  | .panic message => modular.panicWith message
  | .step name c next => by
    refine ⟨.script (fun s => (hdepth s).walks) _, fun sc h hknown ht => ?_⟩
    have hperform := perform hdepth c
    have htold := hperform.told sc h hknown ht
    unfold Script.run
    rw [runOn_bind, runOn_caught]
    rcases hr : runOn (ThreadSlots.perform (enter depth) c) sc with ⟨(e | message) | reply, sc₁⟩
    all_goals
      rw [hr] at htold
      have h₁ : sc₁.Able := h.walk hperform.walks hr
    · exact htold
    · exact (script hdepth (next (.error message))).told sc₁ h₁ (by simp) htold
    · have hemit : Walks [] (emit (.stepped name reply)) := .of_quiet (.emit rfl)
      have h₂ : (runOn (emit (.stepped name reply)) sc₁).2.Able := h₁.walk hemit rfl
      refine (script hdepth (next (.ok reply))).told _ h₂ (by simp) ?_
      exact List.forall_mem_cons.2 ⟨h.foreseen hr, htold⟩

end Tells

theorem tells_enter (depth : Nat) (s : Script) : Tells [] (enter depth s) := by
  induction depth generalizing s with
  | zero => exact .of_silent (walks_enter 0 s) fun _ => rfl
  | succ depth ih => exact Tells.script ih s

/-- **No command tells nested code of a refusal that is not foreseen.** -/
theorem tells_perform (depth : Nat) (c : Command) : Tells [] (perform (enter depth) c) :=
  Tells.perform (tells_enter depth) c

/-- Nor does the last clearing of a thread. -/
theorem tells_clearOnExit (kind : ThreadKind) (depth : Nat) : Tells [] (clearOnExit kind depth) := by
  unfold clearOnExit
  split
  · exact .clearAndRelease (tells_enter depth)
  · exact .pure _

end ThreadSlots
