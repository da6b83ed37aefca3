import ThreadSlots.Proofs.TrackedThreads

/-!
# Commands mind the death watch

Every command that leaves the death watch to itself keeps a scene that minds it (`minds_perform`),
with whatever nested code it runs, and whatever the workers do in between: they may take any number of
steps before and after each command of nested code (`amid`).
-/

namespace ThreadSlots

open Std (ExtTreeMap ExtTreeSet)
open Storage

/-! ## Workers while a thread is running -/

namespace Process

variable {p p' : Process}

theorem updateWatcher_watcher (p : Process) {i : Nat} (hi : i < p.watchers.size) :
    (p.updateWatcher i fun _ => p.watcher i) = p := by
  have hwatchers : p.watchers.modify i (fun _ => p.watcher i) = p.watchers := by
    apply Array.ext_getElem?
    intro k
    rw [Array.getElem?_modify]
    split
    · next hk =>
      subst hk
      simp [watcher, Array.getD_eq_getD_getElem?, hi]
    · rfl
  unfold updateWatcher
  rw [hwatchers]

theorem updateWatcher_updateWatcher (p : Process) (i : Nat) (w w' : Watcher Job) :
    ((p.updateWatcher i fun _ => w).updateWatcher i fun _ => w') =
      p.updateWatcher i fun _ => w' := by
  have hwatchers : (p.watchers.modify i fun _ => w).modify i (fun _ => w') =
      p.watchers.modify i fun _ => w' := by
    apply Array.ext_getElem?
    intro k
    simp only [Array.getElem?_modify]
    split
    · cases p.watchers[k]? <;> rfl
    · rfl
  unfold updateWatcher
  rw [hwatchers]

theorem updateWatcher_runJob (p : Process) (i : Nat) (f : Watcher Job → Watcher Job) (job : Job) :
    (p.runJob job).updateWatcher i f = (p.updateWatcher i f).runJob job := by
  cases job <;> rfl

theorem watchers_runJob (p : Process) (job : Job) : (p.runJob job).watchers = p.watchers := by
  cases job <;> rfl

/-- What the workers of a watcher do are worker steps of the process. -/
theorem workerSteps_of_works {i : Nat} {w w' : Watcher Job} {js : List Job} (hw : w.Works js w')
    (hi : i < p.watchers.size) (h : p.watcher i = w) :
    p.WorkerSteps (js.foldl runJob (p.updateWatcher i fun _ => w')) := by
  have hself : ∀ {q : Process}, i < q.watchers.size → ∀ w : Watcher Job,
      (q.updateWatcher i fun _ => w).watcher i = w ∧
        i < (q.updateWatcher i fun _ => w).watchers.size :=
    fun hq w => ⟨watcher_updateWatcher_self hq _, by simpa [updateWatcher] using hq⟩
  induction hw generalizing p with
  | refl w =>
    subst h
    rw [List.foldl_nil, updateWatcher_watcher p hi]
    exact .refl p
  | @take w w₁ w₂ js k ht _ ih =>
    obtain ⟨hw₁, hsize⟩ := hself hi w₁
    have hrest := ih hsize hw₁
    rw [updateWatcher_updateWatcher] at hrest
    exact .step (.take i k (by rw [h]; exact ht)) hrest
  | @run w w₁ w₂ job js k hr _ ih =>
    -- a job changes no watcher, so it may be run before or after the watcher is put in place
    obtain ⟨hw₁, hsize⟩ := hself hi w₁
    have hrest := @ih ((p.updateWatcher i fun _ => w₁).runJob job) (by rwa [watchers_runJob])
      (by unfold watcher; rw [watchers_runJob]; exact hw₁)
    rw [updateWatcher_runJob, updateWatcher_updateWatcher] at hrest
    exact .step (.run i k (by rw [h]; exact hr)) hrest
  | @exit w w₁ w₂ js k he _ ih =>
    obtain ⟨hw₁, hsize⟩ := hself hi w₁
    have hrest := ih hsize hw₁
    rw [updateWatcher_updateWatcher] at hrest
    exact .step (.exit i k (by rw [h]; exact he)) hrest

theorem size_settleWatcher (p : Process) (i : Nat) :
    (p.settleWatcher i).watchers.size = p.watchers.size := by
  have hfold : ∀ (js : List Job) (q : Process), (js.foldl runJob q).watchers = q.watchers := by
    intro js
    induction js with
    | nil => exact fun _ => rfl
    | cons job js ih => exact fun q => (ih _).trans (watchers_runJob q job)
  unfold settleWatcher
  rw [hfold]
  simp [updateWatcher]

theorem Vigilant.tidy (h : p.Vigilant) (i : Nat) : (p.watcher i).Tidy := by
  by_cases hi : i = deathWatcher
  · subst hi
    exact h.books.tidy
  · exact (h.others i hi).1

theorem Vigilant.addWatcher (h : p.Vigilant) (name : String) :
    Vigilant { p with
      watchers := p.watchers.push {}, watcherNames := (name, p.watchers.size) :: p.watcherNames } ∧
    ∀ t, p.Spares t { p with
      watchers := p.watchers.push {}
      watcherNames := (name, p.watchers.size) :: p.watcherNames } := by
  have hwatcher : ∀ i, watcher { p with
      watchers := p.watchers.push {}
      watcherNames := (name, p.watchers.size) :: p.watcherNames } i = p.watcher i := by
    intro i
    unfold watcher
    simp only [Array.getD_eq_getD_getElem?, Array.getElem?_push]
    split
    · next hi => simp [hi]
    · rfl
  refine ⟨⟨?_, ?_, fun i hi => ?_, fun n hn => ?_, h.deathWatch, h.callbacks⟩, fun t =>
    ⟨fun hc => ?_, fun _ ht => ht, id, fun _ hjob => by rwa [hwatcher] at hjob, Nat.le_refl _,
      Nat.le_refl _⟩⟩
  · simpa using Nat.lt_succ_of_lt h.watchers
  · rw [hwatcher]
    exact h.books
  · rw [hwatcher]
    exact h.others i hi
  · refine h.names n ?_
    rw [List.lookup_cons] at hn
    split at hn
    · -- the new watcher is not the death watch's, which is there already
      have hsize := h.watchers
      rw [Option.some.inj hn] at hsize
      exact absurd hsize (Nat.lt_irrefl _)
    · exact hn
  · unfold Calm
    rwa [hwatcher]

theorem Vigilant.settle (h : p.Vigilant) : p.WorkerSteps p.settle := by
  have hlist : ∀ l : List Nat, ∀ q : Process, q.Vigilant → (∀ i ∈ l, i < q.watchers.size) →
      q.WorkerSteps (l.foldl settleWatcher q) := by
    intro l
    induction l with
    | nil => exact fun q _ _ => .refl q
    | cons i l ih =>
      intro q hq hl
      have hone : q.WorkerSteps (q.settleWatcher i) :=
        workerSteps_of_works (hq.tidy i).works_settle (hl i List.mem_cons_self) rfl
      refine hone.trans (ih _ (hq.workerSteps hone).1 fun k hk => ?_)
      rw [size_settleWatcher]
      exact hl k (List.mem_cons_of_mem _ hk)
  exact hlist _ p h fun i hi => List.mem_range.1 hi

end Process

/-- The workers do what `pause` says. -/
def interlude (pause : Scene → Process) : Storage Unit :=
  modify fun sc => { sc with process := pause sc }

/-- A script, before and after each command of which there is an interlude. -/
def Script.runAmid (pause : Scene → Process) (enter : Enter) : Script → Storage (Option Value)
  | .done result => do
    interlude pause
    return result
  | .panic message => do
    interlude pause
    panicWith message
  | .step name command next => do
    interlude pause
    let answer ← caught (perform enter command)
    reportStep name answer
    Script.runAmid pause enter (next answer)

/-- Nested code that nests at most `depth` levels, with the workers at work in between. -/
def amid (pause : Scene → Process) : (depth : Nat) → Enter
  | 0 => fun _ => do
    emit .tooDeep
    return none
  | depth + 1 => Script.runAmid pause (amid pause depth)

theorem runAmid_idle (enter : Enter) : ∀ s : Script, s.runAmid (·.process) enter = s.run enter
  | .done _ => rfl
  | .panic _ => rfl
  | .step _ _ next => by
    unfold Script.runAmid Script.run
    simp only [runAmid_idle enter]
    rfl

/-- Without workers at work nested code runs as ever. -/
theorem amid_idle (depth : Nat) : amid (·.process) depth = enter depth := by
  induction depth with
  | zero => rfl
  | succ depth ih =>
    funext s
    unfold amid enter
    rw [ih]
    exact runAmid_idle _ s

/-! ## The bond -/

section

variable {p₀ : Process} {id : ThreadId}

theorem minds_process : Coupled (Diagonal (Scene.Minds p₀ id)) Eq process process :=
  .of_keeps fun _ h => h

theorem minds_read {α : Type} (f : Process → α) :
    Coupled (Diagonal (Scene.Minds p₀ id)) Eq (f <$> process) (f <$> process) :=
  .map minds_process fun _ _ hp => congrArg f hp

theorem minds_update {f : Process → Process}
    (hf : ∀ p : Process, p.Vigilant → (f p).Vigilant ∧ ∀ t, p.Spares t (f p)) :
    Coupled (Diagonal (Scene.Minds p₀ id)) Eq (modifyProcess f) (modifyProcess f) :=
  .of_keeps fun _ h => h.of_spares (hf _ h.process).1 (hf _ h.process).2

/-- A change of the process that the death watch does not depend on. -/
theorem minds_modifyProcess {f : Process → Process} (hf : ∀ p : Process, p.Beside (f p)) :
    Coupled (Diagonal (Scene.Minds p₀ id)) Eq (modifyProcess f) (modifyProcess f) :=
  minds_update fun p hp => ⟨(hf p).vigilant hp, (hf p).spares⟩

/-- Minding the death watch is kept by every step on the thread's own storage. -/
theorem minds_bond (p₀ : Process) (id : ThreadId) :
    OwnBond (·.Only Command.LeavesWatch) (Diagonal (Scene.Minds p₀ id)) where
  table := by
    rintro sc _ i _ ⟨rfl, h⟩ rfl
    exact ⟨rfl, h.thread.tracks i⟩
  setTable := by
    rintro sc _ i _ ⟨rfl, h⟩ rfl t ht
    exact ⟨rfl, h.setTable ht⟩
  emit := by
    rintro sc _ ⟨rfl, h⟩ e
    exact ⟨rfl, h.beside .of_events⟩
  part := by
    rintro sc _ i _ ⟨rfl, h⟩ rfl slot value fate
    exact ⟨rfl, h.beside .of_events⟩
  arrive := by
    rintro sc _ i _ ⟨rfl, h⟩ rfl slot value
    exact ⟨rfl, h.beside .of_events⟩
  count := by
    rintro sc _ ⟨rfl, h⟩ c _
    exact ⟨rfl, h.beside (.of_process (Process.beside_count _ c))⟩
  ensureLiveSet := by
    rintro i _ rfl
    exact (Coupled.of_keeps fun sc h => h.ensureLiveSet i).mono fun _ _ _ => trivial
  draw := by
    intro v _
    refine .bind minds_process fun p _ hp => ?_
    subst hp
    exact .bind (minds_modifyProcess fun _ => .of_eq rfl) fun _ _ _ => .pure rfl
  lookup := by
    rintro handle sc _ ⟨rfl, h⟩
    refine ⟨.ok ⟨rfl, fun v hv => ?_⟩, rfl, h⟩
    obtain ⟨slot, -, hv⟩ := Option.bind_eq_some_iff.1 hv
    exact h.process.callbacks slot v hv
  current := .of_keeps fun sc h => h.current
  carried? := .of_keeps fun sc h => h.carried?
  current? := (Coupled.of_keeps fun sc h => h.current?).mono fun a _ h => h ▸ OwnBond.optionRel a
  thread := by
    rintro sc _ ⟨rfl, _⟩
    exact ⟨rfl, rfl, rfl⟩
  rename := by
    rintro sc _ ⟨rfl, h⟩ f
    exact ⟨rfl, h.beside ⟨.of_eq rfl, rfl, rfl, rfl, rfl⟩⟩
  fill := by
    rintro sc _ ⟨rfl, h⟩ id
    exact ⟨rfl, h.beside ⟨.of_eq rfl, rfl, rfl, rfl, rfl⟩⟩
  settings := .of_keeps fun sc h => by
    rw [runOn_settings]
    exact h.beside (.of_process (.of_eq rfl))
  newTable policy := .of_keeps fun sc h =>
    (h.makeTable policy).beside ⟨.of_eq rfl, rfl, rfl, rfl, rfl⟩
  adopt := .of_keeps fun sc h => h.adopt
  release := .of_keeps fun sc h => h.release
  discard := (Coupled.of_keeps fun sc h => h.discard).mono fun _ _ _ => trivial
  interrupt := by
    rintro sc _ ⟨rfl, h⟩
    exact ⟨rfl, h.beside ⟨.of_eq rfl, rfl, rfl, rfl, rfl⟩⟩
  detach := by
    rintro sc _ ⟨rfl, h⟩
    exact ⟨rfl, fun ho => ⟨rfl, h.unwatched ho⟩, fun i ho => ⟨rfl, h.detached ho⟩⟩

/-! ## Declarations -/

theorem minds_takeSlot : Coupled (Diagonal (Scene.Minds p₀ id)) Eq takeSlot takeSlot := by
  refine .bind minds_process fun p _ hp => ?_
  subst hp
  rcases p.supply.take with ⟨answer, supply⟩
  refine .bind (.ofExcept answer) fun slot _ hs => ?_
  subst hs
  exact .bind (minds_modifyProcess fun _ => .of_eq rfl) fun _ _ _ =>
    .bind (minds_modifyProcess fun _ => .of_eq rfl) fun _ _ _ => .pure rfl

theorem minds_takeHandle : Coupled (Diagonal (Scene.Minds p₀ id)) Eq takeHandle takeHandle := by
  refine .bind minds_process fun p _ hp => ?_
  subst hp
  exact .bind (minds_modifyProcess fun _ => .of_eq rfl) fun _ _ _ => .pure rfl

theorem minds_bindHandle (handle slot : Nat) :
    Coupled (Diagonal (Scene.Minds p₀ id)) Eq (bindHandle handle slot) (bindHandle handle slot) :=
  minds_modifyProcess fun _ => .of_eq rfl

theorem minds_enroll {variableAt : Nat → Variable}
    (hv : ∀ slot, (variableAt slot).Only Command.LeavesWatch) :
    Coupled (Diagonal (Scene.Minds p₀ id)) Eq (enroll variableAt) (enroll variableAt) := by
  refine .bind minds_takeSlot fun slot _ hs => ?_
  subst hs
  refine .bind (minds_update fun p hp => ?_) fun _ _ _ => .pure rfl
  refine ⟨⟨hp.watchers, hp.books, hp.others, hp.names, hp.deathWatch, fun s v hget => ?_⟩, fun t =>
    ⟨fun hc => hc, fun _ ht => ht, fun ht => ht, fun _ hjob => hjob, Nat.le_refl _, Nat.le_refl _⟩⟩
  simp only [ExtTreeMap.getElem?_insert] at hget
  split at hget
  · cases hget
    exact hv slot
  · exact hp.callbacks s v hget

theorem minds_declare (kind : Kind) {initial : Initializer} {hook : Option Hook}
    (hcalled : ∀ s, CalledBack initial hook s → s.Only Command.LeavesWatch) :
    Coupled (Diagonal (Scene.Minds p₀ id)) Eq (declare kind initial hook)
      (declare kind initial hook) := by
  have hmade (handle slot : Nat) :
      Variable.Only Command.LeavesWatch ⟨slot, handle, kind, initial, hook⟩ := hcalled
  exact coupled_declare minds_takeHandle
    (fun handle => (minds_enroll (hmade handle)).mono fun _ _ hv => by rw [hv]) minds_bindHandle

/-! ## The process and the watchers -/

theorem minds_processCommand {op : ProcessCommand} (hop : Command.LeavesWatch (.onProcess op)) :
    Coupled (Diagonal (Scene.Minds p₀ id)) Eq op.run op.run := by
  have hsettings := (minds_bond p₀ id).settings
  cases op with
  | tally => exact minds_read _
  | supply => exact minds_read _
  | burn n =>
    refine .bind minds_process fun p _ hp => ?_
    subst hp
    refine .bind (minds_modifyProcess fun _ => .of_eq rfl) fun _ _ _ => ?_
    rcases p.supply.takeLast n with ⟨_ | answer, supply⟩
    · exact .pure rfl
    · exact .bind (.ofExcept answer) fun _ _ hn => .pure (by rw [hn])
  | settings => exact .bind hsettings fun _ _ hc => .pure (by rw [hc])
  | policy => exact .bind hsettings fun _ _ hc => .pure (by rw [hc])
  | environmentSettings => exact minds_read _
  | install c =>
    refine .bind minds_process fun p _ hp => ?_
    subst hp
    rcases p.settings with _ | installed
    · refine .bind (minds_update fun p hp => ⟨?_, fun t => ?_⟩) fun _ _ _ => .pure rfl
      · exact ⟨hp.watchers, hp.books, hp.others, hp.names, hop, hp.callbacks⟩
      · exact ⟨fun hc => hc, fun _ ht => ht, fun ht => ht, fun _ hjob => hjob, Nat.le_refl _,
          Nat.le_refl _⟩
    · exact .pure rfl

theorem minds_awaitWorkers : Coupled (Diagonal (Scene.Minds p₀ id)) Eq awaitWorkers awaitWorkers :=
  minds_update fun _ hp => hp.workerSteps hp.settle

theorem minds_watch {i : Nat} (hi : i ≠ deathWatcher) (label : String) (panics : Bool) :
    Coupled (Diagonal (Scene.Minds p₀ id)) Eq (watch i (.record label panics))
      (watch i (.record label panics)) := by
  refine .of_keeps fun sc h => ?_
  by_cases hd : sc.thread.sentinel = .destroyed
  · rw [runOn_watch_destroyed hd]
    exact h.beside (.of_process (.of_eq rfl))
  · rw [runOn_watch hd]
    obtain ⟨hv, hs⟩ := h.process.updateOther hi fun w hw => hw.watch sc.thread.id label panics
    obtain ⟨⟨hprocess, hthread, hsame, hspares, hrenews⟩, hlisted⟩ := h.of_spares hv hs
    exact ⟨⟨hprocess, ⟨hthread.known, hthread.exclusive, fun _ => hthread.calm hd,
      hthread.tracks⟩, hsame, hspares, hrenews⟩, fun _ => hlisted hd⟩

theorem minds_bind_watcher (name : String) {f : Nat → Storage Reply}
    (hf : ∀ i, (i = deathWatcher → name = globalName) →
      Coupled (Diagonal (Scene.Minds p₀ id)) Eq (f i) (f i)) :
    Coupled (Diagonal (Scene.Minds p₀ id)) Eq
      (do
        let some i := (← process).watcherNames.lookup name | return .noWatcher
        f i)
      (do
        let some i := (← process).watcherNames.lookup name | return .noWatcher
        f i) := by
  refine .of_keeps fun sc h => ?_
  simp only [runOn_bind, runOn_process]
  cases hl : sc.process.watcherNames.lookup name with
  | none => exact h
  | some i =>
    refine (hf i fun hi => ?_).keeps h
    subst hi
    exact h.process.names name hl

theorem minds_watchCommand {op : WatchCommand} (hop : Command.LeavesWatch (.onWatchers op)) :
    Coupled (Diagonal (Scene.Minds p₀ id)) Eq op.run op.run := by
  cases op with
  | trackedThreads => exact minds_read _
  | awaitTracked n => exact .bind minds_awaitWorkers fun _ _ _ => minds_read _
  | new name => exact .bind (minds_update fun p hp => hp.addWatcher name) fun _ _ _ => .pure rfl
  | watch name label panics =>
    refine minds_bind_watcher name fun i hi => ?_
    exact .bind (minds_watch (fun hd => hop (hi hd)) label panics) fun _ _ _ => .pure rfl
  | unwatch name target =>
    refine minds_bind_watcher name fun i hi => ?_
    cases target
    -- both ways of naming the thread come to an identity, if to any
    case' none => refine .bind (V := Eq) (.of_keeps fun _ h => h) fun t _ ht => ?_
    case' some => refine .bind minds_process fun t _ ht => ?_
    all_goals
      subst ht
      refine .bind (V := Eq) (.pure rfl) fun id _ hid => ?_
      subst hid
      cases id with
      | none => exact .pure rfl
      | some t =>
        refine .bind (minds_update fun p hp => ?_) fun _ _ _ => .pure rfl
        exact hp.updateOther (fun hd => hop (hi hd)) fun w hw => hw.unwatch t
  | count name => exact minds_bind_watcher name fun i _ => minds_read _
  | isActive name => exact minds_bind_watcher name fun i _ => minds_read _
  | await name limited =>
    exact minds_bind_watcher name fun i _ => .bind minds_awaitWorkers fun _ _ _ => minds_read _
  | jobs =>
    refine .bind minds_process fun p _ hp => ?_
    subst hp
    exact .bind (minds_modifyProcess fun _ => .of_eq rfl) fun _ _ _ => .pure rfl

/-! ## Commands and scripts -/

theorem minds_command (enter : Enter)
    (henter : ∀ s : Script, s.Only Command.LeavesWatch →
      Coupled (Diagonal (Scene.Minds p₀ id)) Eq (enter s) (enter s))
    (c : Command) (hc : Command.Only Command.LeavesWatch c) :
    Coupled (Diagonal (Scene.Minds p₀ id)) Eq (c.run enter) (c.run enter) := by
  have hlocal : c.IsLocal → Coupled (Diagonal (Scene.Minds p₀ id)) Eq (c.run enter) (c.run enter) :=
    fun hl => OwnBond.command henter (fun _ hv => hv) (minds_bond p₀ id) hl hc
  cases c with
  | access | setRow | getRow | slotOf | describe | compare | onTables => exact hlocal trivial
  | onThread op =>
    by_cases hop : op = .destroy
    · subst hop
      exact .bind (.bind (minds_modifyProcess fun _ => .of_eq rfl) fun _ _ _ =>
        minds_modifyProcess fun _ => .of_eq rfl) fun _ _ _ => .pure rfl
    · exact hlocal hop
  | declare kind initial hook =>
    exact .bind (minds_declare kind fun s hs => hc.nested (.declare kind hs)) fun _ _ hm =>
      .pure (by rw [hm])
  | declareRow n kind initial hook =>
    cases n with
    | zero => exact .pure rfl
    | succ m =>
      exact .bind (coupled_declareRow (minds_declare kind fun s hs =>
        hc.nested (.declareRow (m + 1) kind hs)) m) fun _ _ hm => .pure (by rw [hm])
  | duplicate handle =>
    refine (minds_bond p₀ id).bind_lookup handle fun v => ?_
    cases v with
    | none => exact .pure rfl
    | some v =>
      refine .bind minds_takeHandle fun copy _ hcopy => ?_
      subst hcopy
      exact .bind (minds_bindHandle copy v.slot) fun _ _ _ => .pure rfl
  | drop handle =>
    refine (minds_bond p₀ id).bind_lookup handle fun v => ?_
    exact .bind (minds_modifyProcess fun _ => .of_eq rfl) fun _ _ _ => .pure rfl
  | onProcess op => exact minds_processCommand hc.holds
  | onWatchers op => exact minds_watchCommand hc.holds

variable {pause : Scene → Process} (hpause : ∀ sc : Scene, sc.process.WorkerSteps (pause sc))

include hpause

theorem minds_interlude :
    Coupled (Diagonal (Scene.Minds p₀ id)) Eq (interlude pause) (interlude pause) :=
  .of_keeps fun sc h => by
    obtain ⟨hv, hs⟩ := h.process.workerSteps (hpause sc)
    exact h.of_spares hv hs

theorem minds_runAmid {enter : Enter}
    (hperform : ∀ c, Command.Only Command.LeavesWatch c →
      Coupled (Diagonal (Scene.Minds p₀ id)) Eq (perform enter c) (perform enter c)) :
    ∀ s : Script, s.Only Command.LeavesWatch → Coupled (Diagonal (Scene.Minds p₀ id)) Eq
      (s.runAmid pause enter) (s.runAmid pause enter)
  | .done _, _ => .bind (minds_interlude hpause) fun _ _ _ => .pure rfl
  | .panic _, _ => .bind (minds_interlude hpause) fun _ _ _ => .throw _
  | .step name c next, hs => by
    cases hs with
    | step _ hc hnext =>
      refine .bind (minds_interlude hpause) fun _ _ _ =>
        .bind (coupled_caught (hperform c hc)) fun answer _ hanswer => ?_
      subst hanswer
      exact .bind (coupled_reportStep (minds_bond p₀ id).emit_event name answer) fun _ _ _ =>
        minds_runAmid hperform (next answer) (hnext answer)

theorem minds_amid (depth : Nat) {s : Script} (hs : s.Only Command.LeavesWatch) :
    Coupled (Diagonal (Scene.Minds p₀ id)) Eq (amid pause depth s) (amid pause depth s) := by
  induction depth generalizing s with
  | zero => exact .bind ((minds_bond p₀ id).emit_event _) fun _ _ _ => .pure rfl
  | succ depth ih =>
    exact minds_runAmid hpause (fun c hc => coupled_perform (minds_command _ (fun _ => ih) c hc)) s hs

/-- **A command minds the death watch**, whatever nested code and the workers do meanwhile. -/
theorem minds_perform (depth : Nat) {c : Command} (hc : Command.Only Command.LeavesWatch c) :
    Coupled (Diagonal (Scene.Minds p₀ id)) Eq (perform (amid pause depth) c)
      (perform (amid pause depth) c) :=
  coupled_perform (minds_command _ (fun _ => minds_amid hpause depth) c hc)

theorem minds_clearAndRelease (depth : Nat) :
    Coupled (Diagonal (Scene.Minds p₀ id)) (fun _ _ => True) (clearAndRelease (amid pause depth))
      (clearAndRelease (amid pause depth)) :=
  OwnBond.clearAndRelease (fun _ => minds_amid hpause depth) (fun _ hv => hv) (minds_bond p₀ id)

end

end ThreadSlots
