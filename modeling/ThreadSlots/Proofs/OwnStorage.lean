import ThreadSlots.Proofs.Agreement
import ThreadSlots.Proofs.LocalCommands

/-!
# The storage of a thread in two processes

Threads share a process, but as long as its variables stay as they are and no fallback tables are
invalidated, a thread's storage is its own. `Scene.Same` relates two scenes in which a thread has the
same storage, whoever else is there. Local commands keep it (`same_bond`, `same_perform`), also when a
thread starts and ends; and both processes stay as they are as far as any thread depends on it.
-/

namespace ThreadSlots

open Storage

/-! ## Scenes that a thread cannot tell apart -/

/-- What the variable calls back concerns the calling thread alone. Its initializer may depend on what
its nested code found there, but not on how often any thread has called it. -/
structure Variable.Private (v : Variable) : Prop where
  callbacks : v.Only Command.IsLocal
  uncounted : ∀ n m, v.initial.outcome m = v.initial.outcome n

/-- All variables of the process are private. -/
def Process.Private (p : Process) : Prop :=
  ∀ (slot : Nat) (v : Variable), p.bySlot[slot]? = some v → v.Private

/-- The processes have the same variables, the same epoch and the same settings. -/
structure Process.Shares (p p' : Process) : Prop where
  slots : p'.bySlot = p.bySlot
  handles : p'.byHandle = p.byHandle
  epoch : p'.epoch = p.epoch
  settings : p'.inEffect = p.inEffect

/-- The threads have the same storage. -/
def Thread.Same (t t' : Thread) : Prop :=
  ∃ id sentinel, t' = { t with id := id, sentinel := sentinel }

/-- A thread has the same storage in both scenes, and both processes are as good as `p`. -/
structure Scene.Same (p : Process) (sc sc' : Scene) : Prop where
  left : p.Shares sc.process
  right : p.Shares sc'.process
  thread : sc.thread.Same sc'.thread
  events : sc'.events = sc.events
  partings : sc'.partings = sc.partings
  tracks : ∀ i, (sc.thread.table i).Tracks Variable.Private

theorem Process.Shares.refl (p : Process) : p.Shares p := ⟨rfl, rfl, rfl, rfl⟩

theorem Process.Shares.trans {p q r : Process} (h : p.Shares q) (h' : q.Shares r) : p.Shares r :=
  ⟨h'.slots.trans h.slots, h'.handles.trans h.handles, h'.epoch.trans h.epoch,
    h'.settings.trans h.settings⟩

theorem Process.Shares.of_stripped {p q : Process} (h : q.stripped = p.stripped) : p.Shares q :=
  ⟨congrArg (·.bySlot) h, congrArg (·.byHandle) h, congrArg (·.epoch) h, congrArg (·.inEffect) h⟩

theorem Thread.Same.refl (t : Thread) : t.Same t := ⟨t.id, t.sentinel, rfl⟩

namespace Scene.Same

variable {p q q' : Process} {sc sc' s s' : Scene}

theorem thread_table (h : Same p sc sc') (i : TableId) : sc'.thread.table i = sc.thread.table i := by
  obtain ⟨id, sentinel, ht⟩ := h.thread
  rw [ht]
  rfl

theorem own? (h : Same p sc sc') : sc'.own? = sc.own? := by
  obtain ⟨id, sentinel, ht⟩ := h.thread
  unfold Scene.own?
  rw [ht, h.right.epoch, h.left.epoch]
  rfl

theorem epoch (h : Same p sc sc') : sc'.process.epoch = sc.process.epoch := by
  rw [h.right.epoch, h.left.epoch]

theorem carried? (h : Same p sc sc') : sc'.thread.carried? = sc.thread.carried? := by
  obtain ⟨id, sentinel, ht⟩ := h.thread
  rw [ht]
  rfl

theorem blankTable (h : Same p sc sc') : sc'.blankTable = sc.blankTable := by
  unfold Scene.blankTable
  rw [h.right.settings, h.left.settings]

theorem of_process (h : Same p sc sc') (hl : sc.process.Shares q) (hr : sc'.process.Shares q') :
    Same p { sc with process := q } { sc' with process := q' } :=
  ⟨h.left.trans hl, h.right.trans hr, h.thread, h.events, h.partings, h.tracks⟩

theorem like (h : Same p sc sc') (hl : sc.Like s) (hr : sc'.Like s') : Same p s s' := by
  refine ⟨h.left.trans (.of_stripped hl.process), h.right.trans (.of_stripped hr.process), ?_, ?_, ?_,
    fun i => ?_⟩
  · obtain ⟨id, sentinel, ht⟩ := h.thread
    have h₁ := hl.thread
    have h₂ := hr.thread
    rw [ht] at h₂
    refine ⟨s'.thread.id, s'.thread.sentinel, ?_⟩
    rcases hs : s.thread with ⟨⟨_⟩, _⟩
    rcases hs' : s'.thread with ⟨⟨_⟩, _⟩
    simp only [hs, hs', Thread.mk.injEq, Thread.State.mk.injEq] at h₁ h₂ ⊢
    simp [h₁, h₂]
  · rw [hr.events, h.events, hl.events]
  · rw [hr.partings, h.partings, hl.partings]
  · rw [hl.thread_table]
    exact h.tracks i

/-- The same is done to the thread on both sides. -/
theorem modify (h : Same p sc sc') {f : Thread → Thread}
    (hf : ∀ t id sentinel, f { t with id := id, sentinel := sentinel } =
      { f t with id := id, sentinel := sentinel })
    (ht : ∀ i, ((f sc.thread).table i).Tracks Variable.Private) :
    Same p { sc with thread := f sc.thread } { sc' with thread := f sc'.thread } := by
  obtain ⟨id, sentinel, hsame⟩ := h.thread
  exact ⟨h.left, h.right, ⟨id, sentinel, by rw [hsame, hf]⟩, h.events, h.partings, ht⟩

theorem setTable (h : Same p sc sc') (i : TableId) {t : SlotTable}
    (ht : t.Tracks Variable.Private) : Same p (sc.setTable i t) (sc'.setTable i t) :=
  h.modify (f := fun u => { u with tables := u.tables.insert i t }) (fun _ _ _ => rfl) fun k => by
    have hk := table_setTable sc i t k
    change Table.Tracks _ ((sc.setTable i t).thread.table k)
    rw [hk]
    split
    · exact ht
    · exact h.tracks k

theorem mapLocals (h : Same p sc sc') (f : Locals → Locals) :
    Same p (sc.setLocals (f sc.thread.locals)) (sc'.setLocals (f sc'.thread.locals)) :=
  h.modify (f := fun t => { t with locals := f t.locals }) (fun _ _ _ => rfl) h.tracks

theorem reached (h : Same p sc sc') : Same p sc.reached sc'.reached := h.mapLocals Locals.reached

theorem dropFallback (h : Same p sc sc') : Same p sc.dropFallback sc'.dropFallback :=
  h.mapLocals Locals.emptied

theorem keep (h : Same p sc sc') (i : TableId) : Same p (sc.keep i) (sc'.keep i) := by
  unfold Scene.keep
  rw [h.epoch]
  exact h.mapLocals (·.emptied.setFallback (some ⟨sc.process.epoch, i⟩))

theorem carry (h : Same p sc sc') (i : TableId) : Same p (sc.carry i) (sc'.carry i) :=
  h.mapLocals (·.emptied.setCarried (some i))

theorem makeTable (h : Same p sc sc') (policy : SentinelPolicy) :
    Same p (sc.makeTable { policy := policy }) (sc'.makeTable { policy := policy }) :=
  h.modify (f := fun t =>
      { t with
        tables := t.tables.insert t.nextTable { policy := policy }
        nextTable := t.nextTable + 1 })
    (fun _ _ _ => rfl) fun k => by
      have hk := sc.table_makeTable { policy := policy } k
      change Table.Tracks _ ((sc.makeTable _).thread.table k)
      rw [hk]
      split
      · exact .blank policy
      · exact h.tracks k

theorem makeBlank (h : Same p sc sc') : Same p sc.makeBlank sc'.makeBlank := by
  have hmade := h.makeTable sc.process.inEffect.sentinelPolicy
  refine hmade.like sc.like_makeBlank.symm ?_
  have hblank : sc'.blankTable = { policy := sc.process.inEffect.sentinelPolicy } := h.blankTable
  rw [← hblank]
  exact sc'.like_makeBlank.symm

theorem nextTable (h : Same p sc sc') : sc'.thread.nextTable = sc.thread.nextTable := by
  obtain ⟨id, sentinel, ht⟩ := h.thread
  rw [ht]

end Scene.Same

/-- What a thread has for itself stays the same on both sides, step by step. -/
theorem same_bond {p : Process} (hp : p.Private) : OwnBond Variable.Private (Scene.Same p) where
  table := by
    rintro sc sc' i _ h rfl
    exact ⟨h.thread_table i, h.tracks i⟩
  setTable := by
    rintro sc sc' i _ h rfl t ht
    exact h.setTable i (ht.tracks (h.tracks i))
  emit := by
    intro sc sc' h e
    exact ⟨h.left, h.right, h.thread, congrArg (e :: ·) h.events, h.partings, h.tracks⟩
  part := by
    rintro sc sc' i _ h rfl slot value fate
    exact ⟨h.left, h.right, h.thread, h.events, congrArg (.left i slot value fate :: ·) h.partings,
      h.tracks⟩
  arrive := by
    rintro sc sc' i _ h rfl slot value
    exact ⟨h.left, h.right, h.thread, h.events, h.partings, h.tracks⟩
  count := by
    intro sc sc' h c hc
    exact h.like (.count sc hc) (.count sc' hc)
  ensureLiveSet := by
    rintro i _ rfl
    exact coupled_ensureLiveSet (fun h => h.thread_table i) (fun h _ => h.setTable i)
      fun h => h.like
  draw := by
    intro v hv sc sc' h
    refine ⟨.ok (hv.uncounted _ _), h.of_process ?_ ?_⟩
    all_goals exact ⟨rfl, rfl, rfl, rfl⟩
  lookup := by
    intro handle
    refine .read (fun _ => rfl) (fun _ => rfl) fun sc sc' h => ?_
    rw [h.right.handles, h.right.slots, h.left.handles, h.left.slots]
    refine ⟨rfl, fun v hv => ?_⟩
    obtain ⟨slot, -, hv⟩ := Option.bind_eq_some_iff.1 hv
    exact hp slot v hv
  current := by
    intro sc sc' h
    rw [runOn_current, runOn_current, h.own?]
    cases sc.own? with
    | some i => exact ⟨.ok rfl, h.reached⟩
    | none =>
      rw [h.nextTable]
      exact ⟨.ok rfl, h.makeBlank.keep _⟩
  current? := by
    intro sc sc' h
    rw [runOn_current?, runOn_current?, h.own?]
    refine ⟨.ok (OwnBond.optionRel _), ?_⟩
    dsimp only
    split
    · exact h.reached
    · exact h.dropFallback
  thread := by
    intro sc sc' h
    obtain ⟨id, sentinel, ht⟩ := h.thread
    rw [ht]
    exact ⟨rfl, rfl, rfl⟩
  carried? := by
    intro sc sc' h
    rw [runOn_carried?, runOn_carried?, h.carried?]
    exact ⟨.ok rfl, h.mapLocals Locals.useCarried⟩
  rename := by
    intro sc sc' h f
    exact h.modify (f := fun t => { t with names := f t.names }) (fun _ _ _ => rfl) h.tracks
  fill := by
    intro sc sc' h id
    exact h.modify (f := fun t => { t with filled := id :: t.filled }) (fun _ _ _ => rfl) h.tracks
  settings := by
    intro sc sc' h
    rw [runOn_settings, runOn_settings]
    refine ⟨.ok ?_, h.like (.settled sc) (.settled sc')⟩
    rw [h.left.settings, h.right.settings]
  newTable := by
    intro policy sc sc' h
    rw [runOn_newTable, runOn_newTable]
    refine ⟨.ok h.nextTable.symm, (h.makeTable policy).of_process ?_ ?_⟩
    all_goals exact .of_stripped (Process.stripped_count _ (by decide))
  adopt := by
    intro sc sc' h
    rw [runOn_adopt, runOn_adopt, h.carried?, h.own?]
    cases sc.thread.carried? with
    | some i => exact ⟨.ok rfl, h⟩
    | none =>
      cases sc.own? with
      | some i => exact ⟨.ok rfl, h.carry i⟩
      | none =>
        rw [h.nextTable]
        exact ⟨.ok rfl, h.makeBlank.carry _⟩
  release := by
    intro sc sc' h
    rw [runOn_release, runOn_release, h.carried?]
    exact ⟨.ok rfl, h.mapLocals (·.useCarried.setCarried none)⟩
  discard := by
    intro sc sc' h
    rw [runOn_discard, runOn_discard, h.carried?, h.blankTable]
    cases sc.thread.carried? with
    | none => exact ⟨.ok trivial, h.dropFallback⟩
    | some i =>
      have hcount : ∀ q : Process, q.Shares (q.count .tablesCreated).settled := fun q =>
        .of_stripped (Process.stripped_count q (by decide))
      have hblank := (h.setTable i (t := sc.blankTable) (.blank _)).of_process
        (hcount sc.process) (hcount sc'.process)
      exact ⟨.ok trivial, hblank.left, hblank.right, hblank.thread, hblank.events,
        congrArg (.emptied i :: ·) hblank.partings, hblank.tracks⟩
  interrupt := by
    intro sc sc' h
    exact h.modify (f := fun t => { t with interrupted := true }) (fun _ _ _ => rfl) h.tracks
  detach := by
    intro sc sc' h
    have hunwatched := h.like sc.like_unwatched sc'.like_unwatched
    refine ⟨h.own?, fun _ => hunwatched.dropFallback, fun i _ => ?_⟩
    unfold Scene.detached
    rw [h.thread_table]
    exact hunwatched.reached.setTable i ((Table.Follows.erase reservedSlot).tracks (h.tracks i))

/-! ## Actions -/

/-- The thread-locals are the same on both sides, so the same ones are destroyed. -/
theorem Scene.Same.unwind {p : Process} {sc sc' : Scene} (h : Same p sc sc') (n : Nat) :
    Same p (sc.unwind n) (sc'.unwind n) := by
  obtain ⟨id, sentinel, ht⟩ := h.thread
  refine ⟨h.left.trans (.of_stripped (sc.stripped_unwind n)),
    h.right.trans (.of_stripped (sc'.stripped_unwind n)), ⟨id, sentinel.unwound n, ?_⟩, ?_, ?_,
    fun i => ?_⟩
  all_goals simp only [Scene.unwind_eq, ht]
  · exact h.events
  · exact h.partings
  · exact h.tracks i

section

variable {p : Process} (hp : p.Private)

include hp

theorem same_enter (depth : Nat) (s : Script) (hs : s.Only Command.IsLocal) :
    Coupled (Scene.Same p) Eq (enter depth s) (enter depth s) := by
  refine coupled_enter (same_bond hp).emit_event (fun enter henter c hc => ?_) depth hs
  exact OwnBond.command henter (fun _ hv => hv.callbacks) (same_bond hp) hc.holds hc

theorem same_perform (depth : Nat) {c : Command} (hc : Command.Only Command.IsLocal c) :
    Coupled (Scene.Same p) Eq (perform (enter depth) c) (perform (enter depth) c) :=
  coupled_perform (OwnBond.command (same_enter hp depth) (fun _ hv => hv.callbacks) (same_bond hp)
    hc.holds hc)

theorem same_clearOnExit (kind : ThreadKind) (depth : Nat) :
    Coupled (Scene.Same p) Eq (clearOnExit kind depth) (clearOnExit kind depth) := by
  have hclear := OwnBond.clearAndRelease (same_enter hp depth) (fun _ hv => hv.callbacks)
    (same_bond hp)
  exact .ite (hclear.mono fun _ _ _ => rfl) (.pure rfl)

theorem same_runDestructors (depth : Nat) {late : List Late}
    (hlate : ∀ code ∈ late, ∀ c ∈ code.commands, Command.Only Command.IsLocal c)
    {sc sc' : Scene} (h : Scene.Same p sc sc') :
    (Session.runDestructors depth sc' late).1 = (Session.runDestructors depth sc late).1 ∧
      Scene.Same p (Session.runDestructors depth sc late).2
        (Session.runDestructors depth sc' late).2 :=
  coupled_runDestructors depth (fun code hcode c hc => same_perform hp depth (hlate code hcode c hc))
    Scene.Same.unwind h

end

theorem Scene.Same.settle {p : Process} {sc sc' : Scene} (h : Same p sc sc') :
    Same p { sc with process := sc.process.settle } { sc' with process := sc'.process.settle } :=
  h.like (.settle sc) (.settle sc')

end ThreadSlots
