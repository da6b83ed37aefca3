import ThreadSlots.Proofs.Coupling

/-!
# What a thread does with what it shares

Handles and slots are given out, settings are read and threads are watched without regard for the
variables that there are and for what has happened (`Process.Aside`). A `SharedBond` is a relation on
scenes that sees these two at most; then the commands that are about the process and the watchers keep
it (`SharedBond.processCommand`, `SharedBond.watchCommand`).
-/

namespace ThreadSlots

open Storage

/-- The change has regard for neither the variables of the process nor its history, and leaves the
variables as they are. -/
structure Process.Aside (f : Process → Process) : Prop where
  slots : ∀ p slots, f { p with bySlot := slots } = { f p with bySlot := slots }
  burned : ∀ p burned, (f { p with burned }).toState = (f p).toState

namespace Process.Aside

variable {f : Process → Process}

theorem bySlot (h : Aside f) (p : Process) : (f p).bySlot = p.bySlot :=
  congrArg (·.bySlot) (h.slots p p.bySlot)

theorem toState (h : Aside f) {p q : Process} (hpq : q.toState = p.toState) :
    (f q).toState = (f p).toState := by
  obtain ⟨state, burned⟩ := p
  obtain ⟨state', burned'⟩ := q
  obtain rfl : state' = state := hpq
  exact h.burned ⟨state', burned⟩ burned'

theorem comp {g : Process → Process} (hg : Aside g) (hf : Aside f) : Aside fun p => g (f p) where
  slots p slots := by rw [hf.slots, hg.slots]
  burned p burned := hg.toState (hf.burned p burned)

/-- What to change may depend on the process, though not on its variables or its history. -/
theorem reading {β : Type} {r : Process → β} {g : β → Process → Process}
    (hslots : ∀ p slots, r { p with bySlot := slots } = r p)
    (hburned : ∀ p burned, r { p with burned } = r p) (hg : ∀ x, Aside (g x)) :
    Aside fun p => g (r p) p where
  slots p slots := by
    rw [hslots]
    exact (hg (r p)).slots p slots
  burned p burned := by
    rw [hburned]
    exact (hg (r p)).burned p burned

/-- One change after the other. -/
theorem foldl {β : Type} {g : Process → β → Process} (h : ∀ x, Aside (g · x)) (xs : List β) :
    Aside (xs.foldl g ·) where
  slots p slots :=
    List.foldl_hom (fun q : Process => { q with bySlot := slots }) fun q x => (h x).slots q slots
  burned p burned := by
    have hfold : ∀ p q : Process, q.toState = p.toState →
        (xs.foldl g q).toState = (xs.foldl g p).toState := by
      induction xs with
      | nil => exact fun _ _ hpq => hpq
      | cons x xs ih => exact fun p q hpq => ih _ _ ((h x).toState hpq)
    exact hfold p _ rfl

theorem runJob (job : Job) : Aside (·.runJob job) := by
  cases job <;> exact ⟨fun _ _ => rfl, fun _ _ => rfl⟩

theorem updateWatcher (i : Nat) (g : Watcher Job → Watcher Job) : Aside (·.updateWatcher i g) :=
  ⟨fun _ _ => rfl, fun _ _ => rfl⟩

theorem settleWatcher (i : Nat) : Aside (·.settleWatcher i) :=
  reading (r := fun p => (p.watcher i).settle)
    (g := fun settled p => settled.1.foldl Process.runJob (p.updateWatcher i fun _ => settled.2))
    (fun _ _ => rfl) (fun _ _ => rfl) fun settled =>
      (foldl runJob settled.1).comp (updateWatcher i fun _ => settled.2)

theorem settle : Aside Process.settle :=
  reading (r := (·.watchers.size)) (g := fun n p => (List.range n).foldl Process.settleWatcher p)
    (fun _ _ => rfl) (fun _ _ => rfl) fun n => foldl settleWatcher (List.range n)

theorem reportDeath (thread : ThreadId) (s : Sentinel) : Aside (·.reportDeath thread s) := by
  cases s with
  | installed since watchers => exact foldl (fun i => updateWatcher i (·.reportDeath thread)) watchers
  | absent | destroyed => exact ⟨fun _ _ => rfl, fun _ _ => rfl⟩

end Process.Aside

/-- A relation on scenes that sees the variables of the process and what has happened at most. -/
structure SharedBond (R : Scene → Scene → Prop) : Prop where
  process : Coupled R (fun p q => ∃ slots, q.toState = { p.toState with bySlot := slots })
    Storage.process Storage.process
  change : ∀ {f}, Process.Aside f →
    Coupled R (fun _ _ => True) (modifyProcess f) (modifyProcess f)
  thread : Coupled R (fun t u => u.id = t.id ∧ u.sentinel = t.sentinel ∧ u.locals = t.locals)
    Storage.thread Storage.thread
  sentinel : ∀ s, Coupled R (fun _ _ => True) (modifyThread ({ · with sentinel := s }))
    (modifyThread ({ · with sentinel := s }))
  settings : Coupled R Eq settings settings

namespace SharedBond

variable {α : Type} {R : Scene → Scene → Prop}

theorem bind_process (h : SharedBond R) {V : α → α → Prop} {f : Process → Storage α}
    (hf : ∀ p slots burned, Coupled R V (f p) (f ⟨{ p.toState with bySlot := slots }, burned⟩)) :
    Coupled R V (Storage.process >>= f) (Storage.process >>= f) := by
  refine .bind h.process fun p q ⟨slots, hq⟩ => ?_
  obtain ⟨state, burned⟩ := q
  obtain rfl : state = _ := hq
  exact hf p slots burned

theorem readProcess (h : SharedBond R) {f : Process → α}
    (hf : ∀ p slots burned, f ⟨{ p.toState with bySlot := slots }, burned⟩ = f p) :
    Coupled R Eq (f <$> Storage.process) (f <$> Storage.process) := by
  rw [map_eq_pure_bind]
  exact h.bind_process fun p slots burned => .pure (hf p slots burned).symm

theorem count (h : SharedBond R) (c : Counter) :
    Coupled R (fun _ _ => True) (Storage.count c) (Storage.count c) :=
  h.change ⟨fun _ _ => rfl, fun _ _ => rfl⟩

/-! ## The death watch -/

theorem watch (h : SharedBond R) (watcher : Nat) (job : Job) :
    Coupled R (fun _ _ => True) (Storage.watch watcher job) (Storage.watch watcher job) := by
  have hwatch (thread : ThreadId) : Coupled R (fun _ _ => True)
      (modifyProcess (·.updateWatcher watcher (·.watch thread job)))
      (modifyProcess (·.updateWatcher watcher (·.watch thread job))) :=
    h.change (.updateWatcher watcher _)
  unfold Storage.watch
  refine .bind h.thread fun t u ⟨hid, hsentinel, hlocals⟩ => ?_
  rw [hid, hsentinel, hlocals]
  rcases t.sentinel with _ | ⟨since, watchers⟩ | _
  · exact .bind (h.sentinel _) fun _ _ _ => hwatch t.id
  · exact .ite (.bind (h.sentinel _) fun _ _ _ => hwatch t.id) (hwatch t.id)
  · refine .bind (h.change (.runJob job)) fun _ _ _ => ?_
    split
    · exact .throw _
    · exact .pure trivial

theorem trackThread (h : SharedBond R) :
    Coupled R (fun _ _ => True) Storage.trackThread Storage.trackThread := by
  refine .bind h.thread fun t u ⟨hid, _⟩ => ?_
  rw [hid]
  refine h.bind_process fun p slots burned => ?_
  refine .ite (.bind (h.change ⟨fun _ _ => rfl, fun _ _ => rfl⟩) fun _ _ _ => ?_) (.pure trivial)
  exact .bind (h.count _) fun _ _ _ => h.watch _ _

theorem untrackThread (h : SharedBond R) :
    Coupled R (fun _ _ => True) Storage.untrackThread Storage.untrackThread := by
  refine .bind h.thread fun t u ⟨hid, _⟩ => ?_
  rw [hid]
  refine h.bind_process fun p slots burned => ?_
  exact .ite (h.change ⟨fun _ _ => rfl, fun _ _ => rfl⟩) (.pure trivial)

/-! ## Handles and slots -/

theorem takeHandle (h : SharedBond R) :
    Coupled R Eq ThreadSlots.takeHandle ThreadSlots.takeHandle :=
  h.bind_process fun _ _ _ =>
    .bind (h.change ⟨fun _ _ => rfl, fun _ _ => rfl⟩) fun _ _ _ => .pure rfl

theorem bindHandle (h : SharedBond R) (handle slot : Nat) : Coupled R (fun _ _ => True)
    (ThreadSlots.bindHandle handle slot) (ThreadSlots.bindHandle handle slot) :=
  h.change ⟨fun _ _ => rfl, fun _ _ => rfl⟩

theorem takeSlot (h : SharedBond R) : Coupled R Eq ThreadSlots.takeSlot ThreadSlots.takeSlot := by
  refine h.bind_process fun p slots burned => ?_
  dsimp only
  refine .bind (.ofExcept _) fun slot _ hs => ?_
  subst hs
  exact .bind (h.change ⟨fun _ _ => rfl, fun _ _ => rfl⟩) fun _ _ _ =>
    .bind (h.count _) fun _ _ _ => .pure rfl

/-! ## The process and the watchers -/

theorem destroyFallbacks (h : SharedBond R) : Coupled R (fun _ _ => True) Storage.destroyFallbacks
    Storage.destroyFallbacks :=
  .bind (h.change ⟨fun _ _ => rfl, fun _ _ => rfl⟩) fun _ _ _ => h.count _

theorem processCommand (h : SharedBond R) (op : ProcessCommand) : Coupled R Eq op.run op.run := by
  cases op with
  | tally | supply | environmentSettings => exact h.readProcess fun _ _ _ => rfl
  | burn n =>
    refine h.bind_process fun p slots burned => ?_
    dsimp only
    refine .bind (h.change ⟨fun _ _ => rfl, fun _ _ => rfl⟩) fun _ _ _ => ?_
    rcases p.supply.takeLast n with ⟨_ | answer, supply⟩
    · exact .pure rfl
    · exact .bind (.ofExcept answer) fun _ _ hn => .pure (by rw [hn])
  | settings | policy => exact .bind h.settings fun _ _ hc => .pure (by rw [hc])
  | install c =>
    refine h.bind_process fun p slots burned => ?_
    dsimp only
    cases p.settings with
    | none => exact .bind (h.change ⟨fun _ _ => rfl, fun _ _ => rfl⟩) fun _ _ _ => .pure rfl
    | some installed => exact .pure rfl

theorem awaitWorkers (h : SharedBond R) : Coupled R (fun _ _ => True) ThreadSlots.awaitWorkers
    ThreadSlots.awaitWorkers :=
  h.change .settle

/-- What is done with a watcher, if there is one of that name. -/
theorem bind_watcher (h : SharedBond R) (name : String) {f : Nat → Storage Reply}
    (hf : ∀ i, Coupled R Eq (f i) (f i)) :
    Coupled R Eq
      (do
        let some i := (← Storage.process).watcherNames.lookup name | return .noWatcher
        f i)
      (do
        let some i := (← Storage.process).watcherNames.lookup name | return .noWatcher
        f i) := by
  refine h.bind_process fun p slots burned => ?_
  dsimp only
  cases p.watcherNames.lookup name with
  | none => exact .pure rfl
  | some i => exact hf i

theorem watchCommand (h : SharedBond R) (op : WatchCommand) : Coupled R Eq op.run op.run := by
  cases op with
  | trackedThreads => exact h.readProcess fun _ _ _ => rfl
  | awaitTracked n => exact .bind h.awaitWorkers fun _ _ _ => h.readProcess fun _ _ _ => rfl
  | new name => exact .bind (h.change ⟨fun _ _ => rfl, fun _ _ => rfl⟩) fun _ _ _ => .pure rfl
  | watch name label panics =>
    exact h.bind_watcher name fun i => .bind (h.watch i _) fun _ _ _ => .pure rfl
  | unwatch name target =>
    refine h.bind_watcher name fun i => ?_
    cases target
    -- both ways of naming the thread come to an identity, if to any
    case' none =>
      refine .bind h.thread fun t u ⟨hid, _⟩ => ?_
      rw [hid]
    case' some => refine h.bind_process fun p slots burned => ?_
    all_goals
      refine .bind (V := Eq) (.pure rfl) fun whose _ hwhose => ?_
      subst hwhose
      cases whose with
      | none => exact .pure rfl
      | some thread => exact .bind (h.change (.updateWatcher i _)) fun _ _ _ => .pure rfl
  | count name | isActive name => exact h.bind_watcher name fun i => h.readProcess fun _ _ _ => rfl
  | await name limited =>
    exact h.bind_watcher name fun i => .bind h.awaitWorkers fun _ _ _ => h.readProcess fun _ _ _ => rfl
  | jobs =>
    exact h.bind_process fun p slots burned =>
      .bind (h.change ⟨fun _ _ => rfl, fun _ _ => rfl⟩) fun _ _ _ => .pure rfl

end SharedBond

end ThreadSlots
