import ThreadSlots.Proofs.Isolation
import ThreadSlots.Proofs.SharedCommands

/-!
# No operation reads the history

Beside its state a scene has a `History`: what was taken from the supply for no variable, whether a
clearing was interrupted, which tables were filled by hand, and how values came and went. Scenes with
the `SameState` differ in their history at most. Every command ends alike in both and keeps them so
(`History.command`), also while nested code runs (`History.enter`); therefore a session goes on in the
same way whatever has happened in it before (`Session.run_sameState`).
-/

namespace ThreadSlots

open Storage

/-! ## Scenes with the same state -/

/-- What has happened. -/
structure History where
  burned : Nat
  interrupted : Bool
  filled : List TableId
  partings : List Parting
  arrivals : List Arrival

namespace Scene

/-- The scene with another history. -/
def withHistory (sc : Scene) (h : History) : Scene where
  process := { sc.process with burned := h.burned }
  thread := { sc.thread with interrupted := h.interrupted, filled := h.filled }
  events := sc.events
  partings := h.partings
  arrivals := h.arrivals

/-- The scenes differ in their history at most. -/
structure SameState (sc sc' : Scene) : Prop where
  process : sc'.process.toState = sc.process.toState
  thread : sc'.thread.toState = sc.thread.toState
  events : sc'.events = sc.events

theorem SameState.exists_history {sc sc' : Scene} (h : SameState sc sc') :
    ∃ history, sc' = sc.withHistory history := by
  refine ⟨⟨sc'.process.burned, sc'.thread.interrupted, sc'.thread.filled, sc'.partings,
    sc'.arrivals⟩, ?_⟩
  unfold withHistory
  dsimp only
  rw [← h.process, ← h.thread, ← h.events]

end Scene

namespace History

open Scene (SameState)

/-! ## Reading and changing the scene -/

theorem process :
    Coupled SameState (fun p q => q.toState = p.toState) Storage.process Storage.process :=
  .read runOn_process runOn_process fun _ _ h => h.process

theorem thread :
    Coupled SameState (fun t u => u.toState = t.toState) Storage.thread Storage.thread :=
  .read runOn_thread runOn_thread fun _ _ h => h.thread

theorem change {f : Process → Process} (hf : Process.Aside f) :
    Coupled SameState (fun _ _ => True) (modifyProcess f) (modifyProcess f) :=
  .of_runOn fun _ _ hr =>
    ⟨_, _, _, _, rfl, rfl, trivial, hf.toState hr.process, hr.thread, hr.events⟩

theorem sentinel (s : Sentinel) : Coupled SameState (fun _ _ => True)
    (modifyThread ({ · with sentinel := s })) (modifyThread ({ · with sentinel := s })) := by
  refine .of_runOn fun sc sc' hr => ⟨_, _, _, _, rfl, rfl, trivial, ?_⟩
  obtain ⟨h, rfl⟩ := hr.exists_history
  exact ⟨rfl, rfl, rfl⟩

theorem settings : Coupled SameState Eq Storage.settings Storage.settings := by
  intro sc sc' hr
  obtain ⟨h, rfl⟩ := hr.exists_history
  rw [runOn_settings, runOn_settings]
  exact ⟨.ok rfl, rfl, rfl, rfl⟩

theorem shared : SharedBond SameState where
  process := process.mono fun p _ hpq => ⟨p.bySlot, hpq⟩
  change := change
  thread := thread.mono fun _ _ htu => ⟨congrArg (·.id) htu, congrArg (·.sentinel) htu,
    congrArg (·.locals) htu⟩
  sentinel := sentinel
  settings := settings

theorem unwatched {sc sc' : Scene} (hr : SameState sc sc') :
    SameState sc.unwatched sc'.unwatched := by
  have hsettled : SameState { sc with process := sc.process.settled }
      { sc' with process := sc'.process.settled } := by
    obtain ⟨h, rfl⟩ := hr.exists_history
    exact ⟨rfl, rfl, rfl⟩
  have hwatch : sc'.process.inEffect = sc.process.inEffect := by
    obtain ⟨h, rfl⟩ := hr.exists_history
    rfl
  unfold Scene.unwatched
  rw [hwatch]
  split
  · exact (shared.untrackThread _ _ hsettled).2
  · exact hsettled

theorem tracks (t : SlotTable) : t.Tracks fun _ => True := fun _ _ _ => trivial

theorem table (i : TableId) : Coupled SameState Eq (Storage.table i) (Storage.table i) :=
  .bind thread fun t u htu => .pure (by unfold Thread.table; rw [htu])

theorem setTable {sc sc' : Scene} (hr : SameState sc sc') (i : TableId) (t : SlotTable) :
    SameState (sc.setTable i t) (sc'.setTable i t) := by
  obtain ⟨h, rfl⟩ := hr.exists_history
  exact ⟨rfl, rfl, rfl⟩

theorem storeLiveSet (i : TableId) (set : LiveSet) :
    Coupled SameState Eq (Storage.store i reservedSlot (.liveSet set))
      (Storage.store i reservedSlot (.liveSet set)) := by
  have htable {sc sc' : Scene} (hr : SameState sc sc') :
      sc'.thread.table i = sc.thread.table i ∧ (sc.thread.table i).Tracks fun _ => True := by
    obtain ⟨h, rfl⟩ := hr.exists_history
    exact ⟨rfl, tracks _⟩
  refine .bind (coupled_write (fun t => t.set_eq reservedSlot _) htable
    (fun hr => (shared.count _ _ _ hr).2) fun hr _ => setTable hr i _) fun stored _ hs => ?_
  exact .bind (.pure trivial) fun _ _ (_ : True) => .pure hs

theorem ensureLiveSet (i : TableId) :
    Coupled SameState (fun _ _ => True) (ThreadSlots.ensureLiveSet i)
      (ThreadSlots.ensureLiveSet i) := by
  have hread : Coupled SameState Eq (liveSet? i) (liveSet? i) :=
    .bind (table i) fun t u htu => .pure (by rw [htu])
  refine .bind hread fun set _ hset => ?_
  subst hset
  refine .ite (.bind (storeLiveSet i ∅) fun _ _ _ => .bind settings fun c _ hc => ?_) (.pure trivial)
  subst hc
  exact .ite shared.trackThread (.pure trivial)

/-! ## The thread's own storage -/

theorem bond : OwnBond (fun _ => True) SameState where
  table := by
    rintro sc sc' i _ hr rfl
    obtain ⟨h, rfl⟩ := hr.exists_history
    exact ⟨rfl, tracks _⟩
  setTable := by
    rintro sc sc' i _ hr rfl t -
    obtain ⟨h, rfl⟩ := hr.exists_history
    exact ⟨rfl, rfl, rfl⟩
  emit := fun hr e => ⟨hr.process, hr.thread, congrArg (e :: ·) hr.events⟩
  part := fun hr _ _ _ _ => ⟨hr.process, hr.thread, hr.events⟩
  arrive := fun hr _ _ _ => ⟨hr.process, hr.thread, hr.events⟩
  count := fun hr c _ => (shared.count c _ _ hr).2
  ensureLiveSet := by
    rintro i _ rfl
    exact ensureLiveSet i
  draw := by
    intro v _ sc sc' hr
    obtain ⟨h, rfl⟩ := hr.exists_history
    exact ⟨.ok rfl, rfl, rfl, rfl⟩
  lookup := by
    intro handle
    refine .bind process fun p q hpq => .pure ⟨?_, fun _ _ => trivial⟩
    rw [hpq]
  current := by
    intro sc sc' hr
    obtain ⟨h, rfl⟩ := hr.exists_history
    have hown : (sc.withHistory h).own? = sc.own? := rfl
    rw [runOn_current, runOn_current, hown]
    cases sc.own? with
    | some i => exact ⟨.ok rfl, rfl, rfl, rfl⟩
    | none => exact ⟨.ok rfl, rfl, rfl, rfl⟩
  current? := by
    intro sc sc' hr
    obtain ⟨h, rfl⟩ := hr.exists_history
    have hown : (sc.withHistory h).own? = sc.own? := rfl
    rw [runOn_current?, runOn_current?, hown]
    refine ⟨.ok (OwnBond.optionRel _), ?_⟩
    dsimp only
    split
    · exact ⟨rfl, rfl, rfl⟩
    · exact ⟨rfl, rfl, rfl⟩
  thread := by
    intro sc sc' hr
    obtain ⟨h, rfl⟩ := hr.exists_history
    exact ⟨rfl, rfl, rfl⟩
  carried? := by
    intro sc sc' hr
    obtain ⟨h, rfl⟩ := hr.exists_history
    rw [runOn_carried?, runOn_carried?]
    exact ⟨.ok rfl, rfl, rfl, rfl⟩
  rename := by
    intro sc sc' hr f
    obtain ⟨h, rfl⟩ := hr.exists_history
    exact ⟨rfl, rfl, rfl⟩
  fill := by
    intro sc sc' hr id
    obtain ⟨h, rfl⟩ := hr.exists_history
    exact ⟨rfl, rfl, rfl⟩
  settings := settings
  newTable := by
    intro policy sc sc' hr
    obtain ⟨h, rfl⟩ := hr.exists_history
    exact ⟨.ok rfl, rfl, rfl, rfl⟩
  adopt := by
    intro sc sc' hr
    obtain ⟨h, rfl⟩ := hr.exists_history
    have hown : (sc.withHistory h).own? = sc.own? := rfl
    have hcarried : (sc.withHistory h).thread.carried? = sc.thread.carried? := rfl
    rw [runOn_adopt, runOn_adopt, hown, hcarried]
    rcases sc.thread.carried? with _ | i
    · rcases sc.own? with _ | i
      · exact ⟨.ok rfl, rfl, rfl, rfl⟩
      · exact ⟨.ok rfl, rfl, rfl, rfl⟩
    · exact ⟨.ok rfl, rfl, rfl, rfl⟩
  release := by
    intro sc sc' hr
    obtain ⟨h, rfl⟩ := hr.exists_history
    rw [runOn_release, runOn_release]
    exact ⟨.ok rfl, rfl, rfl, rfl⟩
  discard := by
    intro sc sc' hr
    obtain ⟨h, rfl⟩ := hr.exists_history
    have hcarried : (sc.withHistory h).thread.carried? = sc.thread.carried? := rfl
    rw [runOn_discard, runOn_discard, hcarried]
    rcases sc.thread.carried? with _ | i
    · exact ⟨.ok trivial, rfl, rfl, rfl⟩
    · exact ⟨.ok trivial, rfl, rfl, rfl⟩
  interrupt := fun hr => ⟨hr.process, hr.thread, hr.events⟩
  detach := by
    intro sc sc' hr
    have hunwatched := unwatched hr
    obtain ⟨h, rfl⟩ := hr.exists_history
    obtain ⟨h', hsame⟩ := hunwatched.exists_history
    refine ⟨rfl, fun _ => ?_, fun i _ => ?_⟩
    · rw [hsame]
      exact ⟨rfl, rfl, rfl⟩
    · unfold Scene.detached
      rw [hsame]
      exact ⟨rfl, rfl, rfl⟩

/-! ## Variables -/

theorem enroll (variableAt : Nat → Variable) :
    Coupled SameState Eq (ThreadSlots.enroll variableAt) (ThreadSlots.enroll variableAt) := by
  refine .bind shared.takeSlot fun slot _ hs => ?_
  subst hs
  refine .bind (V := fun _ _ => True) (.of_runOn fun sc sc' hr => ?_) fun _ _ _ => .pure rfl
  obtain ⟨h, rfl⟩ := hr.exists_history
  exact ⟨_, _, _, _, rfl, rfl, trivial, rfl, rfl, rfl⟩

theorem declare (kind : Kind) (initial : Initializer) (hook : Option Hook) :
    Coupled SameState Eq (ThreadSlots.declare kind initial hook)
      (ThreadSlots.declare kind initial hook) :=
  coupled_declare shared.takeHandle (fun _ => (enroll _).mono fun _ _ hv => by rw [hv])
    shared.bindHandle

/-! ## Commands and scripts -/

/-- Every command ends alike. -/
theorem command {enter : Enter} (henter : ∀ s, Coupled SameState Eq (enter s) (enter s))
    (c : Command) : Coupled SameState Eq (c.run enter) (c.run enter) := by
  have hown (c : Command) (hc : c.IsLocal) : Coupled SameState Eq (c.run enter) (c.run enter) :=
    OwnBond.command (fun s _ => henter s) (fun _ _ s _ => s.only_of_forall fun _ => trivial) bond hc
      (c.only_of_forall fun _ => trivial)
  cases c with
  | declare kind initial hook =>
    exact .bind (declare kind initial hook) fun _ _ hm => .pure (by rw [hm])
  | declareRow n kind initial hook =>
    cases n with
    | zero => exact .pure rfl
    | succ n =>
      exact .bind (coupled_declareRow (declare kind initial hook) n) fun _ _ hm => .pure (by rw [hm])
  | duplicate handle =>
    refine bond.bind_lookup handle fun v => ?_
    cases v with
    | none => exact .pure rfl
    | some v =>
      refine .bind shared.takeHandle fun copy _ hcopy => ?_
      subst hcopy
      exact .bind (shared.bindHandle copy v.slot) fun _ _ _ => .pure rfl
  | drop handle =>
    exact bond.bind_lookup handle fun v => .bind (change ⟨fun _ _ => rfl, fun _ _ => rfl⟩)
      fun _ _ _ => .pure rfl
  | onThread op =>
    by_cases hop : op = .destroy
    · subst hop
      exact .bind shared.destroyFallbacks fun _ _ _ => .pure rfl
    · exact hown _ hop
  | onProcess op => exact shared.processCommand op
  | onWatchers op => exact shared.watchCommand op
  | _ => exact hown _ trivial

theorem enter (depth : Nat) (s : Script) :
    Coupled SameState Eq (ThreadSlots.enter depth s) (ThreadSlots.enter depth s) :=
  coupled_enter bond.emit_event (fun _ henter c _ => command
    (fun s => henter s (s.only_of_forall fun _ => trivial)) c) depth (s.only_of_forall fun _ => trivial)

theorem perform (depth : Nat) (c : Command) :
    Coupled SameState Eq (ThreadSlots.perform (ThreadSlots.enter depth) c)
      (ThreadSlots.perform (ThreadSlots.enter depth) c) :=
  coupled_perform (command (enter depth) c)

theorem clearOnExit (kind : ThreadKind) (depth : Nat) :
    Coupled SameState Eq (ThreadSlots.clearOnExit kind depth) (ThreadSlots.clearOnExit kind depth) :=
  .ite ((OwnBond.clearAndRelease (P := fun _ => True) (fun s _ => enter depth s)
    (fun _ _ s _ => s.only_of_forall fun _ => trivial) bond).mono fun _ _ _ => rfl) (.pure rfl)

theorem unwind {sc sc' : Scene} (hr : SameState sc sc') (n : Nat) :
    SameState (sc.unwind n) (sc'.unwind n) := by
  obtain ⟨h, rfl⟩ := hr.exists_history
  have hdeath := (Process.Aside.reportDeath sc.thread.id sc.thread.sentinel).toState hr.process
  rw [Scene.unwind_eq, Scene.unwind_eq]
  refine ⟨?_, rfl, rfl⟩
  show (if sc.thread.sentinel.since?.any (n ≤ ·) then _ else _ : Process).toState =
    Process.toState (ite ..)
  split
  · exact hdeath
  · rfl

theorem settle {sc sc' : Scene} (hr : SameState sc sc') :
    SameState { sc with process := sc.process.settle } { sc' with process := sc'.process.settle } :=
  ⟨Process.Aside.settle.toState hr.process, hr.thread, hr.events⟩

end History

/-! ## Sessions -/

/-- The actors differ in the history of their threads at most. -/
structure Actor.SameState (a b : Actor) : Prop where
  name : b.name = a.name
  kind : b.kind = a.kind
  late : b.late = a.late
  thread : b.thread.toState = a.thread.toState

namespace Session

/-- The sessions differ in their history at most. -/
structure SameState (s s' : Session) : Prop where
  process : s'.process.toState = s.process.toState
  actors : List.Forall₂ Actor.SameState s.actors s'.actors
  depth : s'.depth = s.depth

namespace SameState

variable {s s' : Session} {name : String} {a b : Actor}

theorem exists_actor (h : SameState s s') (name : String) :
    (s.actor? name = none ∧ s'.actor? name = none) ∨
      ∃ a b, s.actor? name = some a ∧ s'.actor? name = some b ∧ a.SameState b := by
  have hbearers : List.Forall₂ Actor.SameState (s.bearers name) (s'.bearers name) := by
    refine List.rel_filter (fun a b hab => ?_) h.actors
    dsimp only
    rw [hab.name]
  rcases exists_actor_of_forall₂ hbearers with ⟨ha, hb⟩ | ⟨a, b, ha, hb, -, hab⟩
  · exact .inl ⟨ha, hb⟩
  · exact .inr ⟨a, b, ha, hb, hab⟩

theorem scene (h : SameState s s') (hab : a.SameState b) :
    Scene.SameState { process := s.process, thread := a.thread }
      { process := s'.process, thread := b.thread } :=
  ⟨h.process, hab.thread, rfl⟩

theorem setThread (h : SameState s s') {sc sc' : Scene} (hsc : sc.SameState sc') (name : String) :
    SameState ({ s with process := sc.process }.setThread name sc.thread)
      ({ s' with process := sc'.process }.setThread name sc'.thread) := by
  refine ⟨hsc.process, ?_, h.depth⟩
  refine List.forall₂_map_left_iff.2 (List.forall₂_map_right_iff.2 (h.actors.imp fun a b hab => ?_))
  rw [hab.name]
  split
  · exact ⟨rfl, hab.kind, hab.late, hsc.thread⟩
  · exact hab

theorem addLate (h : SameState s s') (name : String) (code : Late) :
    SameState (s.addLate name code) (s'.addLate name code) := by
  refine ⟨h.process, ?_, h.depth⟩
  refine List.forall₂_map_left_iff.2 (List.forall₂_map_right_iff.2 (h.actors.imp fun a b hab => ?_))
  rw [hab.name]
  split
  · exact ⟨rfl, hab.kind, congrArg (code :: ·) hab.late, hab.thread⟩
  · exact hab

theorem command (h : SameState s s') (name : String) (c : Command) :
    (s'.command name c).1 = (s.command name c).1 ∧
      SameState (s.command name c).2 (s'.command name c).2 := by
  obtain ⟨p, actors, depth⟩ := s
  obtain ⟨p', actors', depth'⟩ := s'
  obtain rfl : depth' = depth := h.depth
  unfold Session.command
  rcases h.exists_actor name with ⟨ha, hb⟩ | ⟨a, b, ha, hb, hab⟩
  · rw [ha, hb]
    exact ⟨rfl, h⟩
  · rw [ha, hb]
    obtain ⟨ho, hs⟩ := History.perform depth' c _ _ (h.scene hab)
    have hsettled := History.settle hs
    refine ⟨?_, h.setThread hsettled name⟩
    unfold act
    dsimp only
    rw [ho.eq, hs.events]
    exact congrArg (fun glance => StepReport.mk _ _ (some glance)) (History.bond.glance_eq hsettled)

theorem startThread {p p' : Process} (hp : p'.toState = p.toState) (kind : ThreadKind)
    (label : Option String) (uses : Nat) :
    (p'.startThread kind label uses).1 = (p.startThread kind label uses).1 ∧
      (p'.startThread kind label uses).2.1.toState = (p.startThread kind label uses).2.1.toState ∧
      (p'.startThread kind label uses).2.2.toState = (p.startThread kind label uses).2.2.toState := by
  obtain ⟨state, burned⟩ := p
  obtain ⟨state', burned'⟩ := p'
  obtain rfl : state' = state := hp
  unfold Process.startThread
  obtain ⟨ho, hs⟩ := History.bond.prepare kind
    { process := { toState := { state' with nextThread := state'.nextThread + 1 }, burned }
      thread :=
        { id := state'.nextThread
          locals := { uses := uses }
          label := if kind = .withContext then label else none } }
    { process := { toState := { state' with nextThread := state'.nextThread + 1 }, burned := burned' }
      thread :=
        { id := state'.nextThread
          locals := { uses := uses }
          label := if kind = .withContext then label else none } }
    ⟨rfl, rfl, rfl⟩
  exact ⟨congrArg (fun r => r.toOption.getD false) ho.eq, hs.thread, hs.process⟩

theorem spawn (h : SameState s s') (name : String) (kind : ThreadKind) (label : Option String)
    (late : Option (List Command)) :
    (s'.spawn name kind label late).1 = (s.spawn name kind label late).1 ∧
      SameState (s.spawn name kind label late).2 (s'.spawn name kind label late).2 := by
  obtain ⟨hcarrying, hthread, hprocess⟩ :=
    startThread h.process kind label (Late.first late).length
  unfold Session.spawn
  refine ⟨?_, ?_, ?_, h.depth⟩
  · dsimp only
    rw [hcarrying]
  · dsimp only
    rw [hthread, hprocess]
  · exact List.rel_append h.actors (.cons ⟨rfl, rfl, rfl, hthread⟩ .nil)

theorem use (h : SameState s s') (name : String) (commands : List Command) :
    (s'.use name commands).1 = (s.use name commands).1 ∧
      SameState (s.use name commands).2 (s'.use name commands).2 := by
  rcases h.exists_actor name with ⟨ha, hb⟩ | ⟨a, b, ha, hb, hab⟩
  · rw [use_of_none ha, use_of_none hb]
    exact ⟨rfl, h⟩
  · have hused : Scene.SameState { process := s.process, thread := used a.thread }
        { process := s'.process, thread := used b.thread } := by
      obtain ⟨history, hsame⟩ := (h.scene hab).exists_history
      refine ⟨h.process, ?_, rfl⟩
      have hthread : b.thread = _ := congrArg (·.thread) hsame
      rw [hthread]
      rfl
    have hlocals : b.thread.locals = a.thread.locals := congrArg (·.locals) hab.thread
    refine ⟨?_, ?_⟩
    · unfold Session.use
      rw [ha, hb]
    · rw [session_use ha, session_use hb, hlocals]
      exact (h.setThread hused name).addLate name _

theorem exit (depth : Nat) (h : SameState s s') (hab : a.SameState b) (panics : Option String) :
    (Session.exit depth s'.process b panics).1 = (Session.exit depth s.process a panics).1 ∧
      (Session.exit depth s.process a panics).2.SameState
        (Session.exit depth s'.process b panics).2 := by
  obtain ⟨ho, hs⟩ := History.clearOnExit a.kind depth _ _ (h.scene hab)
  obtain ⟨hanswers, hs'⟩ := coupled_runDestructors depth
    (fun _ _ c _ => History.perform depth c) History.unwind hs
  unfold Session.exit tearDown
  rw [hab.kind, hab.late]
  refine ⟨?_, History.settle (History.unwind hs' 0)⟩
  dsimp only
  rw [ho.eq, hanswers]

theorem join (h : SameState s s') (name : String) (panics : Option String) :
    (s'.join name panics).1 = (s.join name panics).1 ∧
      SameState (s.join name panics).2 (s'.join name panics).2 := by
  obtain ⟨p, actors, depth⟩ := s
  obtain ⟨p', actors', depth'⟩ := s'
  obtain rfl : depth' = depth := h.depth
  unfold Session.join
  rcases h.exists_actor name with ⟨ha, hb⟩ | ⟨a, b, ha, hb, hab⟩
  · rw [ha, hb]
    exact ⟨rfl, h⟩
  · rw [ha, hb]
    obtain ⟨hending, hs⟩ := h.exit depth' hab panics
    refine ⟨?_, hs.process, ?_, h.depth⟩
    · dsimp only
      rw [hending, hs.events]
    · refine List.rel_filter (fun a b hab => ?_) h.actors
      dsimp only
      rw [hab.name]

theorem step (h : SameState s s') (x : Step) :
    (s'.step x).1 = (s.step x).1 ∧ SameState (s.step x).2 (s'.step x).2 := by
  cases x with
  | run name c => exact h.command name c
  | spawn name kind label late => exact h.spawn name kind label late
  | use name commands => exact h.use name commands
  | join name panics => exact h.join name panics

end SameState

/-- **No operation reads the history.** Sessions with the same state lead to the same reports, step by
step, and to the same state, whatever happened in each of them before. -/
theorem run_sameState {s s' : Session} (h : SameState s s') (steps : List Step) :
    (s'.run steps).1 = (s.run steps).1 ∧ SameState (s.run steps).2 (s'.run steps).2 := by
  induction steps generalizing s s' with
  | nil => exact ⟨rfl, h⟩
  | cons x steps ih =>
    obtain ⟨hreport, hs⟩ := h.step x
    obtain ⟨hreports, hs'⟩ := ih hs
    exact ⟨List.cons_eq_cons.2 ⟨hreport, hreports⟩, hs'⟩

end Session

end ThreadSlots
