import ThreadSlots.Proofs.Destructors

/-!
# Live sets agree with the slots

In every session, whatever its threads do and whatever their initializers, removal hooks and nested
code do, the table a thread works on lists exactly the variables that are set in it
(`Session.agrees_of_run`), unless a panic came out of a removal hook while the thread was being
cleared. The invariant over the steps of a session is `Session.Sound`.
-/

namespace ThreadSlots

open Storage

/-! ## Sound sessions -/

/-- The process and its threads are sound, and the threads' tables agree with their live sets. -/
structure Session.Sound (s : Session) : Prop where
  process : s.process.Sound
  threads : ∀ a ∈ s.actors, a.thread.Sound s.process
  agrees : ∀ a ∈ s.actors, a.thread.Agrees []

theorem Thread.Sound.mono {t : Thread} {p p' : Process} (h : p.Grows p') (hp : p.Sound)
    (ht : t.Sound p) : t.Sound p' :=
  ⟨fun id => (ht.lists id).mono (h hp).2.knows, ht.exclusive, ht.made, ht.filled⟩

/-- A thread without a table is sound. -/
theorem Thread.Sound.of_empty {t : Thread} {p : Process} (htables : t.tables = ∅)
    (hcarried : t.carried? = none) (hfallback : t.fallback? = none) (hfilled : t.filled = []) :
    t.Sound p := by
  refine ⟨fun id => ?_, .inl hcarried,
    fun id hid => absurd hid (Thread.not_holds hcarried hfallback id), by simp [hfilled]⟩
  apply Table.Lists.of_live_empty
  have hblank : t.table id = {} := by simp [Thread.table, htables]
  rw [hblank, Table.live, Table.get?_mk]
  rfl

theorem Process.Grows.settle (p : Process) : p.Grows p.settle :=
  .of_eq (congrArg (·.register) p.stripped_settle)

namespace Session

variable {s : Session}

theorem mem_actors {name : String} {a : Actor} (h : s.actor? name = some a) : a ∈ s.actors :=
  List.mem_of_find?_eq_some h

/-- An action with which a thread takes a course leads to a sound process and thread. -/
theorem act_sound {α : Type} {x : Storage α} (hx : Walks [] x) {p : Process} {t : Thread}
    (hp : p.Sound) (ht : t.Sound p) (ha : t.Agrees []) :
    p.Grows (act p t x).2.process ∧ (act p t x).2.thread.Sound (act p t x).2.process ∧
      (act p t x).2.thread.Agrees [] := by
  have hs : Scene.Sound { process := p, thread := t } := ⟨hp, ht⟩
  have hcourse := hx.course [] hs
  have hs' := hcourse.sound hs
  refine ⟨hcourse.grows.trans (.settle _), hs'.thread.mono (.settle _) hs'.process, ?_⟩
  exact hcourse.agrees hs ha

theorem sound_start (environment : Environment) (depth : Nat) :
    (start environment depth).Sound where
  process := ⟨fun slot v hv => absurd hv (by simp [start]), Nat.zero_lt_one, rfl, rfl, rfl⟩
  threads a ha := by
    obtain rfl := List.mem_singleton.1 ha
    exact .of_empty rfl rfl rfl rfl
  agrees a ha := by
    obtain rfl := List.mem_singleton.1 ha
    exact fun _ id hid => absurd hid (Thread.not_holds rfl rfl id)

/-- Putting a sound thread in place of another one, with a process that has grown. -/
theorem Sound.setThread (hs : s.Sound) {p : Process} (hp : s.process.Grows p) {t : Thread}
    (ht : t.Sound p) (ha : t.Agrees []) (name : String) :
    ({ s with process := p }.setThread name t).Sound where
  process := (hp hs.process).1
  threads a hmem := by
    obtain ⟨b, hb, rfl⟩ := List.mem_map.1 hmem
    split
    · exact ht
    · exact (hs.threads b hb).mono hp hs.process
  agrees a hmem := by
    obtain ⟨b, hb, rfl⟩ := List.mem_map.1 hmem
    split
    · exact ha
    · exact hs.agrees b hb

/-- The scene in which a command of a thread ends. -/
def performed (s : Session) (a : Actor) (c : Command) : Scene :=
  (act s.process a.thread (perform (enter s.depth) c)).2

theorem command_of_none {name : String} (ha : s.actor? name = none) (c : Command) :
    s.command name c = ({ result := .noThread }, s) := by
  unfold Session.command
  rw [ha]

theorem session_command {name : String} {a : Actor} (ha : s.actor? name = some a) (c : Command) :
    (s.command name c).2 =
      { s with process := (s.performed a c).process }.setThread name (s.performed a c).thread := by
  unfold Session.command
  rw [ha]
  rfl

theorem Sound.performed (hs : s.Sound) {a : Actor} (ha : a ∈ s.actors) (c : Command) :
    s.process.Grows (s.performed a c).process ∧
      (s.performed a c).thread.Sound (s.performed a c).process ∧
      (s.performed a c).thread.Agrees [] :=
  act_sound (walks_perform s.depth c) hs.process (hs.threads a ha) (hs.agrees a ha)

theorem Sound.command (hs : s.Sound) (name : String) (c : Command) :
    s.process.Grows (s.command name c).2.process ∧ (s.command name c).2.Sound := by
  rcases ha : s.actor? name with _ | a
  · rw [command_of_none ha]
    exact ⟨.refl _, hs⟩
  · rw [session_command ha]
    obtain ⟨hgrows, ht, hagrees⟩ := hs.performed (mem_actors ha) c
    exact ⟨hgrows, hs.setThread hgrows ht hagrees name⟩

theorem walks_prepare (kind : ThreadKind) : Walks [] (prepare kind) := by
  have htail : Walks [] isCarrying := Walks.modular.isCarrying
  unfold prepare
  refine .ite (.bind .adopt fun id => ?_) htail
  exact .ite (.bind (Walks.modular.bindTable _ id) fun _ => htail) htail

/-- What a thread sees that starts after it used some thread-locals of its own. -/
def newcomer (s : Session) (kind : ThreadKind) (label : Option String) (uses : Nat) : Scene where
  process := { s.process with nextThread := s.process.nextThread + 1 }
  thread :=
    { id := s.process.nextThread
      locals := { uses := uses }
      label := if kind = .withContext then label else none }

/-- The scene in which a new thread's code starts. -/
def prepared (s : Session) (kind : ThreadKind) (label : Option String)
    (late : Option (List Command)) : Scene :=
  (runOn (prepare kind) (s.newcomer kind label (Late.first late).length)).2

theorem grows_newcomer (s : Session) (kind : ThreadKind) (label : Option String) (uses : Nat) :
    s.process.Grows (s.newcomer kind label uses).process :=
  .of_eq rfl

theorem Sound.newcomer (hs : s.Sound) (kind : ThreadKind) (label : Option String) (uses : Nat) :
    (s.newcomer kind label uses).Sound :=
  ⟨(s.grows_newcomer kind label uses hs.process).1, .of_empty rfl rfl rfl rfl⟩

theorem Sound.course_prepared (hs : s.Sound) (kind : ThreadKind) (label : Option String)
    (late : Option (List Command)) :
    Course [] (s.newcomer kind label (Late.first late).length) (s.prepared kind label late) :=
  (walks_prepare kind).course [] (hs.newcomer kind label _)

theorem grows_spawned (s : Session) (name : String) (kind : ThreadKind) (label : Option String)
    (late : Option (List Command)) :
    (s.prepared kind label late).process.Grows (s.spawn name kind label late).2.process :=
  .of_eq rfl

theorem Sound.spawn (hs : s.Sound) (name : String) (kind : ThreadKind) (label : Option String)
    (late : Option (List Command)) :
    s.process.Grows (s.spawn name kind label late).2.process ∧
      (s.spawn name kind label late).2.Sound := by
  have hcourse := hs.course_prepared kind label late
  have hnew := hs.newcomer kind label (Late.first late).length
  have hlast := s.grows_spawned name kind label late
  have hgrows := ((s.grows_newcomer kind label _).trans hcourse.grows).trans hlast
  have hprepared := hcourse.sound hnew
  refine ⟨hgrows, (hgrows hs.process).1, fun a ha => ?_, fun a ha => ?_⟩
  · rcases List.mem_append.1 ha with ha | ha
    · exact (hs.threads a ha).mono hgrows hs.process
    · obtain rfl := List.mem_singleton.1 ha
      exact hprepared.thread.mono hlast hprepared.process
  · rcases List.mem_append.1 ha with ha | ha
    · exact hs.agrees a ha
    · obtain rfl := List.mem_singleton.1 ha
      exact hcourse.agrees hnew fun _ id hid => absurd hid (Thread.not_holds rfl rfl id)

/-- The thread once its code has used one more thread-local. -/
def used (t : Thread) : Thread := { t with locals := { t.locals with uses := t.locals.uses + 1 } }

theorem course_used (busy : List TableId) (p : Process) (t : Thread) :
    Course busy { process := p, thread := t } { process := p, thread := used t } :=
  .of_aside (.of_seen (l := (used t).locals) rfl :
    Aside { process := p, thread := t } { process := p, thread := used t })

theorem session_use {name : String} {a : Actor} (ha : s.actor? name = some a)
    (commands : List Command) :
    (s.use name commands).2 = (s.setThread name (used a.thread)).addLate name
      { since := a.thread.locals.uses, commands } := by
  unfold Session.use
  rw [ha]
  rfl

theorem use_of_none {name : String} (ha : s.actor? name = none) (commands : List Command) :
    s.use name commands = ({ result := .noThread }, s) := by
  unfold Session.use
  rw [ha]

theorem Sound.addLate (hs : s.Sound) (name : String) (code : Late) : (s.addLate name code).Sound where
  process := hs.process
  threads a hmem := by
    obtain ⟨b, hb, rfl⟩ := List.mem_map.1 hmem
    split
    · exact hs.threads b hb
    · exact hs.threads b hb
  agrees a hmem := by
    obtain ⟨b, hb, rfl⟩ := List.mem_map.1 hmem
    split
    · exact hs.agrees b hb
    · exact hs.agrees b hb

theorem Sound.use (hs : s.Sound) (name : String) (commands : List Command) :
    s.process.Grows (s.use name commands).2.process ∧ (s.use name commands).2.Sound := by
  rcases ha : s.actor? name with _ | a
  · rw [use_of_none ha]
    exact ⟨.refl _, hs⟩
  · rw [session_use ha]
    have ht : Scene.Sound { process := s.process, thread := a.thread } :=
      ⟨hs.process, hs.threads a (mem_actors ha)⟩
    have hused := course_used [] s.process a.thread
    have hset := hs.setThread (.refl _) (hused.sound ht).thread
      (hused.agrees ht (hs.agrees a (mem_actors ha))) name
    exact ⟨.refl _, hset.addLate name _⟩

theorem walks_clearOnExit (kind : ThreadKind) (depth : Nat) :
    Walks [] (clearOnExit kind depth) := by
  unfold clearOnExit
  exact .ite (.clearAndRelease (walks_enter depth)) (.pure _)

/-- The scene in which an exiting thread has cleared itself. -/
def left (depth : Nat) (p : Process) (a : Actor) : Scene :=
  (runOn (clearOnExit a.kind depth) { process := p, thread := a.thread }).2

/-- The scene in which the last destructor of an exiting thread has run. -/
def tornDown (depth : Nat) (p : Process) (a : Actor) : Scene :=
  (tearDown depth (left depth p a) a.late).2

theorem course_left (depth : Nat) {p : Process} {a : Actor} (hp : p.Sound) (ht : a.thread.Sound p) :
    Course [] { process := p, thread := a.thread } (left depth p a) :=
  (walks_clearOnExit a.kind depth).course [] ⟨hp, ht⟩

/-- An exiting thread takes a course. -/
theorem course_exit (depth : Nat) {p : Process} {a : Actor} (hp : p.Sound) (ht : a.thread.Sound p) :
    Course [] { process := p, thread := a.thread } (tornDown depth p a) := by
  have hcourse := course_left depth hp ht
  exact hcourse.trans (course_tearDown depth a.late (hcourse.sound ⟨hp, ht⟩))

theorem scene_exit (depth : Nat) (p : Process) (a : Actor) (panics : Option String) :
    (exit depth p a panics).2 =
      { tornDown depth p a with process := (tornDown depth p a).process.settle } :=
  rfl

/-- What an exiting thread does keeps the variables of the process. -/
theorem grows_exit (depth : Nat) {p : Process} {a : Actor} (hp : p.Sound) (ht : a.thread.Sound p)
    (panics : Option String) : p.Grows (exit depth p a panics).2.process :=
  (course_exit depth hp ht).grows.trans (.settle _)

theorem Sound.join (hs : s.Sound) (name : String) (panics : Option String) :
    s.process.Grows (s.join name panics).2.process ∧ (s.join name panics).2.Sound := by
  unfold Session.join
  rcases ha : s.actor? name with _ | a
  · exact ⟨.refl _, hs⟩
  · have hmem : a ∈ s.actors := mem_actors ha
    have hgrows := grows_exit s.depth hs.process (hs.threads a hmem) panics
    exact ⟨hgrows, (hgrows hs.process).1,
      fun b hb => (hs.threads b (List.mem_filter.1 hb).1).mono hgrows hs.process,
      fun b hb => hs.agrees b (List.mem_filter.1 hb).1⟩

/-- Every step keeps a session sound, and its variables. -/
theorem Sound.step (hs : s.Sound) (x : Step) :
    s.process.Grows (s.step x).2.process ∧ (s.step x).2.Sound := by
  cases x with
  | run name c => exact hs.command name c
  | spawn name kind label late => exact hs.spawn name kind label late
  | use name late => exact hs.use name late
  | join name panics => exact hs.join name panics

theorem Sound.grows_run (hs : s.Sound) (steps : List Step) :
    s.process.Grows (s.run steps).2.process ∧ (s.run steps).2.Sound := by
  induction steps generalizing s with
  | nil => exact ⟨.refl _, hs⟩
  | cons x steps ih =>
    obtain ⟨hgrows, hs'⟩ := hs.step x
    obtain ⟨hgrows', hs''⟩ := ih hs'
    exact ⟨hgrows.trans hgrows', hs''⟩

theorem Sound.run (hs : s.Sound) (steps : List Step) : (s.run steps).2.Sound :=
  (hs.grows_run steps).2

end Session

/-! ## The live set of a thread -/

/-- The table that the thread works on, if it has one. -/
def Actor.table? (a : Actor) (p : Process) : Option SlotTable :=
  (a.thread.own? p.epoch).map a.thread.table

theorem runOn_liveCount (sc : Scene) :
    (runOn liveCount sc).1 =
      .ok ((sc.own?.map fun id => (sc.thread.table id).live.size).getD 0) := by
  unfold liveCount
  rw [runOn_bind, runOn_current?]
  rcases sc.own? with _ | id
  · rfl
  · rcases hset : ((sc.thread.table id).get? reservedSlot).bind Cell.liveSet? with _ | set
    all_goals simp [hset, Table.live]

/-- **Live sets and slots stay in step**: after any steps of any session, the table of each thread
lists exactly the variables that are set in it, so the number of live variables is the size of the
table. Only a thread that a panic stopped while it was being cleared is excepted. -/
theorem Session.agrees_of_run (environment : Environment) (depth : Nat) (steps : List Step) :
    let s := ((Session.start environment depth).run steps).2
    ∀ a ∈ s.actors, a.thread.interrupted = false →
      (∀ t, a.table? s.process = some t → t.Agrees) ∧
        (runOn liveCount { process := s.process, thread := a.thread }).1 =
          .ok (((a.table? s.process).map (·.size)).getD 0) := by
  intro s a ha hi
  have hs : s.Sound := (Session.sound_start environment depth).run steps
  have hagrees : ∀ t, a.table? s.process = some t → t.Agrees := by
    intro t ht
    obtain ⟨id, hid, rfl⟩ := Option.map_eq_some_iff.1 ht
    exact hs.agrees a ha hi id (Thread.holds_of_own? hid) (by simp)
  refine ⟨hagrees, ?_⟩
  rw [runOn_liveCount]
  unfold Actor.table? at hagrees ⊢
  rcases ho : a.thread.own? s.process.epoch with _ | id
  · simp [Scene.own?, ho]
  · simp [Scene.own?, ho, (hagrees _ (by rw [ho]; rfl)).size_live]

/-- A removal hook that clears the thread again, in a thread that carries its table: two variables
are set, the clearing ends, and one is set anew. -/
def nestedClearing : List Step :=
  [.run "main" (.declare .int (.plain .int) (some
      { nested := some fun _ => .step "remove_all" (.onThread .clear) fun _ => .done none
        panics := fun _ => none })),
    .run "main" (.declare .int (.plain .int) none),
    .spawn "a" .carried none none,
    .run "a" (.access 0 .ambient (.set (.int 1))),
    .run "a" (.access 1 .ambient (.set (.int 2))),
    .run "a" (.onThread .clear),
    .run "a" (.access 1 .ambient (.set (.int 3)))]

theorem Session.agrees_of_run_nestedClearing :
    let s := ((Session.start {} nestingLimit).run nestedClearing).2
    (∀ a ∈ s.actors, a.thread.interrupted = false) ∧
      ∀ a ∈ s.actors, (∀ t, a.table? s.process = some t → t.Agrees) ∧
        (runOn liveCount { process := s.process, thread := a.thread }).1 =
          .ok (((a.table? s.process).map (·.size)).getD 0) := by
  intro s
  have hi : ∀ a ∈ s.actors, a.thread.interrupted = false := by decide +kernel
  exact ⟨hi, fun a ha => Session.agrees_of_run {} nestingLimit nestedClearing a ha (hi a ha)⟩

end ThreadSlots
