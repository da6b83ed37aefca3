import ThreadSlots.Proofs.Bare.Commands
import ThreadSlots.Proofs.Refusals.Writes

/-!
# What a thread does after its thread-locals are destroyed

The storage of such a thread is inert (`Session.inert_of_destroyed`). Whatever commands it still does
about its own storage, they answer, and their nested code is answered, what the machine without tables
answers: no value comes back that any of them has stored. They call no removal hook, no table that
was there before is written, and no thread loses its table. In a session destructors of the thread's own
code do such commands, and the threads that stay are as they were.
-/

namespace ThreadSlots

open Std (ExtTreeMap)
open Storage

/-- All that the commands lead to is what they lead to without tables. -/
structure Scene.Inert (sc : Scene) (limit : Nat) (cs : List Command) : Prop where
  answers : (Session.runLate limit sc cs).1 = (Bare.answers sc.given limit sc.trace cs).1
  trace : (Session.runLate limit sc cs).2.trace = (Bare.answers sc.given limit sc.trace cs).2
  /-- The tables that there were are as before, and no removal hook was called. -/
  idle : sc.Idle sc.thread.nextTable (Session.runLate limit sc cs).2
  carried? : (Session.runLate limit sc cs).2.thread.carried? = none
  own? : (Session.runLate limit sc cs).2.own? = none
  /-- No thread has lost its table. -/
  others : ∀ t : Thread,
    t.own? (Session.runLate limit sc cs).2.process.epoch = t.own? sc.process.epoch

theorem Scene.Bereft.inert {given : Bare.Given} {sc : Scene} (h : sc.Bereft given) (limit : Nat)
    {cs : List Command} (hcs : ∀ c ∈ cs, Command.Only Command.IsOwn c) : sc.Inert limit cs := by
  obtain ⟨hanswers, htrace, hidle⟩ := Bare.answers_runLate limit hcs h
  have hended := h.idle hidle
  rw [← h.given] at hanswers htrace
  exact ⟨hanswers, htrace, hidle, hended.carried?, hended.own?, fun t => congrArg t.own? hidle.epoch⟩

/-- Variables that were not made since then do not matter. -/
theorem Process.Prepares.later {P : Command → Prop} {p p' : Process} (h : p.Prepares P) (hp : p.Sound)
    (hlater : p.Later p') (hslots : p'.bySlot.keys = p.bySlot.keys) : p'.Prepares P := by
  intro slot v hv
  have hmem : slot ∈ p.bySlot := ExtTreeMap.mem_keys.1 (Process.mem_slots hslots hv)
  obtain ⟨w, hw⟩ := Option.isSome_iff_exists.1 (ExtTreeMap.mem_iff_isSome_getElem?.1 hmem)
  obtain ⟨rfl, -⟩ := hp.bySlot slot w hw
  obtain rfl : w = v := Option.some.inj ((hlater.knows w hw).symm.trans hv)
  exact h _ w hw

namespace Session

/-- The scene in which the destructor of a thread-local of an exiting thread's own code begins its
commands, given what its code used later. -/
def atDestructor (s : Session) (a : Actor) (later : List Late) (code : Late) : Scene :=
  (runDestructors s.depth (left s.depth s.process a) later).2.unwind (code.since + 1)

/-- What the destructors have answered that ran before. -/
def answersBefore (s : Session) (a : Actor) (later : List Late) : List (Except String Reply) :=
  (runDestructors s.depth (left s.depth s.process a) later).1

/-- The session waits for the thread, whose destructors do the commands from the scene on: they lead to
what they lead to without tables. -/
structure EndsInert (s : Session) (name : String) (panics : Option String)
    (before : List (Except String Reply)) (sc : Scene) (cs : List Command) : Prop where
  late : ∃ panic, (s.join name panics).1.result =
    .joined { panic, late := some (before ++ (Bare.answers sc.given s.depth sc.trace cs).1) }
  events : (s.join name panics).1.events =
    (Bare.answers sc.given s.depth sc.trace cs).2.events.reverse
  /-- The other threads stay, and have the tables that they had then. -/
  others : ∀ b ∈ s.actors, b.name ≠ name → b ∈ (s.join name panics).2.actors ∧
    b.thread.own? (s.join name panics).2.process.epoch = b.thread.own? sc.process.epoch

variable {s : Session}

theorem course_atDestructor {name : String} {a : Actor} (ha : s.actor? name = some a) (hs : s.Able)
    (later : List Late) (code : Late) :
    Course [] { process := s.process, thread := a.thread } (s.atDestructor a later code) := by
  have hsound := (hs.scene (mem_actors ha)).sound
  have hleft := course_left s.depth hsound.process hsound.thread
  have hran := course_runDestructors s.depth later (hleft.sound hsound)
  exact (hleft.trans hran).trans (course_unwind (hran.sound (hleft.sound hsound)) _)

/-- Waiting for a thread runs the last destructors of its code from that scene. -/
theorem exists_join_eq {name : String} {a : Actor} {later earlier : List Late} {code : Late}
    (ha : s.actor? name = some a) (hlate : a.late = later ++ code :: earlier)
    (panics : Option String) :
    ∃ panic,
      let ran := runDestructors s.depth (s.atDestructor a later code) (code :: earlier)
      s.join name panics =
        ({ result := .joined { panic := panic, late := some (s.answersBefore a later ++ ran.1) }
           events := (ran.2.unwind 0).events.reverse },
          { s with
            process := (ran.2.unwind 0).process.settle
            actors := s.actors.filter (·.name != name) }) := by
  refine ⟨(exit s.depth s.process a panics).1.panic, ?_⟩
  have hne : (later ++ code :: earlier).isEmpty = false := by simp
  unfold atDestructor
  rw [runDestructors_unwind]
  unfold join
  rw [ha]
  dsimp only [exit, tearDown]
  rw [hlate, runDestructors_append, hne]
  rfl

theorem endsInert_of_bereft {name : String} {a : Actor} {later earlier : List Late} {code : Late}
    {given : Bare.Given} (ha : s.actor? name = some a) (hlate : a.late = later ++ code :: earlier)
    (h : (s.atDestructor a later code).Bereft given)
    (hcs : ∀ c ∈ (code :: earlier).flatMap (·.commands), Command.Only Command.IsOwn c)
    (panics : Option String) :
    s.EndsInert name panics (s.answersBefore a later) (s.atDestructor a later code)
      ((code :: earlier).flatMap (·.commands)) := by
  obtain ⟨panic, hjoin⟩ := exists_join_eq ha hlate panics
  obtain ⟨hanswers, htrace, hidle⟩ := Bare.answers_runDestructors s.depth hcs h
  rw [← h.given] at hanswers htrace
  constructor
  · rw [hjoin, hanswers]
    exact ⟨panic, rfl⟩
  · rw [hjoin, ← htrace, Scene.unwind_eq]
    rfl
  · intro b hb hne
    rw [hjoin]
    refine ⟨List.mem_filter.2 ⟨hb, bne_iff_ne.2 hne⟩, congrArg b.thread.own? ?_⟩
    generalize (runDestructors s.depth (s.atDestructor a later code) (code :: earlier)).2 = ended
      at hidle ⊢
    have hsettled := congrArg (·.epoch) (ended.unwind 0).process.stripped_settle
    have hunwound := congrArg (·.epoch) (ended.stripped_unwind 0)
    exact (hsettled.trans hunwound).trans hidle.epoch

/-- **Storage is inert on a thread whose thread-locals are destroyed.** Wherever a session sees such a
thread, all that it does about its own storage amounts to a machine without tables, nested code
included, as long as initializers too do nothing else. When the session waits for a thread, this holds
of all that destructors of its code still do once those of the storage have run, and the other threads
are as they were. -/
theorem inert_of_destroyed (environment : Environment) (depth : Nat) (steps : List Step) :
    let s := ((start environment depth).run steps).2
    (∀ sc, s.Sees sc → sc.thread.locals.Gone → sc.process.Prepares Command.IsOwn →
        ∀ limit cs, (∀ c ∈ cs, Command.Only Command.IsOwn c) → sc.Inert limit cs) ∧
      ∀ name a later code earlier, s.actor? name = some a → a.late = later ++ code :: earlier →
        (s.atDestructor a later code).thread.locals.Gone →
        (s.atDestructor a later code).process.Prepares Command.IsOwn →
        (∀ c ∈ (code :: earlier).flatMap (·.commands), Command.Only Command.IsOwn c) →
        ∀ panics, s.EndsInert name panics (s.answersBefore a later) (s.atDestructor a later code)
          ((code :: earlier).flatMap (·.commands)) := by
  intro s
  have hs : s.Able := (able_start environment depth).run steps
  have hbereft : ∀ sc, s.Sees sc → sc.thread.locals.Gone → sc.process.Prepares Command.IsOwn →
      sc.Bereft sc.given :=
    fun sc hsc hlocals hprepares => ⟨hlocals, (hs.sees hsc).sound.process, rfl, hprepares⟩
  refine ⟨fun sc hsc hlocals hprepares limit cs hcs =>
      (hbereft sc hsc hlocals hprepares).inert limit hcs,
    fun name a later code earlier ha hlate hgone hprepares hcs panics => ?_⟩
  have hsees : s.Sees (s.atDestructor a later code) :=
    .running (mem_actors ha) (course_atDestructor ha hs later code)
  exact endsInert_of_bereft ha hlate (hbereft _ hsees hgone hprepares) hcs panics

/-- What the destructor of a thread-local does that was used before the storage. -/
def lateCommands : List Command :=
  [.access 0 .ambient (.set (.int 3)), .access 0 .ambient .isSet, .access 1 .ambient .get,
    .access 1 .ambient (.withValue (some fun _ =>
      .step "take" (.access 0 .ambient .take) fun _ => .done none)),
    .onThread .clear, .onThread .adoptSize]

/-- What the destructor of a thread-local does that was used after the storage. -/
def earlyCommands : List Command := [.access 0 .ambient (.set (.int 8))]

/-- Two variables, of which the first has a removal hook and the second one's initializer sets and
reads the first. A thread that has set the first has used two thread-locals of its own. -/
def lateTurns : List Step :=
  [.run mainName (.declare .int (.plain .int) (some { nested := none, panics := fun _ => none })),
    .run mainName (.declare .int
      { nested := some (.step "set" (.access 0 .ambient (.set (.int 5))) fun _ =>
          .step "read" (.access 0 .ambient .get) fun _ => .done none)
        outcome := fun n _ => .ok (.int (n + 1))
        silent := false } none),
    .spawn "a" .carried none (some lateCommands),
    .use "a" earlyCommands,
    .run "a" (.access 0 .ambient (.set (.int 1)))]

/-- The values that initializers have made, each with its variable's handle. -/
def madeValues : List Event → List (Nat × Value) :=
  List.filterMap fun
    | .initialized handle value => some (handle, value)
    | _ => none

/-- Their initializers concern the thread's own storage. -/
theorem prepares_lateTurns :
    ((start {} nestingLimit).run lateTurns).2.process.Prepares Command.IsOwn := by
  intro slot v hv
  have hslots : ((start {} nestingLimit).run lateTurns).2.process.bySlot.keys = [1, 2] := by
    decide +kernel
  have hmem : slot ∈ [1, 2] := Process.mem_slots hslots hv
  simp only [List.mem_cons, List.not_mem_nil, or_false] at hmem
  rcases hmem with rfl | rfl
  · cases hv
    intro s hs
    cases hs
  · cases hv
    intro s hs
    cases hs
    exact .step _ (.of_leaf trivial nofun) fun _ => .step _ (.of_leaf trivial nofun) fun _ => .done _

theorem inert_of_destroyed_lateTurns :
    let s := ((start {} nestingLimit).run lateTurns).2
    let early : Late := { since := 3, commands := earlyCommands }
    let late : Late := { since := 0, commands := lateCommands }
    ∃ a, s.actor? "a" = some a ∧ a.late = [early] ++ [late] ∧
      (s.atDestructor a [early] late).thread.locals.Gone ∧
      (s.atDestructor a [early] late).process.Prepares Command.IsOwn ∧
      (∀ c ∈ lateCommands, Command.Only Command.IsOwn c) ∧
      (s.atDestructor a [early] late).Inert nestingLimit lateCommands ∧
      s.EndsInert "a" none (s.answersBefore a [early]) (s.atDestructor a [early] late) lateCommands ∧
      hookCalls (s.join "a" none).1.events = [(0, .int 1)] ∧
      madeValues (s.join "a" none).1.events = [(1, .int 1), (1, .int 2)] := by
  intro s early late
  have hlate : (s.actor? "a").map (·.late) = some [early, late] := rfl
  have hhooks : hookCalls (s.join "a" none).1.events = [(0, .int 1)] := by decide +kernel
  have hmade : madeValues (s.join "a" none).1.events = [(1, .int 1), (1, .int 2)] := by
    decide +kernel
  have hview : (s.actor? "a").map (fun a =>
      ((s.atDestructor a [early] late).process.bySlot.keys,
        decide (s.atDestructor a [early] late).thread.locals.Gone)) =
      some (s.process.bySlot.keys, true) := by
    decide +kernel
  have hprepared := prepares_lateTurns
  have hinert := inert_of_destroyed {} nestingLimit lateTurns
  have hable : s.Able := (able_start {} nestingLimit).run lateTurns
  -- from here on the session is not evaluated any more
  have hs : ((start {} nestingLimit).run lateTurns).2 = s := rfl
  rw [hs] at hinert hprepared
  clear_value s
  obtain ⟨a, ha, hlate⟩ := Option.map_eq_some_iff.1 hlate
  rw [ha] at hview
  simp only [Option.map_some, Option.some.injEq, Prod.mk.injEq, decide_eq_true_eq] at hview
  obtain ⟨hslots, hgone⟩ := hview
  have hprocess := hable.sound.process
  have hcourse := course_atDestructor ha hable [early] late
  have hprepares : (s.atDestructor a [early] late).process.Prepares Command.IsOwn :=
    hprepared.later hprocess (hcourse.grows hprocess).2 hslots
  have hcs : ∀ c ∈ lateCommands, Command.Only Command.IsOwn c := by
    simp only [lateCommands, List.forall_mem_cons]
    refine ⟨.of_leaf trivial nofun, .of_leaf trivial nofun, .of_leaf trivial nofun,
      .intro trivial fun s hs => ?_, .of_leaf nofun nofun, .of_leaf nofun nofun, nofun⟩
    cases hs
    exact .step _ (.of_leaf trivial nofun) fun _ => .done _
  have hends := hinert.2 "a" a [early] late [] ha hlate hgone hprepares (by simpa [late] using hcs) none
  rw [List.flatMap_singleton] at hends
  exact ⟨a, ha, hlate, hgone, hprepares, hcs,
    hinert.1 _ (.running (mem_actors ha) hcourse) hgone hprepares nestingLimit lateCommands hcs,
    hends, hhooks, hmade⟩

end Session

end ThreadSlots
