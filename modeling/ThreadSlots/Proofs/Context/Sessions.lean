import ThreadSlots.Proofs.Context.Commands
import ThreadSlots.Proofs.Paths.Sessions

/-!
# A context stays its thread's own table

A thread that was started with its context carries that table to its end, unless it releases it, and may
name it in either way: two programs that differ in nothing else lead to the same reports and to the same
state after every step (`Session.context_forms_agree`). Each of them does the same as its ambient form
(`Session.run_ambientForm`), step by step (`Session.step_ambientForm`).
-/

namespace ThreadSlots

open Std (ExtTreeMap)
open Storage

/-- The step, whose command has its ambient form. -/
def Step.ambientForm : Step → Step
  | .run actor c => .run actor c.ambientForm
  | step => step

/-- The thread of the name goes on, with a command that stays, or ends. It uses no thread-local of its
own, whose destructor would run when the context is gone. -/
def Step.StaysOn (name : String) : Step → Prop
  | .run actor c => actor = name ∧ Command.Only Command.Stays c
  | .spawn .. | .use .. => False
  | .join actor _ => actor = name

def Actor.ambientForm (a : Actor) : Actor := { a with thread := a.thread.ambientForm }

namespace Scene

theorem OnContext.of_bySlot {id : TableId} {p : Process} {t : Thread} {events : List Event}
    {partings : List Parting} {arrivals : List Arrival} {sc : Scene} (h : sc.OnContext id)
    (hslots : p.bySlot = sc.process.bySlot) (ht : t = sc.thread) :
    OnContext id ⟨⟨p, t, events⟩, partings, arrivals⟩ := by
  subst ht
  exact ⟨h.carried, h.named, fun slot v hv => h.callbacks slot v (hslots ▸ hv), h.tracks⟩

theorem unwind_ambientForm (sc : Scene) (n : Nat) :
    sc.ambientForm.unwind n = (sc.unwind n).ambientForm := by
  have hdeath := (Process.Aside.reportDeath sc.thread.id sc.thread.sentinel).ambientForm sc.process
  rw [unwind_eq, unwind_eq]
  refine congrArg (fun p => Scene.mk ⟨p, _, _⟩ _ _) ?_
  show (if sc.thread.sentinel.since?.any (n ≤ ·) then _ else _) = Process.ambientForm (ite ..)
  split
  · exact hdeath
  · rfl

end Scene

namespace Session

/-- The session, in which all code that can be called back has its ambient form. -/
def ambientForm (s : Session) : Session :=
  { s with process := s.process.ambientForm, actors := s.actors.map Actor.ambientForm }

/-- If the thread of the name is there, it is on its context, and its code has no thread-locals. -/
def OnContext (id : TableId) (name : String) (s : Session) : Prop :=
  ∀ a, s.actor? name = some a →
    a.late = [] ∧ Scene.OnContext id { process := s.process, thread := a.thread }

variable {s : Session} {name : String} {id : TableId}

theorem actor?_ambientForm (s : Session) (name : String) :
    s.ambientForm.actor? name = (s.actor? name).map Actor.ambientForm := by
  unfold actor? ambientForm
  dsimp only
  rw [List.find?_map]
  rfl

theorem setThread_ambientForm (s : Session) (name : String) (t : Thread) :
    (s.setThread name t).ambientForm = s.ambientForm.setThread name t.ambientForm := by
  unfold setThread ambientForm
  dsimp only
  rw [List.map_map, List.map_map]
  congr 1
  refine List.map_congr_left fun a _ => ?_
  show Actor.ambientForm (if a.name == name then _ else a) = if a.name == name then _ else _
  split <;> rfl

/-! ## Steps -/

theorem act_ambientForm {α : Type} {x y : Storage α} (hxy : Coupled (Scene.Recast id) Eq x y)
    {sc : Scene} (h : sc.OnContext id) :
    act sc.ambientForm.process sc.ambientForm.thread y =
        ((act sc.process sc.thread x).1, (act sc.process sc.thread x).2.ambientForm) ∧
      (act sc.process sc.thread x).2.OnContext id := by
  obtain ⟨ho, hform, hs⟩ := hxy { process := sc.process, thread := sc.thread }
    { process := sc.ambientForm.process, thread := sc.ambientForm.thread } ⟨rfl, h.of_bySlot rfl rfl⟩
  refine ⟨?_, hs.of_bySlot (congrArg (·.bySlot) (Process.stripped_settle _)) rfl⟩
  unfold act
  dsimp only
  rw [ho.eq, hform]
  exact congrArg (fun p => (_, Scene.mk ⟨p, _, _⟩ _ _)) (Process.Aside.settle.ambientForm _)

theorem command_ambientForm (h : s.OnContext id name) {c : Command}
    (hc : Command.Only Command.Stays c) :
    s.ambientForm.command name c.ambientForm =
        ((s.command name c).1, (s.command name c).2.ambientForm) ∧
      (s.command name c).2.OnContext id name := by
  unfold Session.command
  rw [actor?_ambientForm]
  cases ha : s.actor? name with
  | none => exact ⟨rfl, h⟩
  | some a =>
    obtain ⟨hlate, hon⟩ := h a ha
    obtain ⟨hrun, hs⟩ := act_ambientForm (Context.perform (fun _ => Context.enter s.depth) hc) hon
    have hlook := (act s.process a.thread (perform (ThreadSlots.enter s.depth) c)).2.thread.glance_ambientForm
      (act s.process a.thread (perform (ThreadSlots.enter s.depth) c)).2.process.epoch
    have hrun' : act s.ambientForm.process a.ambientForm.thread
        (perform (ThreadSlots.enter s.ambientForm.depth) c.ambientForm) = _ := hrun
    rw [Option.map_some]
    dsimp only
    rw [hrun']
    dsimp only
    refine ⟨?_, ?_⟩
    · rw [setThread_ambientForm]
      exact congrArg (fun glance => (StepReport.mk _ _ (some glance), _)) hlook
    · intro b hb
      rw [actor?_setThread] at hb
      have hb' : some _ = some b := (congrArg (Option.map _) ha).symm.trans hb
      cases hb'
      exact ⟨hlate, hs.of_bySlot rfl rfl⟩

theorem clearOnExit_ambientForm (kind : ThreadKind) (depth : Nat) {sc : Scene} (h : sc.OnContext id) :
    runOn (clearOnExit kind depth) sc.ambientForm =
      ((runOn (clearOnExit kind depth) sc).1, (runOn (clearOnExit kind depth) sc).2.ambientForm) := by
  unfold clearOnExit
  split
  · exact Context.clearAndRelease (fun _ => Context.enter depth) h
  · rfl

theorem exit_ambientForm {a : Actor} (hlate : a.late = [])
    (h : Scene.OnContext id { process := s.process, thread := a.thread }) (panics : Option String) :
    exit s.depth s.process.ambientForm a.ambientForm panics =
      ((exit s.depth s.process a panics).1, (exit s.depth s.process a panics).2.ambientForm) := by
  have hclear : runOn (clearOnExit a.ambientForm.kind s.depth)
      { process := s.process.ambientForm, thread := a.ambientForm.thread } = _ :=
    clearOnExit_ambientForm a.kind s.depth h
  have hlate' : a.ambientForm.late = [] := hlate
  unfold exit
  rw [hclear, hlate, hlate']
  generalize runOn (clearOnExit a.kind s.depth) _ = ended
  obtain ⟨result, sc⟩ := ended
  simp only [tearDown, runDestructors, sc.unwind_ambientForm]
  exact congrArg (fun p => (_, Scene.mk ⟨p, _, _⟩ _ _)) (Process.Aside.settle.ambientForm _)

theorem join_ambientForm (h : s.OnContext id name) (panics : Option String) :
    s.ambientForm.join name panics = ((s.join name panics).1, (s.join name panics).2.ambientForm) ∧
      (s.join name panics).2.OnContext id name := by
  unfold join
  rw [actor?_ambientForm]
  cases ha : s.actor? name with
  | none => exact ⟨rfl, h⟩
  | some a =>
    obtain ⟨hlate, hon⟩ := h a ha
    have hexit : exit s.ambientForm.depth s.ambientForm.process a.ambientForm panics = _ :=
      exit_ambientForm hlate hon panics
    rw [Option.map_some]
    dsimp only
    rw [hexit]
    refine ⟨?_, fun b hb => ?_⟩
    · unfold ambientForm
      dsimp only
      rw [List.filter_map]
      rfl
    · -- every thread of the name is gone
      unfold actor? at hb
      dsimp only at hb
      have hname : b.name = name := by simpa using List.find?_some hb
      have hmem := List.mem_of_find?_eq_some hb
      exact absurd hname (bne_iff_ne.1 (List.mem_filter.1 hmem).2)

/-- A step of the thread does the same as its ambient form, and leaves the thread on its context. -/
theorem step_ambientForm (h : s.OnContext id name) {x : Step} (hx : x.StaysOn name) :
    s.ambientForm.step x.ambientForm = ((s.step x).1, (s.step x).2.ambientForm) ∧
      (s.step x).2.OnContext id name := by
  cases x with
  | run actor c =>
    obtain ⟨rfl, hc⟩ := hx
    exact command_ambientForm h hc
  | spawn | use => exact hx.elim
  | join actor panics =>
    obtain rfl : actor = name := hx
    exact join_ambientForm h panics

theorem run_ambientForm (h : s.OnContext id name) {steps : List Step}
    (hsteps : ∀ x ∈ steps, x.StaysOn name) :
    s.ambientForm.run (steps.map Step.ambientForm) = ((s.run steps).1, (s.run steps).2.ambientForm) ∧
      (s.run steps).2.OnContext id name := by
  induction steps generalizing s with
  | nil => exact ⟨rfl, h⟩
  | cons x steps ih =>
    obtain ⟨hx, hsteps⟩ := List.forall_mem_cons.1 hsteps
    obtain ⟨hstep, hs⟩ := step_ambientForm h hx
    obtain ⟨hrest, hs'⟩ := ih hs hsteps
    refine ⟨?_, hs'⟩
    rw [List.map_cons]
    unfold run
    rw [hstep]
    dsimp only
    rw [hrest]

/-! ## A thread on its context -/

/-- A thread that is started with its context comes up carrying a blank table, which the context
names. -/
theorem startThread_withContext (p : Process) (label : Option String) :
    p.startThread .withContext label (Late.first none).length =
      (true,
        { id := p.nextThread
          tables :=
            (∅ : ExtTreeMap TableId SlotTable).insert 0 { policy := p.inEffect.sentinelPolicy }
          nextTable := 1
          locals := { carried := .inUse 0 (some 0), fallback := .inUse 1 none, uses := 2 }
          names := [(contextName, 0)]
          label := label },
        Process.count { p with settings := some p.inEffect, nextThread := p.nextThread + 1 }
          .tablesCreated) := by
  obtain ⟨⟨supply, tally, environment, settings⟩, burned⟩ := p
  cases settings <;> rfl

/-- The session with one more thread, which was started with its context. -/
def withContext (s : Session) (name : String) (label : Option String) : Session :=
  (s.spawn name .withContext label none).2

theorem onContext_withContext (hfresh : s.actor? name = none) (hcode : s.process.Only Command.Stays)
    (label : Option String) : (s.withContext name label).OnContext 0 name := by
  intro a ha
  have hfound := actor?_spawn hfresh .withContext label none
  rw [startThread_withContext] at hfound
  unfold withContext at ha
  rw [hfound] at ha
  cases ha
  refine ⟨rfl, rfl, rfl, ?_, fun i => ?_⟩
  · unfold withContext spawn
    dsimp only
    rw [startThread_withContext]
    exact hcode
  · unfold Thread.table
    rw [ExtTreeMap.getD_insert]
    split
    · exact .blank _
    · rw [ExtTreeMap.getD_empty]
      exact .blank _

theorem withContext_ambientForm (s : Session) (name : String) (label : Option String) :
    s.ambientForm.withContext name label = (s.withContext name label).ambientForm := by
  unfold withContext spawn
  dsimp only
  rw [startThread_withContext, startThread_withContext]
  have hblank (policy : SentinelPolicy) :
      ((∅ : ExtTreeMap TableId SlotTable).insert 0 { policy := policy }).map
          (fun _ => Table.ambientForm) =
        (∅ : ExtTreeMap TableId SlotTable).insert 0 { policy := policy } := by
    rw [map_insert, map_empty, Table.blank_ambientForm]
  unfold ambientForm
  dsimp only
  rw [List.map_append]
  unfold Actor.ambientForm Thread.ambientForm
  simp only [List.map_cons, List.map_nil, hblank]
  rfl

/-- **The context stays the thread's own table**, and it does not matter by which of the two names a
program reaches it. Of two programs that only differ in this, also where variables call code back and
where nested code runs, each step leads to the same result and events, and to the same state up to
the form of the code. The programs may clear the thread, also from within a clearing, invalidate
fallback tables, ask for the table to be carried, panic and end; they may not release it. -/
theorem context_forms_agree (s s' : Session) (name : String) (label : Option String)
    (hsame : s'.ambientForm = s.ambientForm) (hfresh : s.actor? name = none)
    (hcode : s.process.Only Command.Stays) (hcode' : s'.process.Only Command.Stays)
    (steps steps' : List Step)
    (hforms : steps'.map Step.ambientForm = steps.map Step.ambientForm)
    (hsteps : ∀ x ∈ steps, x.StaysOn name) (hsteps' : ∀ x ∈ steps', x.StaysOn name) :
    (s.spawn name .withContext label none).1.result = .spawned true (some label) ∧
      ((s'.withContext name label).run steps').1 = ((s.withContext name label).run steps).1 ∧
      (∀ n, ((s'.withContext name label).run (steps'.take n)).2.ambientForm =
        ((s.withContext name label).run (steps.take n)).2.ambientForm) ∧
      ∃ id, ∀ n a, ((s.withContext name label).run (steps.take n)).2.actor? name = some a →
        a.thread.carried? = some id ∧ a.thread.named? contextName = some id := by
  have hfresh' : s'.actor? name = none := by
    have hnone := actor?_ambientForm s' name
    rw [hsame, actor?_ambientForm, hfresh] at hnone
    exact Option.map_eq_none_iff.1 hnone.symm
  have hbegun : (s'.withContext name label).ambientForm = (s.withContext name label).ambientForm := by
    rw [← withContext_ambientForm, ← withContext_ambientForm, hsame]
  have hagree : ∀ xs xs' : List Step, xs'.map Step.ambientForm = xs.map Step.ambientForm →
      (∀ x ∈ xs, x.StaysOn name) → (∀ x ∈ xs', x.StaysOn name) →
      ((s'.withContext name label).run xs').1 = ((s.withContext name label).run xs).1 ∧
        ((s'.withContext name label).run xs').2.ambientForm =
          ((s.withContext name label).run xs).2.ambientForm := by
    intro xs xs' hxs hstays hstays'
    have hrun := (run_ambientForm (onContext_withContext hfresh hcode label) hstays).1
    have hrun' := (run_ambientForm (onContext_withContext hfresh' hcode' label) hstays').1
    rw [hbegun, hxs, hrun] at hrun'
    exact ⟨(congrArg (·.1) hrun').symm, (congrArg (·.2) hrun').symm⟩
  refine ⟨?_, (hagree _ _ hforms hsteps hsteps').1, fun n => ?_, 0, fun n a ha => ?_⟩
  · unfold spawn
    dsimp only
    rw [startThread_withContext]
    rfl
  · refine (hagree _ _ ?_ (fun x hx => hsteps x (List.mem_of_mem_take hx)) fun x hx =>
      hsteps' x (List.mem_of_mem_take hx)).2
    rw [List.map_take, List.map_take, hforms]
  · have hstays : ∀ x ∈ steps.take n, x.StaysOn name := fun x hx => hsteps x (List.mem_of_mem_take hx)
    have hon := (run_ambientForm (onContext_withContext hfresh hcode label) hstays).2
    obtain ⟨-, hcontext⟩ := hon a ha
    exact ⟨hcontext.carried, hcontext.named⟩

/-- A program on two variables, reached at the given place. The second one's initializer reads the
first one; its removal hook clears the thread, also while it is being cleared, sets the first one and
panics for one value. -/
def hookedProgram (place : Place) : List Step :=
  [.run "a" (.declare .int (.plain .int) none),
    .run "a" (.declare .int
      { nested := some (.step "read" (.access 0 place .get) fun _ => .done none)
        outcome := fun n _ => .ok (.int n)
        silent := false }
      (some
        { nested := some fun _ =>
            .step "clear" (.onThread .clear) fun _ =>
              .step "set" (.access 0 place (.set (.int 9))) fun _ => .done none
          panics := fun value => if value = .int 3 then some "three" else none })),
    .run "a" (.access 1 place (.withValue (some fun _ =>
      .step "replace" (.access 0 place (.replace (.int 5))) fun _ => .done none))),
    .run "a" (.onThread .clear), .run "a" (.onThread (.adopt "own")), .run "a" (.onThread .destroy),
    .run "a" (.access 1 place (.set (.int 3))), .run "a" (.onThread .clear),
    .run "a" (.access 0 place .take), .join "a" none]

theorem context_forms_agree_hookedProgram :
    (start {} nestingLimit).actor? "a" = none ∧
      (start {} nestingLimit).process.Only Command.Stays ∧
      (hookedProgram (.table contextName)).map Step.ambientForm =
        (hookedProgram .ambient).map Step.ambientForm ∧
      (∀ place, ∀ x ∈ hookedProgram place, x.StaysOn "a") ∧
      ((start {} nestingLimit).spawn "a" .withContext none none).1.result = .spawned true (some none) ∧
      (((start {} nestingLimit).withContext "a" none).run (hookedProgram (.table contextName))).1 =
        (((start {} nestingLimit).withContext "a" none).run (hookedProgram .ambient)).1 ∧
      (∀ n, (((start {} nestingLimit).withContext "a" none).run
          ((hookedProgram (.table contextName)).take n)).2.ambientForm =
        (((start {} nestingLimit).withContext "a" none).run
          ((hookedProgram .ambient).take n)).2.ambientForm) ∧
      ∃ id, ∀ n a, (((start {} nestingLimit).withContext "a" none).run
          ((hookedProgram .ambient).take n)).2.actor? "a" = some a →
        a.thread.carried? = some id ∧ a.thread.named? contextName = some id := by
  have hfresh : (start {} nestingLimit).actor? "a" = none := Option.isNone_iff_eq_none.1 (by decide)
  have hcode : (start {} nestingLimit).process.Only Command.Stays := by
    intro slot v hv
    cases (ExtTreeMap.getElem?_empty (a := slot)).symm.trans hv
  have hforms : (hookedProgram (.table contextName)).map Step.ambientForm =
    (hookedProgram .ambient).map Step.ambientForm := rfl
  have hstays : ∀ place, ∀ x ∈ hookedProgram place, x.StaysOn "a" := by
    intro place
    have haccess : ∀ handle (op : Access), (∀ body, op ≠ .withValue (some body)) →
        Command.Only Command.Stays (.access handle place op) := by
      intro handle op hop
      refine .of_leaf trivial fun s hs => ?_
      cases hs
      exact hop _ rfl
    have hclear : Command.Only Command.Stays (.onThread .clear) := .of_leaf trivial nofun
    simp only [hookedProgram, List.forall_mem_cons]
    refine ⟨⟨rfl, .intro trivial fun s hs => ?_⟩, ⟨rfl, .intro trivial fun s hs => ?_⟩,
      ⟨rfl, .intro trivial fun s hs => ?_⟩, ⟨rfl, hclear⟩, ⟨rfl, .of_leaf trivial nofun⟩,
      ⟨rfl, .of_leaf trivial nofun⟩, ⟨rfl, haccess 1 _ nofun⟩, ⟨rfl, hclear⟩,
      ⟨rfl, haccess 0 _ nofun⟩, rfl, nofun⟩
    · cases hs with
      | declare _ hs =>
        cases hs with
        | initializer hnested => cases hnested
        | hook hhook => cases hhook
    · cases hs with
      | declare _ hs =>
        cases hs with
        | initializer hnested =>
          cases hnested
          exact .step _ (haccess 0 _ nofun) fun _ => .done _
        | hook hhook hnested value =>
          cases hhook
          cases hnested
          exact .step _ hclear fun _ => .step _ (haccess 0 _ nofun) fun _ => .done _
    · cases hs
      exact .step _ (haccess 0 _ nofun) fun _ => .done _
  exact ⟨hfresh, hcode, hforms, hstays,
    context_forms_agree _ _ "a" none rfl hfresh hcode hcode _ _ hforms (hstays _) (hstays _)⟩

end Session

end ThreadSlots
