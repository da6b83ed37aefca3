import Mathlib.Data.List.Forall2
import ThreadSlots.Proofs.Agreement
import ThreadSlots.Proofs.Maps.Commands

/-!
# The storage engine refines a plain map

In every run of plain steps, over any number of threads, the result and the events of each step are
those of the machine in which threads and explicit tables own maps (`Session.account_of_run`). One
step keeps the two sessions alike (`Session.Mirrors.step`), and a run does so by induction.
-/

namespace ThreadSlots

open Storage
open Maps (Turn World ValueMap Own Owner Shared)

/-- The thread has what its counterpart owns, and its code has no thread-locals of its own. -/
structure Actor.Mirrors (a : Actor) (p : Process) (destroys : Nat) (b : Maps.Actor) : Prop where
  name : b.name = a.name
  kind : b.kind = a.kind
  late : a.late = []
  thread : a.thread.Mirrors p destroys b.owner

/-- The session is what the session of maps shows. -/
structure Session.Mirrors (s : Session) (m : Maps.Session) : Prop where
  process : s.process.Mirrors m.destroys m.shared
  actors : List.Forall₂ (fun a b => a.Mirrors s.process m.destroys b) s.actors m.actors
  depth : m.depth = s.depth

theorem Process.Mirrors.renamed {p : Process} {destroys : Nat} {s : Shared}
    (h : p.Mirrors destroys s) (n : ThreadId) (names : List (String × ThreadId)) :
    { p with nextThread := n, threadNames := names }.Mirrors destroys s := by
  refine ⟨h.sound.of_eq ?_, h.pure, h.supply, h.bySlot, h.byHandle, h.nextHandle, h.draws,
    h.policy, h.epoch, h.bound⟩
  rfl

/-- A thread is not concerned by a turn of another one, except that its map may be destroyed. -/
theorem Actor.Mirrors.outlast {a : Actor} {p p' : Process} {destroys : Nat} {b : Maps.Actor}
    (h : a.Mirrors p destroys b) (hknows : ∀ v, p.Knows v → p'.Knows v) (n : Nat) :
    a.Mirrors p' (destroys + n) { b with owner := b.owner.outlast n } := by
  have hsame : ∀ i, (b.owner.outlast n).map i = b.owner.map i ∧
      (b.owner.outlast n).next = b.owner.next ∧ (b.owner.outlast n).names = b.owner.names ∧
      (b.owner.outlast n).label = b.owner.label := by
    intro i
    unfold Owner.outlast
    split
    · exact ⟨rfl, rfl, rfl, rfl⟩
    · exact ⟨rfl, rfl, rfl, rfl⟩
  refine ⟨h.name, h.kind, h.late, ⟨fun i => ?_, ?_, ?_, ?_, h.thread.owns.outlast n⟩⟩
  · rw [(hsame i).1]
    exact (h.thread.tables i).mono hknows
  · rw [(hsame 0).2.1, h.thread.next]
  · rw [(hsame 0).2.2.1, h.thread.names]
  · rw [(hsame 0).2.2.2, h.thread.label]

/-- Related threads are found under a name, or none. -/
theorem exists_find?_of_forall₂ {p : Process} {destroys : Nat} {as : List Actor}
    {bs : List Maps.Actor} (h : List.Forall₂ (fun a b => a.Mirrors p destroys b) as bs)
    (name : String) :
    (as.find? (·.name == name) = none ∧ bs.find? (·.name == name) = none) ∨
      ∃ a b, as.find? (·.name == name) = some a ∧ bs.find? (·.name == name) = some b ∧
        a ∈ as ∧ a.Mirrors p destroys b := by
  induction h with
  | nil => exact .inl ⟨rfl, rfl⟩
  | @cons a b as bs hab _ ih =>
    rw [List.find?_cons, List.find?_cons, hab.name]
    cases a.name == name with
    | true => exact .inr ⟨a, b, rfl, rfl, List.mem_cons_self, hab⟩
    | false =>
      rcases ih with ⟨ha, hb⟩ | ⟨a', b', ha, hb, hmem, h⟩
      · exact .inl ⟨ha, hb⟩
      · exact .inr ⟨a', b', ha, hb, List.mem_cons_of_mem a hmem, h⟩

/-! ## Turns of one thread -/

/-- A refinement that holds whatever variables are known keeps those that are. -/
theorem Refines.ends {α β : Type} {view : α → β} {x : Storage α} {y : Turn β}
    (h : ∀ known, Refines known view x y) {destroys : Nat} {sc : Scene} {w : World}
    (hm : sc.Mirrors [] destroys w) (hbound : destroys + (y w).destroys < 2 ^ 64) :
    (y w).result = (runOn x sc).1.map view ∧
      (runOn x sc).2.Mirrors [] (destroys + (y w).destroys) (y w).world ∧
      ∀ v, sc.process.Knows v → (runOn x sc).2.process.Knows v := by
  obtain ⟨hresult, hm'⟩ := h [] destroys sc w hm hbound
  refine ⟨hresult, hm', fun v hv => ?_⟩
  have hknown : sc.Mirrors [v] destroys w :=
    ⟨hm.process, hm.thread, hm.events, fun u hu => by rwa [List.mem_singleton.1 hu]⟩
  exact (h [v] destroys sc w hknown hbound).2.known v List.mem_cons_self

/-- The scene in which a thread begins a turn. -/
theorem Scene.Mirrors.begin {p : Process} {t : Thread} {destroys : Nat} {shared : Shared}
    {owner : Owner} (hp : p.Mirrors destroys shared) (ht : t.Mirrors p destroys owner) :
    Scene.Mirrors [] destroys { process := p, thread := t } { shared := shared, owner := owner } :=
  ⟨hp, ht, rfl, by simp⟩

/-- An action of a thread, after which the workers settle. -/
theorem act_mirrors {α β : Type} {view : α → β} {x : Storage α} {y : Turn β}
    (h : ∀ known, Refines known view x y) {p : Process} {t : Thread} {destroys : Nat}
    {shared : Shared} {owner : Owner} (hp : p.Mirrors destroys shared)
    (ht : t.Mirrors p destroys owner) {ended : Maps.Outcome β}
    (hended : y { shared := shared, owner := owner } = ended)
    (hbound : destroys + ended.destroys < 2 ^ 64) :
    ended.result = (Session.act p t x).1.map view ∧
      (Session.act p t x).2.Mirrors [] (destroys + ended.destroys) ended.world ∧
      ∀ v, p.Knows v → (Session.act p t x).2.process.Knows v := by
  subst hended
  obtain ⟨hresult, hm, hknows⟩ := Refines.ends h (.begin hp ht) hbound
  have hlike := Scene.Like.settle (runOn x { process := p, thread := t }).2
  exact ⟨hresult, hm.like hlike, fun v hv =>
    (hknows v hv).of_stripped (congrArg (·.process) hlike).symm⟩

theorem eq_ok_of_map_id {α : Type} {result : Except Stop α} {a : α}
    (h : .ok a = result.map id) : result = .ok a := by
  cases result with
  | error stop => cases h
  | ok b => exact h.symm

/-- A thread that has not run yet owns nothing. -/
theorem Thread.Mirrors.of_new (p : Process) (destroys : Nat) (n : ThreadId)
    (label : Option String) :
    Thread.Mirrors { id := n, label := label } p destroys { label := label } := by
  refine ⟨fun i => ?_, rfl, rfl, rfl, .nothing⟩
  have htable : Thread.table { id := n, label := label } i = {} := by simp [Thread.table]
  have hmap : Owner.map { label := label } i = {} := by simp [Owner.map]
  rw [htable, hmap]
  exact .of_policy .strict

/-- A thread starts with what the machine says it owns. -/
theorem prepare_mirrors {p : Process} {m : Maps.Session} (hp : p.Mirrors m.destroys m.shared)
    (kind : ThreadKind) (label : Option String) (n : ThreadId) :
    let started := runOn (prepare kind)
      { process := p, thread := { id := n, label := if kind = .withContext then label else none } }
    started.1 = .ok kind.carries ∧ started.2.process.Mirrors m.destroys m.shared ∧
      started.2.thread.Mirrors started.2.process m.destroys (m.newOwner kind label) ∧
      ∀ v, p.Knows v → started.2.process.Knows v := by
  have hnew := Thread.Mirrors.of_new p m.destroys n
  cases kind with
  | generic =>
    have hx : ∀ known, Refines known id (prepare .generic) Turn.isCarrying :=
      fun _ => Refines.isCarrying
    obtain ⟨hresult, hm, hknows⟩ := Refines.ends hx (.begin hp (hnew none)) hp.bound
    exact ⟨eq_ok_of_map_id hresult, hm.process, hm.thread, hknows⟩
  | carried =>
    have hx : ∀ known, Refines known id (prepare .carried) (do
        let _ ← Turn.adopt
        Turn.isCarrying) :=
      fun _ => .bind .adopt fun _ => .isCarrying
    obtain ⟨hresult, hm, hknows⟩ := Refines.ends hx (.begin hp (hnew none)) hp.bound
    exact ⟨eq_ok_of_map_id hresult, hm.process, hm.thread, hknows⟩
  | withContext =>
    have hx : ∀ known, Refines known id (prepare .withContext) (do
        let i ← Turn.adopt
        Turn.bindName contextName i
        Turn.isCarrying) :=
      fun _ => .bind .adopt fun i => .bind (.bindTable contextName i) fun _ => .isCarrying
    obtain ⟨hresult, hm, hknows⟩ := Refines.ends hx (.begin hp (hnew label)) hp.bound
    exact ⟨eq_ok_of_map_id hresult, hm.process, hm.thread, hknows⟩

theorem startThread_mirrors {p : Process} {m : Maps.Session} (hp : p.Mirrors m.destroys m.shared)
    (kind : ThreadKind) (label : Option String) :
    let started := p.startThread kind label
    started.1 = kind.carries ∧ started.2.2.Mirrors m.destroys m.shared ∧
      started.2.1.Mirrors started.2.2 m.destroys (m.newOwner kind label) ∧
      ∀ v, p.Knows v → started.2.2.Knows v := by
  obtain ⟨hresult, hp', ht, hknows⟩ :=
    prepare_mirrors (hp.renamed (p.nextThread + 1) p.threadNames) kind label p.nextThread
  refine ⟨?_, hp', ht, hknows⟩
  show Option.getD (Except.toOption (runOn (prepare kind) _).1) false = kind.carries
  rw [hresult]
  rfl

/-- What a thread does after its last clearing leaves no event. -/
theorem exists_releaseOrDiscard (sc : Scene) :
    ∃ sc', runOn (do if (← Storage.release).isNone then Storage.discard) sc = (.ok (), sc') ∧
      sc'.events = sc.events ∧ sc'.process.stripped = sc.process.stripped := by
  rw [runOn_bind, runOn_release]
  dsimp only
  rw [runOn_ite, runOn_discard]
  split
  · refine ⟨_, rfl, ?_⟩
    split
    · exact ⟨rfl, sc.process.stripped_count (by decide)⟩
    · exact ⟨rfl, rfl⟩
  · exact ⟨_, rfl, rfl, rfl⟩

/-- A thread that ends calls the removal hooks that the machine says. -/
theorem clearAndRelease_mirrors (enter : Enter) {destroys : Nat} {sc : Scene} {w : World}
    (hm : sc.Mirrors [] destroys w) :
    ∃ sc', runOn (clearAndRelease enter) sc = (.ok (), sc') ∧
      sc'.process.Mirrors destroys w.shared ∧ (∀ v, sc.process.Knows v → sc'.process.Knows v) ∧
      sc'.events.map Event.shown =
        w.owner.farewells.reverse ++ w.events := by
  have hclear : ∀ known, Refines known id (clearTable enter) Turn.clearOwn :=
    fun _ => .clearTable enter
  obtain ⟨hresult, hm', hknows⟩ := Refines.ends hclear hm
    (by rw [Turn.clearOwn_eq]; exact hm.process.bound)
  rw [Turn.clearOwn_eq] at hresult hm'
  have hok := eq_ok_of_map_id hresult
  rcases hrun : runOn (clearTable enter) sc with ⟨result, sc₁⟩
  rw [hrun] at hok hm' hknows
  dsimp only at hok hm' hknows
  subst hok
  unfold clearAndRelease
  rw [runOn_bind, hrun]
  rcases hown : w.owner.own.id? with _ | i
  · simp only [hown] at hm'
    refine ⟨sc₁, rfl, hm'.process, hknows, ?_⟩
    rw [Owner.farewells, hown]
    exact hm'.events.symm
  · simp only [hown] at hm'
    obtain ⟨sc₂, htail, hevents, hstripped⟩ := exists_releaseOrDiscard sc₁
    refine ⟨sc₂, htail, hm'.process.of_stripped hstripped, fun v hv => ?_, ?_⟩
    · exact (hknows v hv).of_stripped hstripped
    · rw [hevents]
      exact hm'.events.symm

/-- A thread whose code has no thread-locals of its own ends as the machine says, whether it panics or
not. -/
theorem exit_mirrors (depth : Nat) {p : Process} {a : Actor} {destroys : Nat} {b : Maps.Actor}
    {shared : Shared} (hp : p.Mirrors destroys shared) (hab : a.Mirrors p destroys b)
    (panics : Option String) :
    let ended := Session.exit depth p a panics
    ended.1 = { panic := panics, late := none } ∧
      ended.2.events.map Event.shown = b.farewells.reverse ∧
      ended.2.process.Mirrors destroys shared ∧ ∀ v, p.Knows v → ended.2.process.Knows v := by
  have hclear : ∃ sc', runOn (clearOnExit a.kind depth) { process := p, thread := a.thread } =
      (.ok (), sc') ∧ sc'.process.Mirrors destroys shared ∧
      (∀ v, p.Knows v → sc'.process.Knows v) ∧
      sc'.events.map Event.shown = b.farewells.reverse := by
    unfold clearOnExit Maps.Actor.farewells
    rw [hab.kind]
    cases a.kind.carries with
    | false => exact ⟨_, rfl, hp, fun _ hv => hv, rfl⟩
    | true =>
      obtain ⟨sc', hrun, hp', hknows, hevents⟩ :=
        clearAndRelease_mirrors (enter depth) (.begin hp hab.thread)
      refine ⟨sc', hrun, hp', hknows, ?_⟩
      rw [hevents, List.append_nil]
      rfl
  obtain ⟨sc', hrun, hp', hknows, hevents⟩ := hclear
  have hstripped : (sc'.unwind 0).process.settle.stripped = sc'.process.stripped := by
    rw [Process.stripped_settle, Scene.stripped_unwind]
  unfold Session.exit
  rw [hab.late, hrun]
  refine ⟨?_, ?_, hp'.of_stripped hstripped, fun v hv => (hknows v hv).of_stripped hstripped⟩
  · cases panics <;> rfl
  · show (sc'.unwind 0).events.map Event.shown = _
    rw [Scene.unwind_eq]
    exact hevents

/-! ## Steps -/

namespace Session.Mirrors

variable {s : Session} {m : Maps.Session}

/-- The session after a turn of the named thread. -/
theorem after (h : s.Mirrors m) {name : String} {p : Process} {t : Thread} {α : Type}
    {ended : Maps.Outcome α} (hp : p.Mirrors (m.destroys + ended.destroys) ended.world.shared)
    (ht : t.Mirrors p (m.destroys + ended.destroys) ended.world.owner)
    (hknows : ∀ v, s.process.Knows v → p.Knows v) :
    ({ s with process := p }.setThread name t).Mirrors (m.after name ended) := by
  refine ⟨hp, ?_, h.depth⟩
  refine List.rel_map (fun a b hab => ?_) h.actors
  have houtlast := hab.outlast hknows ended.destroys
  rw [hab.name]
  cases a.name == name with
  | true => exact ⟨rfl, hab.kind, hab.late, ht⟩
  | false => exact ⟨rfl, hab.kind, hab.late, houtlast.thread⟩

theorem command (h : s.Mirrors m) (name : String) {c : Command} (hc : c.Plain)
    (hbound : (m.command name c).2.destroys < 2 ^ 64) :
    (s.command name c).1.account = (m.command name c).1 ∧
      (s.command name c).2.Mirrors (m.command name c).2 := by
  unfold Session.command Maps.Session.command at *
  unfold Session.actor? Maps.Session.actor? at *
  rcases exists_find?_of_forall₂ h.actors name with ⟨ha, hb⟩ | ⟨a, b, ha, hb, -, hab⟩
  · rw [ha, hb]
    exact ⟨rfl, h⟩
  · rw [hb, h.depth] at hbound
    rw [ha, hb, h.depth]
    obtain ⟨hresult, hm, hknows⟩ := act_mirrors (fun known => refines_perform s.depth known hc)
      h.process hab.thread rfl hbound
    refine ⟨?_, h.after hm.process hm.thread hknows⟩
    unfold StepReport.account
    simp only [hm.events, hresult, List.map_reverse]
    rcases (act s.process a.thread (perform (enter s.depth) c)).1 with (e | message) | reply <;> rfl

theorem spawn (h : s.Mirrors m) (name : String) (kind : ThreadKind) (label : Option String) :
    (s.spawn name kind label none).1.account = (m.spawn name kind label).1 ∧
      (s.spawn name kind label none).2.Mirrors (m.spawn name kind label).2 := by
  obtain ⟨hcarries, hp, ht, hknows⟩ := startThread_mirrors h.process kind label
  have hlast := hp.renamed (s.process.startThread kind label).2.2.nextThread
    ((name, (s.process.startThread kind label).2.1.id) ::
      (s.process.startThread kind label).2.2.threadNames)
  refine ⟨?_, hlast, ?_, h.depth⟩
  · show StepReport.account { result := .spawned (s.process.startThread kind label).1 _ } = _
    rw [hcarries]
    rfl
  · have hknows' : ∀ v, s.process.Knows v →
        (s.spawn name kind label none).2.process.Knows v := hknows
    have hnew : (s.process.startThread kind label).2.1.Mirrors
        (s.spawn name kind label none).2.process m.destroys (m.newOwner kind label) :=
      ht.mono fun _ hv => hv
    have houtlast := h.actors.imp fun a b hab => hab.outlast hknows' 0
    refine List.rel_append houtlast ?_
    exact List.Forall₂.cons ⟨rfl, rfl, rfl, hnew⟩ .nil

theorem join (h : s.Mirrors m) (name : String) (panics : Option String) :
    (s.join name panics).1.account = (m.join name panics).1 ∧
      (s.join name panics).2.Mirrors (m.join name panics).2 := by
  unfold Session.join Maps.Session.join Session.actor? Maps.Session.actor?
  rcases exists_find?_of_forall₂ h.actors name with ⟨ha, hb⟩ | ⟨a, b, ha, hb, -, hab⟩
  · rw [ha, hb]
    exact ⟨rfl, h⟩
  · rw [ha, hb]
    obtain ⟨hending, hevents, hp, hknows⟩ := exit_mirrors s.depth h.process hab panics
    refine ⟨?_, hp, ?_, h.depth⟩
    · unfold StepReport.account
      simp only [hending, List.map_reverse, hevents, List.reverse_reverse]
    · have houtlast := h.actors.imp fun a b hab => hab.outlast hknows 0
      refine List.rel_filter (fun {a b} hab => ?_) houtlast
      show (a.name != name) = true ↔ (b.name != name) = true
      rw [hab.name]

theorem step (h : s.Mirrors m) {x : Step} (hx : x.Plain)
    (hbound : (m.step x).2.destroys < 2 ^ 64) :
    (s.step x).1.account = (m.step x).1 ∧ (s.step x).2.Mirrors (m.step x).2 := by
  cases hx with
  | run name hc => exact h.command name hc hbound
  | spawn name kind label => exact h.spawn name kind label
  | join name panics => exact h.join name panics

end Session.Mirrors

/-! ## Runs -/

namespace Maps.Session

theorem destroys_le_step (m : Maps.Session) (x : Step) : m.destroys ≤ (m.step x).2.destroys := by
  cases x with
  | run name c =>
    show m.destroys ≤ (m.command name c).2.destroys
    unfold command
    split
    · exact Nat.le_refl _
    · exact Nat.le_add_right _ _
  | spawn name kind label late => exact Nat.le_refl _
  | use name late => exact Nat.le_refl _
  | join name panics =>
    show m.destroys ≤ (m.join name panics).2.destroys
    unfold join
    split
    · exact Nat.le_refl _
    · exact Nat.le_refl _

theorem destroys_le_run (m : Maps.Session) (steps : List Step) :
    m.destroys ≤ (m.run steps).2.destroys := by
  induction steps generalizing m with
  | nil => exact Nat.le_refl _
  | cons x steps ih => exact Nat.le_trans (m.destroys_le_step x) (ih (m.step x).2)

end Maps.Session

namespace Session

theorem mirrors_start (environment : Environment) (depth : Nat) :
    (start environment depth).Mirrors (Maps.Session.start environment depth) where
  process := {
    sound := (sound_start environment depth).process
    pure := fun slot v hv => absurd hv (by simp [start])
    supply := rfl
    bySlot := rfl
    byHandle := rfl
    nextHandle := rfl
    draws := rfl
    policy := rfl
    epoch := rfl
    bound := Nat.pow_pos (by decide) }
  actors := .cons ⟨rfl, rfl, rfl, .of_new _ _ _ _⟩ .nil
  depth := rfl

/-- A run of plain steps does what the run of the machine does. -/
theorem Mirrors.run {s : Session} {m : Maps.Session} (h : s.Mirrors m) {steps : List Step}
    (hsteps : ∀ x ∈ steps, x.Plain) (hbound : (m.run steps).2.destroys < 2 ^ 64) :
    (s.run steps).1.map StepReport.account = (m.run steps).1 ∧
      (s.run steps).2.Mirrors (m.run steps).2 := by
  induction steps generalizing s m with
  | nil => exact ⟨rfl, h⟩
  | cons x steps ih =>
    obtain ⟨hx, hsteps⟩ := List.forall_mem_cons.1 hsteps
    have hstep : (m.step x).2.destroys < 2 ^ 64 :=
      Nat.lt_of_le_of_lt ((m.step x).2.destroys_le_run steps) hbound
    obtain ⟨hreport, h'⟩ := h.step hx hstep
    obtain ⟨hreports, hend⟩ := ih h' hsteps hbound
    refine ⟨?_, hend⟩
    show (s.step x).1.account :: ((s.step x).2.run steps).1.map StepReport.account = _
    rw [hreport, hreports]
    rfl

/-- **The storage engine is a plain map**: in every run of plain steps, over any number of threads
and with any settings, each step has the result of the machine and makes the same hook calls, in the
same order. The epoch wraps around, so the bound on the destructions is what keeps a fallback table
from coming back to life. -/
theorem account_of_run (environment : Environment) (depth : Nat) (steps : List Step)
    (hsteps : ∀ x ∈ steps, x.Plain)
    (hdestroys : ((Maps.Session.start environment depth).run steps).2.destroys < 2 ^ 64) :
    ((start environment depth).run steps).1.map StepReport.account =
      ((Maps.Session.start environment depth).run steps).1 :=
  ((mirrors_start environment depth).run hsteps hdestroys).1

/-- Two threads, one of which carries its table to its end, and an explicit table in which the
sentinel removes. -/
def mappedSteps : List Step :=
  [.run mainName (.declare .int (.plain .int) (some { nested := none, panics := fun _ => none })),
    .run mainName (.onTables (.new "t" (some .lenient) [])),
    .spawn "a" .carried none none,
    .run "a" (.access 0 .ambient (.set (.int 1))),
    .run mainName (.access 0 .ambient (.withValue (some fun _ =>
      .step "replace" (.access 0 (.table "t") (.replace (.int 2))) fun _ => .done none))),
    .run mainName (.access 0 (.table "t") (.store none)),
    .run "a" (.onThread .destroy),
    .run mainName (.access 0 .ambient .isSet),
    .join "a" none]

theorem account_of_run_mappedSteps :
    (∀ x ∈ mappedSteps, x.Plain) ∧
      ((Maps.Session.start {} nestingLimit).run mappedSteps).2.destroys < 2 ^ 64 ∧
      ((start {} nestingLimit).run mappedSteps).1.map StepReport.account =
        ((Maps.Session.start {} nestingLimit).run mappedSteps).1 := by
  have hbody : ∀ body, Access.withValue (some fun _ =>
      .step "replace" (.access 0 (.table "t") (.replace (.int 2))) fun _ => .done none) =
        .withValue (some body) → ∀ value, (body value).Plain := by
    intro body hbody value
    cases hbody
    exact .step "replace" (.access 0 (.table "t") nofun) (fun _ => .done _) fun _ => rfl
  have hhook : ∀ h, some { nested := none, panics := fun _ => none : Hook } = some h → h.Pure := by
    intro h hh
    cases hh
    exact ⟨rfl, fun _ => rfl⟩
  have hsteps : ∀ x ∈ mappedSteps, x.Plain := by
    unfold mappedSteps
    simp only [List.forall_mem_cons, List.not_mem_nil, false_implies, implies_true, and_true]
    exact ⟨.run _ (.declare _ ⟨rfl, fun _ => ⟨_, rfl⟩⟩ hhook), .run _ (.newTable _ _),
      .spawn _ _ _, .run _ (.access _ _ nofun), .run _ (.access _ _ hbody),
      .run _ (.access _ _ nofun), .run _ (.onThread _), .run _ (.access _ _ nofun), .join _ _⟩
  have hdestroys : ((Maps.Session.start {} nestingLimit).run mappedSteps).2.destroys < 2 ^ 64 := by
    decide +kernel
  exact ⟨hsteps, hdestroys, account_of_run {} nestingLimit mappedSteps hsteps hdestroys⟩

end Session

end ThreadSlots
