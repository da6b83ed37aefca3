import Mathlib.Data.List.Forall2
import ThreadSlots.Proofs.OwnStorage

/-!
# Threads do not see each other

In every session with private variables the steps of one thread lead to the same reports and leave it
the same storage as if no other thread had taken a step (`Session.isolated`). Two sessions are related
thread by thread (`Session.Same`): a step of the thread keeps that on both sides (`Same.step`), a step
of another thread on one side (`Same.of_bearers`).
-/

namespace ThreadSlots

open Storage

/-! ## Sessions -/

/-- Whose step it is. -/
def Step.actor : Step → String
  | .run name _ | .spawn name .. | .use name _ | .join name _ => name

/-- The step concerns the storage of its thread alone. -/
def Step.IsLocal : Step → Prop
  | .run _ c => Command.Only Command.IsLocal c
  | .spawn _ _ _ late => ∀ c ∈ late.getD [], Command.Only Command.IsLocal c
  | .use _ late => ∀ c ∈ late, Command.Only Command.IsLocal c
  | .join .. => True

/-- The destructor concerns the storage of its thread alone. -/
def Late.IsLocal (code : Late) : Prop := ∀ c ∈ code.commands, Command.Only Command.IsLocal c

/-- The actors differ at most in the identity of their threads and in who watches them. -/
structure Actor.Same (a b : Actor) : Prop where
  name : b.name = a.name
  kind : b.kind = a.kind
  late : b.late = a.late
  thread : a.thread.Same b.thread

namespace Session

/-- The threads of a name. -/
def bearers (s : Session) (name : String) : List Actor := s.actors.filter (·.name == name)

/-- The threads of a name have the same storage in both sessions, whose processes are as good as `p`;
they have set private variables only, and the destructors of their own code are local. -/
structure Same (p : Process) (name : String) (s s' : Session) : Prop where
  left : p.Shares s.process
  right : p.Shares s'.process
  depth : s'.depth = s.depth
  actors : List.Forall₂ Actor.Same (s.bearers name) (s'.bearers name)
  tracks : ∀ a ∈ s.bearers name, ∀ i, (a.thread.table i).Tracks Variable.Private
  late : ∀ a ∈ s.bearers name, ∀ code ∈ a.late, code.IsLocal

variable {p : Process} {s s' : Session} {name : String} {a b : Actor}

theorem actor?_eq_head? (s : Session) (name : String) : s.actor? name = (s.bearers name).head? :=
  List.head?_filter.symm

theorem bearers_setThread (s : Session) (name : String) (t : Thread) :
    (s.setThread name t).bearers name = (s.bearers name).map ({ · with thread := t }) := by
  unfold bearers setThread
  dsimp only
  induction s.actors with
  | nil => rfl
  | cons a l ih =>
    by_cases hn : a.name = name
    · simpa [hn] using ih
    · simpa [hn] using ih

theorem bearers_addLate (s : Session) (name : String) (code : Late) :
    (s.addLate name code).bearers name =
      (s.bearers name).map fun a => { a with late := code :: a.late } := by
  unfold bearers addLate
  dsimp only
  induction s.actors with
  | nil => rfl
  | cons a l ih =>
    by_cases hn : a.name = name
    · simpa [hn] using ih
    · simpa [hn] using ih

theorem bearers_addLate_of_ne {other : String} (s : Session) (hne : other ≠ name) (code : Late) :
    (s.addLate other code).bearers name = s.bearers name := by
  unfold bearers addLate
  dsimp only
  induction s.actors with
  | nil => rfl
  | cons a l ih =>
    by_cases hn : a.name = other
    · simpa [hn, hne] using ih
    · by_cases hm : a.name = name
      · simpa [hn, hm, Ne.symm hne] using ih
      · simpa [hn, hm] using ih

theorem actor?_setThread (s : Session) (name : String) (t : Thread) :
    (s.setThread name t).actor? name = (s.actor? name).map ({ · with thread := t }) := by
  rw [actor?_eq_head?, bearers_setThread, List.head?_map, ← actor?_eq_head?]

theorem bearers_setThread_of_ne {other : String} (s : Session) (hne : other ≠ name) (t : Thread) :
    (s.setThread other t).bearers name = s.bearers name := by
  unfold bearers setThread
  dsimp only
  induction s.actors with
  | nil => rfl
  | cons a l ih =>
    by_cases hn : a.name = other
    · simpa [hn, hne] using ih
    · by_cases hm : a.name = name
      · simpa [hn, hm, Ne.symm hne] using ih
      · simpa [hn, hm] using ih

/-- Where the threads of a name are related one by one, so are those that the name finds. -/
theorem exists_actor_of_forall₂ {R : Actor → Actor → Prop}
    (h : List.Forall₂ R (s.bearers name) (s'.bearers name)) :
    (s.actor? name = none ∧ s'.actor? name = none) ∨
      ∃ a b, s.actor? name = some a ∧ s'.actor? name = some b ∧ a ∈ s.bearers name ∧ R a b := by
  rw [actor?_eq_head?, actor?_eq_head?]
  generalize s.bearers name = as at h ⊢
  generalize s'.bearers name = bs at h ⊢
  cases h with
  | nil => exact .inl ⟨rfl, rfl⟩
  | cons hab _ => exact .inr ⟨_, _, rfl, rfl, List.mem_cons_self, hab⟩

theorem Same.scene (h : Same p name s s') (ha : a ∈ s.bearers name) (hab : a.Same b) :
    Scene.Same p { process := s.process, thread := a.thread }
      { process := s'.process, thread := b.thread } :=
  ⟨h.left, h.right, hab.thread, rfl, rfl, h.tracks a ha⟩

theorem act_same {α : Type} {x : Storage α} {V : α → α → Prop} (hx : Coupled (Scene.Same p) V x x)
    {sc sc' : Scene} (h : Scene.Same p sc sc') :
    Outcomes V (act sc.process sc.thread x).1 (act sc'.process sc'.thread x).1 ∧
      Scene.Same p (act sc.process sc.thread x).2 (act sc'.process sc'.thread x).2 := by
  obtain ⟨ho, hs⟩ := hx { process := sc.process, thread := sc.thread }
    { process := sc'.process, thread := sc'.thread } ⟨h.left, h.right, h.thread, rfl, rfl, h.tracks⟩
  exact ⟨ho, hs.settle⟩

theorem Same.setThread (h : Same p name s s') {sc sc' : Scene} (hsc : Scene.Same p sc sc') :
    Same p name ({ s with process := sc.process }.setThread name sc.thread)
      ({ s' with process := sc'.process }.setThread name sc'.thread) := by
  have hbearers : ∀ (s : Session) (sc : Scene),
      ({ s with process := sc.process }.setThread name sc.thread).bearers name =
        (s.bearers name).map ({ · with thread := sc.thread }) :=
    fun s sc => bearers_setThread _ _ _
  refine ⟨hsc.left, hsc.right, h.depth, ?_, fun a ha => ?_, fun a ha => ?_⟩
  · rw [hbearers, hbearers]
    refine List.forall₂_map_left_iff.2 (List.forall₂_map_right_iff.2 (h.actors.imp fun a b hab => ?_))
    exact ⟨hab.name, hab.kind, hab.late, hsc.thread⟩
  · rw [hbearers] at ha
    obtain ⟨b, -, rfl⟩ := List.mem_map.1 ha
    exact hsc.tracks
  · rw [hbearers] at ha
    obtain ⟨b, hb, rfl⟩ := List.mem_map.1 ha
    exact h.late b hb

section

variable (hp : p.Private)

include hp

theorem Same.command (h : Same p name s s') {c : Command}
    (hc : Command.Only Command.IsLocal c) :
    (s'.command name c).1 = (s.command name c).1 ∧
      Same p name (s.command name c).2 (s'.command name c).2 := by
  obtain ⟨q, actors, depth⟩ := s
  obtain ⟨q', actors', depth'⟩ := s'
  obtain rfl : depth' = depth := h.depth
  unfold Session.command
  rcases exists_actor_of_forall₂ h.actors with ⟨ha, hb⟩ | ⟨a, b, ha, hb, hmem, hab⟩
  · rw [ha, hb]
    exact ⟨rfl, h⟩
  · rw [ha, hb]
    obtain ⟨ho, hs⟩ := act_same (same_perform hp depth' hc) (h.scene hmem hab)
    refine ⟨?_, h.setThread hs⟩
    dsimp only
    rw [ho.eq, hs.events, (same_bond hp).glance_eq hs]

theorem startThread_same (h : Same p name s s') (kind : ThreadKind) (label : Option String)
    (uses : Nat) :
    (s'.process.startThread kind label uses).1 = (s.process.startThread kind label uses).1 ∧
      (s.process.startThread kind label uses).2.1.Same (s'.process.startThread kind label uses).2.1 ∧
      (∀ i, ((s.process.startThread kind label uses).2.1.table i).Tracks Variable.Private) ∧
      p.Shares (s.process.startThread kind label uses).2.2 ∧
      p.Shares (s'.process.startThread kind label uses).2.2 := by
  have hnext : ∀ q : Process, q.Shares { q with nextThread := q.nextThread + 1 } :=
    fun _ => ⟨rfl, rfl, rfl, rfl⟩
  have hempty : ∀ (t : Thread) (i : TableId), t.tables = ∅ →
      (t.table i).Tracks Variable.Private := by
    intro t i ht
    apply Table.Tracks.of_empty
    simp [Thread.table, ht, Table.live]
  obtain ⟨ho, hs⟩ := (same_bond hp).prepare kind
    { process := { s.process with nextThread := s.process.nextThread + 1 }
      thread :=
        { id := s.process.nextThread
          locals := { uses := uses }
          label := if kind = .withContext then label else none } }
    { process := { s'.process with nextThread := s'.process.nextThread + 1 }
      thread :=
        { id := s'.process.nextThread
          locals := { uses := uses }
          label := if kind = .withContext then label else none } }
    ⟨h.left.trans (hnext _), h.right.trans (hnext _), ⟨_, _, rfl⟩, rfl, rfl, fun i => hempty _ i rfl⟩
  exact ⟨congrArg (fun r => r.toOption.getD false) ho.eq, hs.thread, hs.tracks, hs.left, hs.right⟩

theorem Same.spawn (h : Same p name s s') (kind : ThreadKind) (label : Option String)
    {late : Option (List Command)} (hlate : ∀ c ∈ late.getD [], Command.Only Command.IsLocal c) :
    (s'.spawn name kind label late).1 = (s.spawn name kind label late).1 ∧
      Same p name (s.spawn name kind label late).2 (s'.spawn name kind label late).2 := by
  obtain ⟨ho, hthread, htracks, hleft, hright⟩ :=
    startThread_same hp h kind label (Late.first late).length
  have hnames : ∀ (q : Process) (l : List (String × ThreadId)),
      q.Shares { q with threadNames := l } := fun _ _ => ⟨rfl, rfl, rfl, rfl⟩
  have hbearers : ∀ s : Session, (s.spawn name kind label late).2.bearers name =
      s.bearers name ++ [⟨name, kind, Late.first late,
        (s.process.startThread kind label (Late.first late).length).2.1⟩] := by
    intro s
    unfold bearers Session.spawn
    simp [List.filter_append]
  refine ⟨?_, hleft.trans (hnames _ _), hright.trans (hnames _ _), h.depth, ?_, fun a ha => ?_,
    fun a ha => ?_⟩
  · unfold Session.spawn
    dsimp only
    rw [ho]
  · rw [hbearers, hbearers]
    exact List.rel_append h.actors (.cons ⟨rfl, rfl, rfl, hthread⟩ .nil)
  · rw [hbearers] at ha
    rcases List.mem_append.1 ha with ha | ha
    · exact h.tracks a ha
    · rw [List.mem_singleton.1 ha]
      exact htracks
  · rw [hbearers] at ha
    rcases List.mem_append.1 ha with ha | ha
    · exact h.late a ha
    · rw [List.mem_singleton.1 ha]
      exact Late.forall_first hlate

omit hp in
theorem Same.use (h : Same p name s s') {commands : List Command}
    (hlate : ∀ c ∈ commands, Command.Only Command.IsLocal c) :
    (s'.use name commands).1 = (s.use name commands).1 ∧
      Same p name (s.use name commands).2 (s'.use name commands).2 := by
  rcases exists_actor_of_forall₂ h.actors with ⟨ha, hb⟩ | ⟨a, b, ha, hb, hmem, hab⟩
  · rw [use_of_none ha, use_of_none hb]
    exact ⟨rfl, h⟩
  · have hlocals : b.thread.locals = a.thread.locals := by
      obtain ⟨id, sentinel, ht⟩ := hab.thread
      rw [ht]
    have hused : Scene.Same p { process := s.process, thread := used a.thread }
        { process := s'.process, thread := used b.thread } :=
      (h.scene hmem hab).mapLocals fun l => { l with uses := l.uses + 1 }
    have hset := h.setThread hused
    refine ⟨?_, ?_⟩
    · unfold Session.use
      rw [ha, hb]
    · rw [session_use ha, session_use hb, hlocals]
      refine ⟨h.left, h.right, h.depth, ?_, fun c hc => ?_, fun c hc => ?_⟩
      · rw [bearers_addLate, bearers_addLate]
        refine List.forall₂_map_left_iff.2 (List.forall₂_map_right_iff.2 ?_)
        exact hset.actors.imp fun c d hcd =>
          ⟨hcd.name, hcd.kind, congrArg (_ :: ·) hcd.late, hcd.thread⟩
      · rw [bearers_addLate] at hc
        obtain ⟨d, hd, rfl⟩ := List.mem_map.1 hc
        exact hset.tracks d hd
      · rw [bearers_addLate] at hc
        obtain ⟨d, hd, rfl⟩ := List.mem_map.1 hc
        exact List.forall_mem_cons.2 ⟨hlate, hset.late d hd⟩

theorem exit_same (depth : Nat) (hab : a.Same b) (hlate : ∀ code ∈ a.late, code.IsLocal)
    {q q' : Process}
    (h : Scene.Same p { process := q, thread := a.thread } { process := q', thread := b.thread })
    (panics : Option String) :
    (exit depth q' b panics).1 = (exit depth q a panics).1 ∧
      Scene.Same p (exit depth q a panics).2 (exit depth q' b panics).2 := by
  obtain ⟨ho, hs⟩ := same_clearOnExit hp a.kind depth _ _ h
  obtain ⟨hanswers, hs'⟩ := same_runDestructors hp depth hlate hs
  unfold exit tearDown
  rw [hab.kind, hab.late]
  refine ⟨?_, (hs'.unwind 0).settle⟩
  dsimp only
  rw [ho.eq, hanswers]

theorem Same.join (h : Same p name s s') (panics : Option String) :
    (s'.join name panics).1 = (s.join name panics).1 ∧
      Same p name (s.join name panics).2 (s'.join name panics).2 := by
  obtain ⟨q, actors, depth⟩ := s
  obtain ⟨q', actors', depth'⟩ := s'
  obtain rfl : depth' = depth := h.depth
  unfold Session.join
  rcases exists_actor_of_forall₂ h.actors with ⟨ha, hb⟩ | ⟨a, b, ha, hb, hmem, hab⟩
  · rw [ha, hb]
    exact ⟨rfl, h⟩
  · rw [ha, hb]
    obtain ⟨hending, hs⟩ := exit_same hp depth' hab (h.late a hmem) (h.scene hmem hab) panics
    have hbearers : ∀ l : List Actor, (l.filter (·.name != name)).filter (·.name == name) = [] := by
      intro l
      simp
    refine ⟨?_, hs.left, hs.right, rfl, ?_, fun c hc => ?_, fun c hc => ?_⟩
    · dsimp only
      rw [hending, hs.events]
    · unfold bearers
      dsimp only
      rw [hbearers, hbearers]
      exact .nil
    · unfold bearers at hc
      dsimp only at hc
      rw [hbearers] at hc
      cases hc
    · unfold bearers at hc
      dsimp only at hc
      rw [hbearers] at hc
      cases hc

end

/-! ### Steps -/

theorem Same.step (hp : p.Private) {x : Step} (h : Same p x.actor s s') (hx : x.IsLocal) :
    (s'.step x).1 = (s.step x).1 ∧ Same p x.actor (s.step x).2 (s'.step x).2 := by
  cases x with
  | run name c => exact h.command hp hx
  | spawn name kind label late => exact h.spawn hp kind label hx
  | use name late => exact h.use hx
  | join name panics => exact h.join hp panics

theorem depth_step (s : Session) (x : Step) : (s.step x).2.depth = s.depth := by
  cases x with
  | run name c =>
    show (s.command name c).2.depth = s.depth
    unfold Session.command
    cases s.actor? name <;> rfl
  | spawn name kind label late => rfl
  | use name late =>
    show (s.use name late).2.depth = s.depth
    unfold Session.use
    cases s.actor? name <;> rfl
  | join name panics =>
    show (s.join name panics).2.depth = s.depth
    unfold Session.join
    cases s.actor? name <;> rfl

theorem bearers_step (s : Session) {x : Step} (hname : x.actor ≠ name) :
    (s.step x).2.bearers name = s.bearers name := by
  cases x with
  | run other c =>
    show (s.command other c).2.bearers name = s.bearers name
    unfold Session.command
    cases s.actor? other with
    | none => rfl
    | some a => exact bearers_setThread_of_ne _ hname _
  | spawn other kind label late =>
    have hother : other ≠ name := hname
    show (s.spawn other kind label late).2.bearers name = s.bearers name
    unfold bearers Session.spawn
    simp [List.filter_append, hother]
  | use other late =>
    show (s.use other late).2.bearers name = s.bearers name
    unfold Session.use
    cases s.actor? other with
    | none => rfl
    | some a => exact (bearers_addLate_of_ne _ hname _).trans (bearers_setThread_of_ne _ hname _)
  | join other panics =>
    have hother : other ≠ name := hname
    show (s.join other panics).2.bearers name = s.bearers name
    unfold Session.join
    cases s.actor? other with
    | none => rfl
    | some a =>
      unfold bearers
      dsimp only
      rw [List.filter_filter]
      refine List.filter_congr fun b _ => ?_
      by_cases hb : b.name = name
      · simp [hb, Ne.symm hother]
      · simp [hb]

theorem Same.of_bearers (h : Same p name s s') {r r' : Session} (hl : p.Shares r.process)
    (hr : p.Shares r'.process) (hd : r'.depth = r.depth) (hb : r.bearers name = s.bearers name)
    (hb' : r'.bearers name = s'.bearers name) : Same p name r r' := by
  refine ⟨hl, hr, hd, ?_, ?_, ?_⟩
  · rw [hb, hb']
    exact h.actors
  · rw [hb]
    exact h.tracks
  · rw [hb]
    exact h.late

/-- The steps of a thread. -/
def stepsOf (name : String) (steps : List Step) : List Step := steps.filter (·.actor == name)

/-- The reports of a thread's own steps. -/
def reportsOf (name : String) (s : Session) (steps : List Step) : List StepReport :=
  ((steps.zip (s.run steps).1).filter (·.1.actor == name)).map (·.2)

theorem reportsOf_cons (name : String) (s : Session) (x : Step) (steps : List Step) :
    s.reportsOf name (x :: steps) =
      if x.actor = name then (s.step x).1 :: (s.step x).2.reportsOf name steps
      else (s.step x).2.reportsOf name steps := by
  show List.map _ (List.filter _ ((x, (s.step x).1) :: _)) = _
  by_cases hn : x.actor = name
  · simp [hn]
    rfl
  · simp [hn]
    rfl

theorem stepsOf_cons (name : String) (x : Step) (steps : List Step) :
    stepsOf name (x :: steps) =
      if x.actor = name then x :: stepsOf name steps else stepsOf name steps := by
  by_cases hn : x.actor = name
  · simp [stepsOf, hn]
  · simp [stepsOf, hn]

/-- The steps of a thread come to the same without those of the other threads. -/
theorem Same.run (hp : p.Private) (h : Same p name s s') (hself : ∀ n, Same p n s s)
    {steps : List Step} (hsteps : ∀ x ∈ steps, x.IsLocal) :
    s.reportsOf name steps = (s'.run (stepsOf name steps)).1 ∧
      Same p name (s.run steps).2 (s'.run (stepsOf name steps)).2 := by
  induction steps generalizing s s' with
  | nil => exact ⟨rfl, h⟩
  | cons x steps ih =>
    obtain ⟨hx, hsteps⟩ := List.forall_mem_cons.1 hsteps
    -- `hself` says of every thread, not of `name` alone, that its steps keep the process as good as `p`
    obtain ⟨-, hown⟩ := (hself x.actor).step hp hx
    have hself' : ∀ n, Same p n (s.step x).2 (s.step x).2 := by
      intro n
      by_cases hn : x.actor = n
      · rw [← hn]
        exact hown
      · exact (hself n).of_bearers hown.left hown.left rfl (bearers_step s hn) (bearers_step s hn)
    rw [reportsOf_cons, stepsOf_cons]
    by_cases hn : x.actor = name
    · subst hn
      obtain ⟨hreport, hs⟩ := h.step hp hx
      obtain ⟨hreports, hrest⟩ := ih hs hself' hsteps
      rw [if_pos rfl, if_pos rfl, hreports, ← hreport]
      exact ⟨rfl, hrest⟩
    · have hs : Same p name (s.step x).2 s' :=
        h.of_bearers hown.left h.right (h.depth.trans (depth_step s x).symm) (bearers_step s hn) rfl
      rw [if_neg hn, if_neg hn]
      exact ih hs hself' hsteps

/-- In a session whose variables are private every thread has the same storage as itself. -/
theorem Sound.same (hs : s.Sound) (hp : s.process.Private)
    (hlate : ∀ a ∈ s.actors, ∀ code ∈ a.late, code.IsLocal) (name : String) :
    Same s.process name s s := by
  refine ⟨.refl _, .refl _, rfl, ?_, fun a ha i slot v hv => ?_, fun a ha => ?_⟩
  · exact List.forall₂_same.2 fun a _ => ⟨rfl, rfl, rfl, .refl _⟩
  · obtain ⟨-, hknows⟩ := (hs.threads a (List.mem_filter.1 ha).1).lists i slot v hv
    exact hp _ v hknows
  · exact hlate a (List.mem_filter.1 ha).1

/-! ## Invalidating the fallback tables -/

end Session

/-- What happens to a thread when fallback tables are invalidated: its tables stay as they are, a
carried table stays its own, and a table that it loses was its fallback table. -/
structure Actor.Outlives (p p' : Process) (a b : Actor) : Prop where
  name : b.name = a.name
  tables : b.thread.tables = a.thread.tables
  carried : ∀ i, a.thread.carried? = some i → b.thread.own? p'.epoch = some i
  hidden : ∀ i, a.thread.own? p.epoch = some i → b.thread.own? p'.epoch ≠ some i →
    a.thread.carried? = none ∧ a.thread.fallback? = some ⟨p.epoch, i⟩

namespace Session

variable {s : Session} {name : String} {a b : Actor}

theorem outlives_of_thread {p p' : Process} (hname : b.name = a.name) (ht : b.thread = a.thread) :
    a.Outlives p p' b := by
  have hkept : ∀ i, a.thread.carried? = some i → b.thread.own? p'.epoch = some i := fun i hi => by
    rw [ht]
    exact Thread.own?_of_carried hi _
  refine ⟨hname, by rw [ht], hkept, fun i hown hlost => ?_⟩
  cases hc : a.thread.carried? with
  | some k =>
    cases hown.symm.trans (Thread.own?_of_carried hc _)
    exact absurd (hkept i hc) hlost
  | none =>
    have hown : a.thread.fallbackOf? p.epoch = some i :=
      (Thread.own?_of_fallback hc _).symm.trans hown
    obtain ⟨f, hf, rfl⟩ := Option.map_eq_some_iff.1 hown
    obtain ⟨hf, he⟩ := Option.filter_eq_some_iff.1 hf
    refine ⟨rfl, ?_⟩
    rw [hf, ← of_decide_eq_true he]

/-- No table changes when a thread invalidates the fallback tables. -/
theorem exists_outlives (s : Session) (name other : String) (ha : s.actor? other = some a) :
    ∃ b, (s.command name (.onThread .destroy)).2.actor? other = some b ∧
      a.Outlives s.process (s.command name (.onThread .destroy)).2.process b := by
  unfold Session.command
  cases hd : s.actor? name with
  | none => exact ⟨a, ha, outlives_of_thread rfl rfl⟩
  | some d =>
    dsimp only
    by_cases hn : name = other
    · subst hn
      obtain rfl : a = d := Option.some.inj (ha.symm.trans hd)
      have hfound : ∀ p t, ({ s with process := p }.setThread name t).actor? name =
          some { a with thread := t } := fun p t => by
        rw [actor?_setThread]
        exact congrArg _ ha
      exact ⟨_, hfound _ _, outlives_of_thread rfl rfl⟩
    · rw [actor?_eq_head?] at ha ⊢
      rw [bearers_setThread_of_ne _ hn]
      exact ⟨a, ha, outlives_of_thread rfl rfl⟩

/-- **Threads are isolated**: after whatever has set up private variables, the reports of a thread's own
steps and what becomes of its storage are those of its steps alone, in whatever order the threads
take their steps. Invalidating the fallback tables changes no table, and it hides fallback tables
only. -/
theorem isolated (environment : Environment) (depth : Nat) (setup : List Step) :
    let s := ((start environment depth).run setup).2
    (s.process.Private →
      (∀ a ∈ s.actors, ∀ code ∈ a.late, code.IsLocal) →
      ∀ steps : List Step, (∀ x ∈ steps, x.IsLocal) → ∀ name,
        s.reportsOf name steps = (s.run (stepsOf name steps)).1 ∧
          List.Forall₂ Actor.Same ((s.run steps).2.bearers name)
            ((s.run (stepsOf name steps)).2.bearers name)) ∧
      ∀ name other a, s.actor? other = some a →
        ∃ b, (s.command name (.onThread .destroy)).2.actor? other = some b ∧
          a.Outlives s.process (s.command name (.onThread .destroy)).2.process b := by
  intro s
  have hs : s.Sound := (sound_start environment depth).run setup
  refine ⟨fun hp hlate steps hsteps name => ?_, fun name other a ha => s.exists_outlives name other ha⟩
  have hsame := hs.same hp hlate
  obtain ⟨hreports, hrun⟩ := (hsame name).run hp hsame hsteps
  exact ⟨hreports, hrun.actors⟩

/-- Two threads and two variables; the second one starts at one more than the thread's value of the
first one, which its removal hook sets. -/
def privateVariables : List Step :=
  [.run mainName (.declare .int (.plain .int) none),
    .run mainName (.declare .int
      { nested := some (.step "read" (.access 0 .ambient .get) fun
          | .ok (.value value) => .done value
          | _ => .done none)
        outcome := fun _ result => match result with
          | some (.int i) => .ok (.int (i + 1))
          | _ => .error "nothing read"
        silent := false }
      (some
        { nested := some fun _ => .step "set" (.access 0 .ambient (.set (.int 9))) fun _ => .done none
          panics := fun _ => none })),
    .spawn "a" .carried none none,
    .spawn "b" .generic none none]

theorem private_privateVariables :
    ((start {} nestingLimit).run privateVariables).2.process.Private := by
  intro slot v hv
  have hslots : ((start {} nestingLimit).run privateVariables).2.process.bySlot.keys = [1, 2] := by
    decide +kernel
  have hmem : slot ∈ [1, 2] := Process.mem_slots hslots hv
  simp only [List.mem_cons, List.not_mem_nil, or_false] at hmem
  rcases hmem with rfl | rfl
  · cases hv
    refine ⟨fun s hs => ?_, fun _ _ => rfl⟩
    cases hs with
    | initializer h => cases h
    | hook hh => cases hh
  · cases hv
    refine ⟨fun s hs => ?_, fun _ _ => rfl⟩
    cases hs with
    | initializer h =>
      cases h
      refine .step _ (.of_leaf trivial nofun) fun answer => ?_
      split <;> exact .done _
    | hook hh hn value =>
      cases hh
      cases hn
      exact .step _ (.of_leaf trivial nofun) fun _ => .done _

/-- The threads take turns, and one of them ends. -/
def privateTurns : List Step :=
  [.run "a" (.access 1 .ambient .get), .run "b" (.access 0 .ambient (.set (.int 5))),
    .run "b" (.access 1 .ambient .get), .run "a" (.onThread .clear),
    .run "b" (.onThread (.adopt "own")),
    .run "a" (.access 0 .ambient .get), .join "a" none, .run "b" (.access 0 .ambient .get)]

theorem isolated_privateTurns :
    let s := ((start {} nestingLimit).run privateVariables).2
    s.process.Private ∧
      (∀ a ∈ s.actors, ∀ code ∈ a.late, code.IsLocal) ∧
      (∀ x ∈ privateTurns, x.IsLocal) ∧
      (∀ name, s.reportsOf name privateTurns = (s.run (stepsOf name privateTurns)).1 ∧
        List.Forall₂ Actor.Same ((s.run privateTurns).2.bearers name)
          ((s.run (stepsOf name privateTurns)).2.bearers name)) ∧
      ∃ a b, s.actor? "b" = some a ∧ (s.command "a" (.onThread .destroy)).2.actor? "b" = some b ∧
        a.Outlives s.process (s.command "a" (.onThread .destroy)).2.process b := by
  intro s
  have hlate : ∀ a ∈ s.actors, ∀ code ∈ a.late, code.IsLocal := by
    have hnone : s.actors.all (·.late.isEmpty) = true := by decide +kernel
    intro a ha code hcode
    rw [List.isEmpty_iff.1 (List.all_eq_true.1 hnone a ha)] at hcode
    cases hcode
  have hsteps : ∀ x ∈ privateTurns, x.IsLocal := by
    simp only [privateTurns, List.forall_mem_cons]
    exact ⟨.of_leaf trivial nofun, .of_leaf trivial nofun, .of_leaf trivial nofun,
      .of_leaf nofun nofun, .of_leaf nofun nofun, .of_leaf trivial nofun, trivial,
      .of_leaf trivial nofun, nofun⟩
  obtain ⟨hisolated, hdestroy⟩ := isolated {} nestingLimit privateVariables
  obtain ⟨a, ha⟩ := Option.isSome_iff_exists.1
    (show (s.actor? "b").isSome = true by decide +kernel)
  obtain ⟨b, hb, hab⟩ := hdestroy "a" "b" a ha
  exact ⟨private_privateVariables, hlate, hsteps,
    hisolated private_privateVariables hlate _ hsteps, a, b, ha, hb, hab⟩

end Session

end ThreadSlots
