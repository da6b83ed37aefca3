import Mathlib.Data.List.Nodup
import ThreadSlots.Proofs.Agreement
import ThreadSlots.Proofs.TrackedCommands

/-!
# The death watch neither misses a thread nor leaks one

The threads of a session take turns with each other and with the workers of all watchers. Between any
two turns (`Session.Reached`) a thread whose own table has a live set is tracked as long as it can
report its death, a tracked thread has one job of the death watch, waiting or taken by the worker, and
when no worker runs no thread is tracked (`Session.bookkept_of_reached`). The invariant is
`Session.Minded`.

A thread that ends runs the destructors of its thread-locals one after the other. Once the one that
reports its death is gone the thread is not tracked any more, whatever it still stores
(`Session.untracked_of_lateWrite`).

The steps of a session are such turns (`Session.Reached.run`), its workers working when it settles.
-/

namespace ThreadSlots

open Std (ExtTreeMap ExtTreeSet)
open Storage

/-! ## Threads that begin and end -/

namespace Thread

variable {p : Process} {id : ThreadId} {uses : Nat} {label : Option String}

theorem tracks_new (i : TableId) :
    (Thread.table { id := id, locals := { uses := uses }, label := label } i).Tracks
      (·.Only Command.LeavesWatch) := by
  apply Table.Tracks.of_empty
  simp [Thread.table, Table.live]

theorem Steady.of_new (hk : id < p.nextThread) (hc : p.Calm id) :
    Steady p { id := id, locals := { uses := uses }, label := label } :=
  ⟨hk, .inl rfl, fun _ => hc, tracks_new⟩

theorem Listed.of_new : Listed p { id := id, locals := { uses := uses }, label := label } := by
  intro _ i hi hlive
  simp [Thread.table, Table.HasLive] at hlive

end Thread

namespace Scene.Minds

variable {p₀ : Process} {id : ThreadId} {sc : Scene}

/-- The thread's death is reported; from then on nothing is asked of its tables. -/
theorem destroySentinel (h : sc.Minds p₀ id) : (sc.destroy .sentinel).Minds p₀ id := by
  obtain ⟨hv, hs⟩ := h.process.reportDeath h.thread.known sc.thread.sentinel
  have hbound : (sc.destroy .sentinel).process.nextThread = sc.process.nextThread :=
    congrArg (·.nextThread) (sc.stripped_destroy .sentinel)
  refine ⟨⟨hv, ⟨by rw [hbound]; exact h.thread.known, h.thread.exclusive, fun hd => absurd rfl hd,
    h.thread.tracks⟩, h.same, fun t ht => (h.spares t ht).trans (hs t (Or.inl ?_)), ?_⟩,
    fun hd => absurd rfl hd⟩
  · rw [h.same]
    exact ht
  · have heq := sc.process.reportDeath_eq sc.thread.id sc.thread.sentinel
    have hcount := congrArg (·.tally.threadsWatched) heq
    have htracked := congrArg (·.tracked) heq
    exact h.renews.trans (Nat.le_of_eq hcount.symm) fun hmem => htracked ▸ hmem

theorem destroy (h : sc.Minds p₀ id) (l : ThreadLocal) : (sc.destroy l).Minds p₀ id := by
  cases l with
  | carried => exact h.giveUp (.inl rfl) (.inr rfl)
  | fallback => exact h.giveUp (.inr rfl) (.inl rfl)
  | sentinel => exact h.destroySentinel

end Scene.Minds

namespace Session

variable {s : Session} {a : Actor} {sc sc' sc₀ : Scene}

/-! ## Turns -/

/-- The session after an action on a thread. -/
def after (s : Session) (name : String) (sc : Scene) : Session :=
  { s with process := sc.process }.setThread name sc.thread

/-- What an action on the thread of a name sees. -/
structure Shows (s : Session) (name : String) (sc : Scene) : Prop where
  process : sc.process = s.process
  thread : ∃ a ∈ s.actors, a.name = name ∧ sc.thread = a.thread

theorem shows_of_actor? {name : String} (h : s.actor? name = some a) :
    s.Shows name { process := s.process, thread := a.thread } := by
  have hname := List.find?_some h
  exact ⟨rfl, a, List.mem_of_find?_eq_some h, beq_iff_eq.1 hname, rfl⟩

/-- A worker, or one of the threads, does something. -/
inductive Turn (s : Session) : Session → Prop where
  | worker {p : Process} (h : s.process.WorkerStep p) : Turn s { s with process := p }
  /-- A thread does a command, and the workers work in between. -/
  | command {name : String} {sc : Scene} (h : s.Shows name sc) {c : Command}
    (hc : Command.Only Command.LeavesWatch c) (pause : Scene → Process)
    (hpause : ∀ sc : Scene, sc.process.WorkerSteps (pause sc)) :
    Turn s (s.after name (runOn (perform (amid pause s.depth) c) sc).2)
  /-- A thread clears itself before it exits. -/
  | clear {name : String} {sc : Scene} (h : s.Shows name sc) (pause : Scene → Process)
    (hpause : ∀ sc : Scene, sc.process.WorkerSteps (pause sc)) :
    Turn s (s.after name (runOn (clearAndRelease (amid pause s.depth)) sc).2)
  /-- A thread's code uses a thread-local of its own. -/
  | use (name : String) (late : List Command) : Turn s (s.use name late).2
  /-- One of the thread-locals that a thread has used is destroyed. -/
  | destroy {name : String} {sc : Scene} (h : s.Shows name sc) {l : ThreadLocal}
    (hl : (sc.thread.since? l).isSome) : Turn s (s.after name (sc.destroy l))
  /-- A thread ends whose thread-locals were destroyed. -/
  | depart {name : String} {sc : Scene} (h : s.Shows name sc)
    (gone : sc.thread.usedAfter 0 = []) :
    Turn s { s with actors := s.actors.filter (·.name != name) }
  | spawn {name : String} (fresh : s.actor? name = none) (kind : ThreadKind) (label : Option String)
    (late : Option (List Command)) : Turn s (s.spawn name kind label late).2

/-- The sessions that threads and workers lead to, taking turns in any order. -/
inductive Reached (environment : Environment) (depth : Nat) : Session → Prop where
  | start : Reached environment depth (start environment depth)
  | turn {s s' : Session} (h : Reached environment depth s) (ht : Turn s s') :
    Reached environment depth s'

/-! ## The invariant -/

/-- The process is vigilant and every thread minds the death watch. -/
structure Minded (s : Session) : Prop where
  process : s.process.Vigilant
  steady : ∀ a ∈ s.actors, a.thread.Steady s.process
  listed : ∀ a ∈ s.actors, a.thread.Listed s.process
  ids : (s.actors.map (·.thread.id)).Nodup
  names : (s.actors.map (·.name)).Nodup

theorem map_setThread_name (s : Session) (name : String) (t : Thread) :
    (s.setThread name t).actors.map (·.name) = s.actors.map (·.name) := by
  unfold setThread
  rw [List.map_map]
  refine List.map_congr_left fun a _ => ?_
  show (if a.name == name then _ else _ : Actor).name = a.name
  split <;> rfl

namespace Minded

theorem eq_of_name (h : s.Minded) {b : Actor} (ha : a ∈ s.actors) (hb : b ∈ s.actors)
    (he : b.name = a.name) : b = a :=
  List.inj_on_of_nodup_map h.names hb ha he

/-- What a thread sees minds the death watch. -/
theorem minds (h : s.Minded) {name : String} (hsc : s.Shows name sc) :
    sc.Minds s.process sc.thread.id := by
  obtain ⟨hp, a, ha, -, ht⟩ := hsc
  refine ⟨⟨hp ▸ h.process, ?_, rfl, fun t _ => hp ▸ .refl _ t, hp ▸ .refl _ _⟩, ?_⟩
  · rw [hp, ht]
    exact h.steady a ha
  · rw [hp, ht]
    exact h.listed a ha

theorem after (h : s.Minded) {name : String} (hsc : s.Shows name sc)
    (hkeep : ∀ id, sc.Minds s.process id → sc'.Minds s.process id) :
    (s.after name sc').Minded := by
  have hminds := hkeep _ (h.minds hsc)
  obtain ⟨-, a, ha, rfl, ht⟩ := hsc
  rw [ht] at hminds
  -- an actor is the one that has acted or has another thread, which was left alone
  have hcases : ∀ b ∈ (s.after a.name sc').actors, b.thread = sc'.thread ∨
      ∃ c ∈ s.actors, c.thread.id ≠ a.thread.id ∧ b = c := by
    intro b hb
    obtain ⟨c, hc, rfl⟩ := List.mem_map.1 hb
    split
    · exact Or.inl rfl
    · next hne =>
      refine Or.inr ⟨c, hc, fun he => hne ?_, rfl⟩
      rw [List.inj_on_of_nodup_map h.ids hc ha he]
      exact beq_self_eq_true _
  refine ⟨hminds.process, fun b hb => ?_, fun b hb => ?_, ?_, ?_⟩
  · rcases hcases b hb with hb | ⟨c, hc, hid, rfl⟩
    · rw [hb]
      exact hminds.thread
    · exact (h.steady b hc).mono (hminds.spares _ hid)
  · rcases hcases b hb with hb | ⟨c, hc, hid, rfl⟩
    · rw [hb]
      exact hminds.listed
    · exact (h.listed b hc).mono (h.steady b hc) (hminds.spares _ hid)
  · have hids : (s.after a.name sc').actors.map (·.thread.id) = s.actors.map (·.thread.id) := by
      unfold Session.after setThread
      rw [List.map_map]
      refine List.map_congr_left fun b hb => ?_
      show (if b.name == a.name then _ else _ : Actor).thread.id = b.thread.id
      split
      · next he =>
        obtain rfl := h.eq_of_name ha hb (beq_iff_eq.1 he)
        exact hminds.same
      · rfl
    rw [hids]
    exact h.ids
  · unfold Session.after
    rw [map_setThread_name]
    exact h.names

theorem after_self (h : s.Minded) {name : String} (hsc : s.Shows name sc) : s.after name sc = s := by
  obtain ⟨hp, a, ha, rfl, ht⟩ := hsc
  have hactors : s.actors.map (fun b => if b.name == a.name then { b with thread := sc.thread }
      else b) = s.actors := by
    refine (List.map_congr_left fun b hb => ?_).trans (List.map_id _)
    split
    · next he =>
      rw [h.eq_of_name ha hb (beq_iff_eq.1 he), ht]
      rfl
    · rfl
  unfold Session.after setThread
  simp only [hactors, hp]

theorem of_spares (h : s.Minded) {p : Process} (hp : p.Vigilant)
    (hs : ∀ t, s.process.Spares t p) : Minded { s with process := p } where
  process := hp
  steady a ha := (h.steady a ha).mono (hs _)
  listed a ha := (h.listed a ha).mono (h.steady a ha) (hs _)
  ids := h.ids
  names := h.names

theorem start {environment : Environment} (hon : environment.settings.deathWatch = true)
    (depth : Nat) : (start environment depth).Minded := by
  have hthread : ∀ a ∈ (Session.start environment depth).actors,
      a.thread = { id := 0, locals := { uses := 0 }, label := some mainName } := by
    intro a ha
    rw [List.mem_singleton.1 ha]
  refine ⟨⟨Nat.zero_lt_one, .new, fun i hi => ?_, fun name hname => ?_, hon, fun slot v hv => ?_⟩,
    fun a ha => ?_, fun a ha => ?_, ?_, ?_⟩
  · rw [Process.watcher_of_size_le (Nat.one_le_iff_ne_zero.2 hi)]
    exact .new
  · simp only [Session.start, List.lookup_cons] at hname
    split at hname
    · next he => exact beq_iff_eq.1 he
    · cases hname
  · simp [Session.start] at hv
  · rw [hthread a ha]
    exact .of_new Nat.zero_lt_one ⟨List.not_mem_nil, List.not_mem_nil⟩
  · rw [hthread a ha]
    exact .of_new
  · simp [Session.start]
  · simp [Session.start]

/-- A new thread has not died: the books know of no thread from `nextThread` on. -/
theorem calm_newcomer (h : s.Minded) (kind : ThreadKind) (label : Option String) (uses : Nat) :
    (s.newcomer kind label uses).process.Calm s.process.nextThread := by
  refine ⟨fun hmem => Nat.lt_irrefl _ (h.process.books.dead _ hmem), fun hmem => ?_⟩
  obtain ⟨t, hjob, hlt⟩ := h.process.books.taken _ hmem
  cases hjob
  exact Nat.lt_irrefl _ hlt

theorem minds_prepared (h : s.Minded) (kind : ThreadKind) (label : Option String)
    (late : Option (List Command)) :
    (s.prepared kind label late).Minds
      (s.newcomer kind label (Late.first late).length).process s.process.nextThread := by
  have hvigilant : (s.newcomer kind label (Late.first late).length).process.Vigilant :=
    ⟨h.process.watchers, h.process.books.mono (Nat.le_succ _), h.process.others, h.process.names,
      h.process.deathWatch, h.process.callbacks⟩
  exact ((minds_bond _ s.process.nextThread).prepare kind).keeps
    ⟨⟨hvigilant, .of_new (Nat.lt_succ_self _) (h.calm_newcomer kind label _), rfl,
      fun t _ => .refl _ t, .refl _ _⟩, .of_new⟩

theorem beside_spawn (s : Session) (name : String) (kind : ThreadKind) (label : Option String)
    (late : Option (List Command)) :
    (s.prepared kind label late).process.Beside (s.spawn name kind label late).2.process :=
  .of_eq rfl

/-- The threads that are there are left alone when another one starts. -/
theorem spares_spawn (h : s.Minded) (name : String) (kind : ThreadKind) (label : Option String)
    (late : Option (List Command)) {t : ThreadId} (ht : t ≠ s.process.nextThread) :
    s.process.Spares t (s.spawn name kind label late).2.process := by
  have hnewcomer : s.process.Spares t (s.newcomer kind label (Late.first late).length).process :=
    ⟨id, fun _ => id, id, fun _ => id, Nat.le_succ _, Nat.le_refl _⟩
  exact (hnewcomer.trans ((h.minds_prepared kind label late).spares t ht)).trans
    ((beside_spawn s name kind label late).spares t)

theorem spawn (h : s.Minded) {name : String} (fresh : s.actor? name = none) (kind : ThreadKind)
    (label : Option String) (late : Option (List Command)) :
    (s.spawn name kind label late).2.Minded := by
  have hprepared := h.minds_prepared kind label late
  have hnew := beside_spawn s name kind label late
  have hold : ∀ a ∈ s.actors,
      s.process.Spares a.thread.id (s.spawn name kind label late).2.process := fun a ha =>
    h.spares_spawn name kind label late (Nat.ne_of_lt (h.steady a ha).known)
  have hmem : ∀ a ∈ (s.spawn name kind label late).2.actors, a ∈ s.actors ∨
      a.thread = (s.prepared kind label late).thread := by
    intro a ha
    rcases List.mem_append.1 ha with ha | ha
    · exact Or.inl ha
    · rw [List.mem_singleton.1 ha]
      exact Or.inr rfl
  refine ⟨hnew.vigilant hprepared.process, fun a ha => ?_, fun a ha => ?_, ?_, ?_⟩
  · rcases hmem a ha with ha | ha
    · exact (h.steady a ha).mono (hold a ha)
    · rw [ha]
      exact hprepared.thread.mono (hnew.spares _)
  · rcases hmem a ha with ha | ha
    · exact (h.listed a ha).mono (h.steady a ha) (hold a ha)
    · rw [ha]
      exact hprepared.listed.mono hprepared.thread (hnew.spares _)
  · refine (List.map_append ▸ List.nodup_append.2 ⟨h.ids, by simp, fun t ht u hu => ?_⟩)
    obtain ⟨a, ha, rfl⟩ := List.mem_map.1 ht
    rw [List.mem_singleton.1 hu]
    exact fun he => Nat.ne_of_lt (h.steady a ha).known (he.trans hprepared.same)
  · refine (List.map_append ▸ List.nodup_append.2 ⟨h.names, by simp, fun t ht u hu => ?_⟩)
    obtain ⟨a, ha, rfl⟩ := List.mem_map.1 ht
    rw [List.mem_singleton.1 hu]
    intro he
    exact List.find?_eq_none.1 fresh a ha (beq_iff_eq.2 he)

/-- A session in which the threads' code has used other thread-locals. -/
theorem addLate (h : s.Minded) (name : String) (code : Late) : (s.addLate name code).Minded := by
  have hmem : ∀ a ∈ (s.addLate name code).actors, ∃ b ∈ s.actors, a.thread = b.thread := by
    intro a ha
    obtain ⟨b, hb, rfl⟩ := List.mem_map.1 ha
    refine ⟨b, hb, ?_⟩
    split <;> rfl
  have hsame : ∀ {α : Type} (f : Actor → α), (∀ a l, f { a with late := l } = f a) →
      (s.addLate name code).actors.map f = s.actors.map f := by
    intro α f hf
    unfold Session.addLate
    rw [List.map_map]
    refine List.map_congr_left fun a _ => ?_
    show f (if a.name == name then _ else _) = f a
    split
    · exact hf a _
    · rfl
  refine ⟨h.process, fun a ha => ?_, fun a ha => ?_, ?_, ?_⟩
  · obtain ⟨b, hb, hab⟩ := hmem a ha
    rw [hab]
    exact h.steady b hb
  · obtain ⟨b, hb, hab⟩ := hmem a ha
    rw [hab]
    exact h.listed b hb
  · rw [hsame (·.thread.id) fun _ _ => rfl]
    exact h.ids
  · rw [hsame (·.name) fun _ _ => rfl]
    exact h.names

theorem use (h : s.Minded) (name : String) (late : List Command) : (s.use name late).2.Minded := by
  cases ha : s.actor? name with
  | none =>
    rw [use_of_none ha]
    exact h
  | some a =>
    rw [session_use ha]
    have hused : (s.after name { process := s.process, thread := used a.thread }).Minded :=
      h.after (shows_of_actor? ha) fun _ hm => hm.beside ⟨.of_eq rfl, rfl, rfl, rfl, rfl⟩
    exact hused.addLate name _

theorem turn (h : s.Minded) {s' : Session} (ht : Turn s s') : s'.Minded := by
  cases ht with
  | worker hw =>
    obtain ⟨hv, hs⟩ := h.process.workerStep hw
    exact h.of_spares hv hs
  | command hsc hc pause hpause => exact h.after hsc fun _ => (minds_perform hpause _ hc).keeps
  | clear hsc pause hpause => exact h.after hsc fun _ => (minds_clearAndRelease hpause _).keeps
  | use name late => exact h.use name late
  | destroy hsc _ => exact h.after hsc fun _ hm => hm.destroy _
  | depart hsc gone =>
    exact ⟨h.process, fun b hb => h.steady b (List.mem_filter.1 hb).1,
      fun b hb => h.listed b (List.mem_filter.1 hb).1,
      h.ids.sublist (List.filter_sublist.map _), h.names.sublist (List.filter_sublist.map _)⟩
  | spawn fresh kind label late => exact h.spawn fresh kind label late

end Minded

theorem Reached.minded {environment : Environment} {depth : Nat} (h : Reached environment depth s)
    (hon : environment.settings.deathWatch = true) : s.Minded := by
  induction h with
  | start => exact .start hon depth
  | turn _ ht ih => exact ih.turn ht

/-! ## The steps of a session -/

theorem Shows.after {name : String} (h : s.Shows name sc) {p : Process} {t : Thread}
    (hp : sc'.process = p) (ht : sc'.thread = t) :
    ({ s with process := p }.setThread name t).Shows name sc' := by
  obtain ⟨-, a, ha, hn, -⟩ := h
  refine ⟨hp, { a with thread := t }, List.mem_map.2 ⟨a, ha, ?_⟩, hn, ht⟩
  rw [if_pos (beq_iff_eq.2 hn)]

theorem after_after (s : Session) (name : String) (sc sc' : Scene) :
    (s.after name sc).after name sc' = s.after name sc' := by
  unfold after setThread
  simp only [List.map_map, Session.mk.injEq, true_and, and_true]
  refine List.map_congr_left fun a _ => ?_
  by_cases hn : a.name = name
  · simp [hn]
  · simp [hn]

theorem filter_after (s : Session) (name : String) (sc : Scene) :
    (s.after name sc).actors.filter (·.name != name) = s.actors.filter (·.name != name) := by
  unfold after setThread
  dsimp only
  induction s.actors with
  | nil => rfl
  | cons a l ih =>
    by_cases hn : a.name = name
    · simpa [hn] using ih
    · simpa [hn] using ih

namespace Reached

variable {environment : Environment} {depth : Nat} {name : String}

theorem workers (h : Reached environment depth s) {p : Process} (hp : s.process.WorkerSteps p) :
    Reached environment depth { s with process := p } := by
  generalize hq : s.process = q at hp
  induction hp generalizing s with
  | refl =>
    subst hq
    exact h
  | step hstep _ ih =>
    subst hq
    have hrest := ih (h.turn (.worker hstep)) rfl
    exact hrest

/-- A thread goes on after what it has done. -/
theorem goOn (h : Reached environment depth (s.after name sc))
    (ht : Turn (s.after name sc) ((s.after name sc).after name sc')) :
    Reached environment depth (s.after name sc') := by
  rw [after_after] at ht
  exact h.turn ht

theorem settle (h : Reached environment depth (s.after name sc))
    (hon : environment.settings.deathWatch = true) :
    Reached environment depth (s.after name { sc with process := sc.process.settle }) :=
  h.workers (h.minded hon).process.settle

/-- A thread does a command, and no worker gets to work meanwhile. -/
theorem perform (hsc : s.Shows name sc₀) {c : Command} (hc : Command.Only Command.LeavesWatch c)
    (h : Reached environment depth (s.after name sc)) :
    Reached environment depth (s.after name (runOn (perform (enter s.depth) c) sc).2) := by
  have hcommand := h.goOn (.command (hsc.after rfl rfl) hc (·.process) fun _ => .refl _)
  rwa [amid_idle] at hcommand

theorem destroy (hsc : s.Shows name sc₀) {l : ThreadLocal} (hl : (sc.thread.since? l).isSome)
    (h : Reached environment depth (s.after name sc)) :
    Reached environment depth (s.after name (sc.destroy l)) :=
  h.goOn (.destroy (hsc.after rfl rfl) hl)

theorem command (h : Reached environment depth s) (hon : environment.settings.deathWatch = true)
    (name : String) {c : Command} (hc : Command.Only Command.LeavesWatch c) :
    Reached environment depth (s.command name c).2 := by
  unfold Session.command
  cases ha : s.actor? name with
  | none => exact h
  | some a =>
    have hshows := shows_of_actor? ha
    have hbegin : Reached environment depth (s.after name _) := (h.minded hon).after_self hshows ▸ h
    -- the session itself lets the workers work after a command only, when it settles
    exact (hbegin.perform hshows hc).settle hon

theorem clearOnExit (hsc : s.Shows name sc₀) (kind : ThreadKind)
    (h : Reached environment depth (s.after name sc)) :
    Reached environment depth (s.after name (runOn (clearOnExit kind s.depth) sc).2) := by
  unfold ThreadSlots.clearOnExit
  rw [runOn_ite]
  split
  · have hclear := h.goOn (.clear (hsc.after rfl rfl) (·.process) fun _ => .refl _)
    rwa [amid_idle] at hclear
  · exact h

/-- A thread runs the destructors of thread-locals of its own code. -/
theorem runDestructors (hsc : s.Shows name sc₀) {late : List Late}
    (hlate : ∀ code ∈ late, ∀ c ∈ code.commands, Command.Only Command.LeavesWatch c)
    (h : Reached environment depth (s.after name sc)) :
    Reached environment depth (s.after name (runDestructors s.depth sc late).2) :=
  runDestructors_induction (P := fun sc => Reached environment depth (s.after name sc))
    (fun _ _ => destroy hsc) (fun _ code hcode c hc => perform hsc (hlate code hcode c hc)) h

/-- A thread runs the destructors of all thread-locals. -/
theorem tearDown (hsc : s.Shows name sc₀) {late : List Late}
    (hlate : ∀ code ∈ late, ∀ c ∈ code.commands, Command.Only Command.LeavesWatch c)
    (h : Reached environment depth (s.after name sc)) :
    Reached environment depth (s.after name (tearDown s.depth sc late).2) :=
  Scene.unwind_induction (P := fun sc => Reached environment depth (s.after name sc))
    (fun _ _ => destroy hsc) (runDestructors hsc hlate h) 0

theorem join (h : Reached environment depth s) (hon : environment.settings.deathWatch = true)
    (name : String) (panics : Option String)
    (hlate : ∀ a ∈ s.actors, ∀ code ∈ a.late, ∀ c ∈ code.commands,
      Command.Only Command.LeavesWatch c) :
    Reached environment depth (s.join name panics).2 := by
  unfold Session.join
  cases ha : s.actor? name with
  | none => exact h
  | some a =>
    have hshows := shows_of_actor? ha
    have hbegin : Reached environment depth (s.after name _) :=
      (h.minded hon).after_self hshows ▸ h
    have hclear := clearOnExit hshows a.kind hbegin
    have hgone := hclear.tearDown hshows (hlate a (List.mem_of_find?_eq_some ha))
    have hdeparted := (hgone.settle hon).turn
      (.depart (hshows.after rfl rfl) (Scene.usedAfter_unwind _ 0))
    rw [filter_after] at hdeparted
    exact hdeparted

theorem spawn (h : Reached environment depth s) (fresh : s.actor? name = none) (kind : ThreadKind)
    (label : Option String) (late : Option (List Command)) :
    Reached environment depth (s.spawn name kind label late).2 :=
  h.turn (.spawn fresh kind label late)

theorem use (h : Reached environment depth s) (name : String) (late : List Command) :
    Reached environment depth (s.use name late).2 :=
  h.turn (.use name late)

end Reached

/-- The step leaves the death watch to itself, and it starts no thread under a name that is taken. -/
def Allows (s : Session) : Step → Prop
  | .run _ c => Command.Only Command.LeavesWatch c
  | .spawn name _ _ late =>
    s.actor? name = none ∧ ∀ c ∈ late.getD [], Command.Only Command.LeavesWatch c
  | .use _ late => ∀ c ∈ late, Command.Only Command.LeavesWatch c
  | .join .. => True

/-- All steps are allowed when their turn comes. -/
def AllowsAll (s : Session) : List Step → Prop
  | [] => True
  | x :: xs => s.Allows x ∧ (s.step x).2.AllowsAll xs

/-- The destructors of the threads' own code leave the death watch to itself. -/
def LateLeavesWatch (s : Session) : Prop :=
  ∀ a ∈ s.actors, ∀ code ∈ a.late, ∀ c ∈ code.commands, Command.Only Command.LeavesWatch c

theorem LateLeavesWatch.step (h : s.LateLeavesWatch) {x : Step} (hx : s.Allows x) :
    (s.step x).2.LateLeavesWatch := by
  cases x with
  | run name c =>
    show (s.command name c).2.LateLeavesWatch
    unfold Session.command
    cases s.actor? name with
    | none => exact h
    | some a =>
      intro b hb
      obtain ⟨d, hd, rfl⟩ := List.mem_map.1 hb
      split
      · exact h d hd
      · exact h d hd
  | spawn name kind label late =>
    intro b hb
    rcases List.mem_append.1 hb with hb | hb
    · exact h b hb
    · rw [List.mem_singleton.1 hb]
      exact Late.forall_first hx.2
  | use name late =>
    cases ha : s.actor? name with
    | none =>
      show (s.use name late).2.LateLeavesWatch
      rw [use_of_none ha]
      exact h
    | some a =>
      show (s.use name late).2.LateLeavesWatch
      rw [session_use ha]
      intro b hb
      obtain ⟨c, hc, rfl⟩ := List.mem_map.1 hb
      obtain ⟨d, hd, rfl⟩ := List.mem_map.1 hc
      by_cases hn : d.name == name
      · simp only [hn, if_true]
        exact List.forall_mem_cons.2 ⟨hx, h d hd⟩
      · simp only [hn, Bool.false_eq_true, if_false]
        exact h d hd
  | join name panics =>
    show (s.join name panics).2.LateLeavesWatch
    unfold Session.join
    cases s.actor? name with
    | none => exact h
    | some a => exact fun b hb => h b (List.mem_filter.1 hb).1

theorem LateLeavesWatch.run (h : s.LateLeavesWatch) {steps : List Step} (hsteps : s.AllowsAll steps) :
    (s.run steps).2.LateLeavesWatch := by
  induction steps generalizing s with
  | nil => exact h
  | cons x steps ih => exact ih (h.step hsteps.1) hsteps.2

theorem Reached.step {environment : Environment} {depth : Nat} (h : Reached environment depth s)
    (hon : environment.settings.deathWatch = true) (hlate : s.LateLeavesWatch) {x : Step}
    (hx : s.Allows x) : Reached environment depth (s.step x).2 := by
  cases x with
  | run name c => exact h.command hon name hx
  | spawn name kind label late => exact h.spawn hx.1 kind label late
  | use name late => exact h.use name late
  | join name panics => exact h.join hon name panics hlate

/-- The steps of a session are turns of its threads and workers. -/
theorem Reached.run {environment : Environment} {depth : Nat} (h : Reached environment depth s)
    (hon : environment.settings.deathWatch = true) (hlate : s.LateLeavesWatch) {steps : List Step}
    (hsteps : s.AllowsAll steps) : Reached environment depth (s.run steps).2 := by
  induction steps generalizing s with
  | nil => exact h
  | cons x steps ih =>
    obtain ⟨hx, hsteps⟩ := hsteps
    exact ih (h.step hon hlate hx) (hlate.step hx) hsteps

/-! ## Results -/

/-- What the books of the death watch say about the threads. -/
structure Bookkept (s : Session) : Prop where
  /-- no thread is missed that can still report its death -/
  tracked : ∀ a ∈ s.actors, a.thread.sentinel ≠ .destroyed → ∀ t, a.table? s.process = some t →
    t.HasLive → a.thread.id ∈ s.process.tracked
  /-- a tracked thread has its job, waiting or taken -/
  kept : ∀ t ∈ s.process.tracked,
    (s.process.watcher deathWatcher).watched[t]? = some [.forget t] ∨
      .forget t ∈ (s.process.watcher deathWatcher).taken
  /-- a thread has one job that waits at most, and none if its job was taken -/
  single : ∀ (t : ThreadId) js, (s.process.watcher deathWatcher).watched[t]? = some js →
    js.length ≤ 1 ∧ .forget t ∉ (s.process.watcher deathWatcher).taken
  /-- no thread is left when no worker runs -/
  empty : (s.process.watcher deathWatcher).running = false → s.process.tracked.size = 0

/-- **The death watch neither misses a thread nor leaks one**, whatever the threads do, also while
their thread-locals are being destroyed, and whenever the workers get to work. -/
theorem bookkept_of_reached {environment : Environment} {depth : Nat}
    (hon : environment.settings.deathWatch = true) (h : Reached environment depth s) :
    s.Bookkept := by
  have hs := h.minded hon
  have hbooks := hs.process.books
  refine ⟨fun a ha hd t ht hlive => ?_, fun t ht => ?_, fun t js hjs => ?_, fun hidle => ?_⟩
  · obtain ⟨i, hi, rfl⟩ := Option.map_eq_some_iff.1 ht
    exact hs.listed a ha hd i (Thread.holds_of_own? hi) hlive
  · refine (hbooks.tracked t ht).imp_left fun hw => ?_
    obtain ⟨js, hjs⟩ := Option.isSome_iff_exists.1 (ExtTreeMap.mem_iff_isSome_getElem?.1 hw)
    rw [hjs, (hbooks.waits t js hjs).1]
  · obtain ⟨rfl, -, htaken, -⟩ := hbooks.waits t js hjs
    exact ⟨Nat.le_refl 1, htaken⟩
  · obtain ⟨hwatched, -⟩ := hbooks.tidy.idle hidle
    have htaken : (s.process.watcher deathWatcher).taken = [] := by
      rw [hbooks.tidy.eq_new hidle]
      rfl
    have hempty : s.process.tracked = ∅ := by
      apply ExtTreeSet.ext_mem
      intro t
      refine ⟨fun ht => ?_, fun ht => absurd ht ExtTreeSet.not_mem_empty⟩
      rcases hbooks.tracked t ht with hw | hw
      · rw [hwatched] at hw
        exact absurd hw ExtTreeMap.not_mem_empty
      · rw [htaken] at hw
        cases hw
    rw [hempty]
    rfl

/-- The death watch is on. -/
def watchOn : Environment := { entries := [(Settings.deathWatchVariable, "on".toUTF8)] }

/-- A thread sets a variable. -/
def watchedThread : List Step :=
  [.run mainName (.declare .int (.plain .int) none),
    .spawn "a" .generic none none,
    .run "a" (.access 0 .ambient (.set (.int 1)))]

/-- The thread of `watchedThread` has died and the worker has taken its job. -/
theorem exists_taken : ∃ s, Reached watchOn nestingLimit s ∧ s.process.tracked.toList = [1] ∧
    (s.process.watcher deathWatcher).taken = [.forget 1] := by
  let s := ((start watchOn nestingLimit).run watchedThread).2
  have hon : watchOn.settings.deathWatch = true := by decide +kernel
  have hlate : (start watchOn nestingLimit).LateLeavesWatch := by
    intro a ha code hcode
    rw [List.mem_singleton.1 ha] at hcode
    cases hcode
  have hs : Reached watchOn nestingLimit s := by
    refine Reached.start.run hon hlate ⟨.of_leaf trivial fun t ht => ?_, ⟨by decide +kernel, nofun⟩,
      .of_leaf trivial nofun, trivial⟩
    cases ht with
    | declare _ h => cases h <;> contradiction
  have hdying : ((s.actor? "a").map fun a =>
      let p := (Scene.destroy { process := s.process, thread := a.thread } .sentinel).process
      ((a.thread.since? .sentinel).isSome, p.tracked.toList,
        ((p.watcher deathWatcher).workerTake 0).map (·.taken))) =
        some (true, [1], some [.forget 1]) := by
    decide +kernel
  obtain ⟨a, ha, hdying⟩ := Option.map_eq_some_iff.1 hdying
  simp only [Prod.mk.injEq] at hdying
  obtain ⟨hused, htracked, htake⟩ := hdying
  obtain ⟨w, hw, htaken⟩ := Option.map_eq_some_iff.1 htake
  have hdied := hs.turn (.destroy (shows_of_actor? ha) hused)
  refine ⟨_, hdied.turn (.worker (.take deathWatcher 0 hw)), htracked, ?_⟩
  have hself := Process.watcher_updateWatcher_self (hdied.minded hon).process.watchers fun _ => w
  rw [hself]
  exact htaken

theorem bookkept_of_reached_taken : watchOn.settings.deathWatch = true ∧
    ∃ s, Reached watchOn nestingLimit s ∧ s.process.tracked.toList = [1] ∧
      (s.process.watcher deathWatcher).taken = [.forget 1] ∧ s.Bookkept := by
  have hon : watchOn.settings.deathWatch = true := by decide +kernel
  obtain ⟨s, hs, htracked, htaken⟩ := exists_taken
  exact ⟨hon, s, hs, htracked, htaken, bookkept_of_reached hon hs⟩

/-- A thread asks for a variable, uses a thread-local of its own whose destructor clears the thread and
sets the variable, and sets the variable itself. -/
def lateWriter : List Step :=
  [.run mainName (.declare .int (.plain .int) none),
    .spawn "a" .generic none none,
    .run "a" (.access 0 .ambient .isSet),
    .use "a" [.onThread .clear, .access 0 .ambient (.set (.int 2))],
    .run "a" (.access 0 .ambient (.set (.int 1)))]

/-- The sentinel of the thread of `lateWriter` is destroyed first. What the thread's own destructor
stores then is listed in a table that the thread still has, but the thread is not tracked any more. -/
theorem untracked_of_lateWrite :
    let s := ((start watchOn nestingLimit).run lateWriter).2
    ∃ a, s.actor? "a" = some a ∧
      let s' := s.after "a"
        (runDestructors s.depth { process := s.process, thread := a.thread } a.late).2
      Reached watchOn nestingLimit s' ∧ ∃ b ∈ s'.actors, ∃ t, b.table? s'.process = some t ∧
        t.HasLive ∧ b.thread.id ∉ s'.process.tracked := by
  intro s
  have hon : watchOn.settings.deathWatch = true := by decide +kernel
  have hlate : (start watchOn nestingLimit).LateLeavesWatch := by
    intro a ha code hcode
    rw [List.mem_singleton.1 ha] at hcode
    cases hcode
  have hallows : (start watchOn nestingLimit).AllowsAll lateWriter := by
    refine ⟨.of_leaf trivial fun t ht => ?_, ⟨by decide +kernel, nofun⟩, .of_leaf trivial nofun,
      List.forall_mem_cons.2 ⟨.of_leaf trivial nofun, List.forall_mem_cons.2
        ⟨.of_leaf trivial nofun, nofun⟩⟩, .of_leaf trivial nofun, trivial⟩
    cases ht with
    | declare _ h => cases h <;> contradiction
  have hs : Reached watchOn nestingLimit s := Reached.start.run hon hlate hallows
  have hview : (s.actor? "a").map (fun a =>
      let sc := (runDestructors s.depth { process := s.process, thread := a.thread } a.late).2
      ((sc.own?.map sc.thread.table).any fun t => ((t.get? reservedSlot).bind Cell.liveSet?).isSome,
        sc.process.tracked.contains sc.thread.id)) = some (true, false) := by
    decide +kernel
  have hleaves : s.LateLeavesWatch := hlate.run hallows
  obtain ⟨a, ha, hview⟩ := Option.map_eq_some_iff.1 hview
  simp only [Prod.mk.injEq] at hview
  obtain ⟨hlive, htracked⟩ := hview
  have hshows := shows_of_actor? ha
  have hbegin : Reached watchOn nestingLimit (s.after "a" _) :=
    (hs.minded hon).after_self hshows ▸ hs
  have hended := hbegin.runDestructors hshows (hleaves a (List.mem_of_find?_eq_some ha))
  refine ⟨a, ha, hended, ?_⟩
  generalize (Session.runDestructors s.depth _ a.late).2 = ended at hlive htracked ⊢
  have hafter : (s.after "a" ended).Shows "a" ended := hshows.after rfl rfl
  obtain ⟨-, b, hb, -, hthread⟩ := hafter
  obtain ⟨t, ht, hlive⟩ := (Option.any_eq_true _ _).1 hlive
  refine ⟨b, hb, t, ?_, hlive, ?_⟩
  · rw [Actor.table?, ← hthread]
    exact ht
  · rw [← hthread]
    exact fun hmem =>
      Bool.false_ne_true (htracked.symm.trans (ExtTreeSet.contains_iff_mem.2 hmem))

end Session

end ThreadSlots
