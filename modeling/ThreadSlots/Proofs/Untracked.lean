import Mathlib.Logic.Relation
import ThreadSlots.Proofs.Tracking

/-!
# A cleared thread leaves the death watch

A thread that clears itself is untracked before its removal hooks are called, and its table is
discarded after them. So it is tracked afterwards only if a live set was made meanwhile, as happens
when a hook sets a variable (`Session.tracked_after_settingHook`).

A thread that is not tracked stays so until it runs a command, whatever the other threads and the
workers do, and also when it exits (`Session.Rests`): no job is left for its death. Both together are
`Session.untracked_of_clear`.
-/

namespace ThreadSlots

open Std (ExtTreeMap ExtTreeSet)
open Storage

/-! ## Clearing a thread -/

namespace Scene

variable {p₀ : Process} {id : ThreadId} {sc : Scene}

/-- What is done from here on starts from this process. -/
theorem Minds.rebase (h : sc.Minds p₀ id) : sc.Minds sc.process id :=
  ⟨⟨h.process, h.thread, h.same, fun t _ => .refl _ t, .refl _ _⟩, h.listed⟩

/-- Untracking a thread leaves it untracked, and no watch is counted. -/
theorem not_mem_unwatched (h : sc.process.Vigilant) :
    sc.thread.id ∉ sc.unwatched.process.tracked ∧
      sc.unwatched.process.tally.threadsWatched = sc.process.tally.threadsWatched := by
  unfold Scene.unwatched Storage.untrackThread
  rw [h.deathWatch]
  simp only [if_true, runOn_bind, runOn_thread, runOn_process, runOn_ite, runOn_modifyProcess,
    runOn_pure]
  split
  · exact ⟨fun hmem => by simp [Process.updateWatcher] at hmem, rfl⟩
  · next hout => exact ⟨fun hmem => hout (ExtTreeSet.contains_iff_mem.2 hmem), rfl⟩

/-- Untracking a thread that is not tracked changes nothing for the death watch. -/
theorem beside_unwatched (h : sc.process.Vigilant) (hout : sc.thread.id ∉ sc.process.tracked) :
    sc.process.Beside sc.unwatched.process := by
  unfold Scene.unwatched Storage.untrackThread
  rw [h.deathWatch]
  simp only [if_true, runOn_bind, runOn_thread, runOn_process, runOn_ite, runOn_modifyProcess,
    runOn_pure]
  split
  · next hmem => exact absurd (ExtTreeSet.contains_iff_mem.1 hmem) hout
  · exact .of_eq rfl

/-- However a clearing ends, what came after the thread was untracked minds the death watch. -/
theorem Minds.clearThread {pause : Scene → Process}
    (hpause : ∀ sc : Scene, sc.process.WorkerSteps (pause sc)) (depth : Nat) (h : sc.Minds p₀ id) :
    (runOn (clearThread (amid pause depth)) sc).2.Minds sc.unwatched.process id := by
  unfold ThreadSlots.clearThread
  rw [runOn_bind, runOn_clearTable]
  cases ho : sc.own? with
  | none => exact (h.unwatched ho).rebase
  | some i =>
    have hbond := minds_bond sc.unwatched.process id
    have hdetached : (sc.detached i).Minds sc.unwatched.process id := (h.detached ho).rebase
    have heach := (hbond.toBond.clearEach (fun _ => minds_amid hpause depth) (fun _ hv => hv)
      (rfl : i = i) (sc.thread.table i).listed fun _ hv =>
        (h.thread.tracks i).mem_toList hv).keeps hdetached
    dsimp only
    generalize runOn (clearEach (amid pause depth) i _) (sc.detached i) = ended at heach
    obtain ⟨stop | _, s⟩ := ended
    · exact heach.beside ⟨.of_eq rfl, rfl, rfl, rfl, rfl⟩
    · exact (heach.beside (.of_process (Process.beside_count _ _))).discard

theorem beside_discard (sc : Scene) :
    sc.process.Beside (runOn Storage.discard sc).2.process := by
  rw [runOn_discard]
  cases sc.thread.carried? with
  | none => exact .of_eq rfl
  | some i => exact (Process.beside_count _ .tablesCreated).trans (.of_eq rfl)

/-- A thread without a live set has nothing to clear when it exits. -/
theorem beside_clearAndRelease (enter : Enter) (h : sc.Minds p₀ id)
    (halive : sc.thread.sentinel ≠ .destroyed) (hout : sc.thread.id ∉ sc.process.tracked) :
    sc.process.Beside (runOn (clearAndRelease enter) sc).2.process := by
  have hunwatched := beside_unwatched h.process hout
  unfold ThreadSlots.clearAndRelease
  rw [runOn_bind, runOn_clearTable]
  cases ho : sc.own? with
  | none => exact hunwatched
  | some i =>
    have hblank : ¬ (sc.thread.table i).HasLive := fun hlive =>
      hout (h.listed halive i (Thread.holds_of_own? ho) hlive)
    have hlisted : (sc.thread.table i).listed = [] := by
      simp [Table.listed, Table.live_of_not_hasLive hblank]
    have hcounted := hunwatched.trans (Process.beside_count sc.unwatched.process .removeAllPasses)
    simp only [hlisted, clearEach, runOn_pure, if_true, runOn_bind, runOn_release, runOn_ite]
    split
    · refine Process.Beside.trans ?_ (beside_discard _)
      exact hcounted
    · exact hcounted

end Scene

/-! ## A thread at rest -/

/-- The thread is not tracked, and the death watch has no job for it but what its worker had taken
before. -/
structure Process.Forgets (p : Process) (t : ThreadId) (p' : Process) : Prop where
  untracked : t ∉ p'.tracked
  waiting : (p'.watcher deathWatcher).watched[t]? = none
  taken : .forget t ∈ (p'.watcher deathWatcher).taken → .forget t ∈ (p.watcher deathWatcher).taken

theorem Process.Spares.forgets {p p' : Process} {t : ThreadId} (h : p.Spares t p')
    (hp' : p'.Vigilant) (ht : t ∉ p.tracked) : p.Forgets t p' :=
  ⟨h.untracked ht, hp'.books.watched_eq_none (h.untracked ht), h.taken ht⟩

namespace Session

variable {s s' : Session} {sc : Scene} {t : ThreadId}

/-- A worker or another thread does something, or one of the things happens that end a thread, the
resting one or another. -/
inductive Rests (t : ThreadId) (s : Session) : Session → Prop where
  | worker {p : Process} (h : s.process.WorkerStep p) : Rests t s { s with process := p }
  | command {name : String} {sc : Scene} (h : s.Shows name sc) (other : sc.thread.id ≠ t)
    {c : Command} (hc : Command.Only Command.LeavesWatch c) (pause : Scene → Process)
    (hpause : ∀ sc : Scene, sc.process.WorkerSteps (pause sc)) :
    Rests t s (s.after name (runOn (perform (amid pause s.depth) c) sc).2)
  | clear {name : String} {sc : Scene} (h : s.Shows name sc)
    (alive : sc.thread.id = t → sc.thread.sentinel ≠ .destroyed) (pause : Scene → Process)
    (hpause : ∀ sc : Scene, sc.process.WorkerSteps (pause sc)) :
    Rests t s (s.after name (runOn (clearAndRelease (amid pause s.depth)) sc).2)
  | use (name : String) (late : List Command) : Rests t s (s.use name late).2
  | destroy {name : String} {sc : Scene} (h : s.Shows name sc) {l : ThreadLocal}
    (hl : (sc.thread.since? l).isSome) : Rests t s (s.after name (sc.destroy l))
  | depart {name : String} {sc : Scene} (h : s.Shows name sc)
    (gone : sc.thread.usedAfter 0 = []) :
    Rests t s { s with actors := s.actors.filter (·.name != name) }
  | spawn {name : String} (fresh : s.actor? name = none) (kind : ThreadKind) (label : Option String)
    (late : Option (List Command)) : Rests t s (s.spawn name kind label late).2

theorem Rests.turn (h : Rests t s s') : Turn s s' := by
  cases h with
  | worker h => exact .worker h
  | command h _ hc pause hpause => exact .command h hc pause hpause
  | clear h _ pause hpause => exact .clear h pause hpause
  | use name late => exact .use name late
  | destroy h hl => exact .destroy h hl
  | depart h gone => exact .depart h gone
  | spawn fresh kind label late => exact .spawn fresh kind label late

/-- A thread that rests and is not tracked is left alone. -/
theorem Rests.spares (h : Rests t s s') (hs : s.Minded) (hknown : t < s.process.nextThread)
    (ht : t ∉ s.process.tracked) : s.process.Spares t s'.process := by
  cases h with
  | worker h => exact (hs.process.workerStep h).2 t
  | command h other hc pause hpause =>
    exact ((minds_perform hpause s.depth hc).keeps (hs.minds h)).spares t other.symm
  | @clear name sc h alive pause hpause =>
    by_cases hid : sc.thread.id = t
    · subst hid
      have hout : sc.thread.id ∉ sc.process.tracked := by rwa [h.process]
      exact h.process ▸
        (Scene.beside_clearAndRelease _ (hs.minds h) (alive rfl) hout).spares _
    · exact ((minds_clearAndRelease hpause s.depth).keeps (hs.minds h)).spares t (Ne.symm hid)
  | use name late =>
    have hprocess : (s.use name late).2.process = s.process := by
      cases ha : s.actor? name with
      | none => rw [use_of_none ha]
      | some a => rw [session_use ha]; rfl
    rw [hprocess]
    exact .refl _ t
  | @destroy name sc h l hl =>
    cases l with
    | carried => exact h.process ▸ .refl _ t
    | fallback => exact h.process ▸ .refl _ t
    | sentinel =>
      have hsc := hs.minds h
      refine h.process ▸ (hsc.process.reportDeath hsc.thread.known sc.thread.sentinel).2 t ?_
      by_cases hid : t = sc.thread.id
      · exact Or.inr (by rwa [h.process, ← hid])
      · exact Or.inl hid
  | depart h gone => exact .refl _ t
  | spawn fresh kind label late =>
    exact hs.spares_spawn _ kind label late (Nat.ne_of_lt hknown)

/-- However long a thread rests, it is left alone. -/
theorem Minded.spares_of_rests (hs : s.Minded) (hknown : t < s.process.nextThread)
    (ht : t ∉ s.process.tracked) (h : Relation.ReflTransGen (Rests t) s s') :
    s'.Minded ∧ s.process.Spares t s'.process := by
  induction h with
  | refl => exact ⟨hs, .refl _ t⟩
  | tail _ hstep ih =>
    obtain ⟨hs', hspares⟩ := ih
    exact ⟨hs'.turn hstep.turn, hspares.trans (hstep.spares hs'
      (Nat.lt_of_lt_of_le hknown hspares.bound) (hspares.untracked ht))⟩

/-! ## Results -/

/-- **Clearing a thread cancels its death watch** unless a watch is counted while its hooks run. In any
case a thread that is not tracked once it was cleared is forgotten for good: while it rests, and also
when it exits, no job of it is left to take, and unless it was on its way out already none was taken. -/
theorem untracked_of_clear {environment : Environment} {depth : Nat}
    (hon : environment.settings.deathWatch = true) (h : Reached environment depth s) {name : String}
    (hsc : s.Shows name sc) {pause : Scene → Process}
    (hpause : ∀ sc : Scene, sc.process.WorkerSteps (pause sc)) :
    let sc' := (runOn (clearThread (amid pause s.depth)) sc).2
    (sc'.process.tally.threadsWatched = sc.process.tally.threadsWatched →
      sc.thread.id ∉ sc'.process.tracked) ∧
    (sc.thread.id ∉ sc'.process.tracked →
      (sc'.thread.sentinel ≠ .destroyed →
        .forget sc.thread.id ∉ (sc'.process.watcher deathWatcher).taken) ∧
      ∀ s', Relation.ReflTransGen (Rests sc.thread.id) (s.after name sc') s' →
        sc'.process.Forgets sc.thread.id s'.process) := by
  intro sc'
  have hs := h.minded hon
  have hminds := hs.minds hsc
  have hcleared : sc'.Minds sc.unwatched.process sc.thread.id := hminds.clearThread hpause s.depth
  obtain ⟨hout, hcount⟩ := Scene.not_mem_unwatched hminds.process
  refine ⟨fun hquiet hmem => ?_, fun hout' => ⟨fun halive => ?_, fun s' hrests => ?_⟩⟩
  · have hgrown := (hcleared.renews.tracked hmem).resolve_left hout
    omega
  · have hcalm := hcleared.thread.calm halive
    rw [hcleared.same] at hcalm
    exact hcalm.2
  · have hafter : (s.after name sc').Minded := hs.after hsc fun id =>
      (OwnBond.clearThread (fun _ => minds_amid hpause s.depth) (fun _ hv => hv)
        (minds_bond s.process id)).keeps
    have hknown : sc.thread.id < sc'.process.nextThread := hcleared.same ▸ hcleared.thread.known
    obtain ⟨hs', hspares⟩ := hafter.spares_of_rests hknown hout' hrests
    exact hspares.forgets hs'.process hout'

/-- A thread sets a variable whose removal hook does something to another variable. -/
def hookedThread (op : Access) : List Step :=
  [.spawn "a" .generic none none,
    .run mainName (.declare .int (.plain .int) (some
      { nested := some fun _ => .step "access" (.access 1 .ambient op) fun _ => .done none
        panics := fun _ => none })),
    .run mainName (.declare .int (.plain .int) none),
    .run "a" (.access 0 .ambient (.set (.int 1)))]

theorem reached_hookedThread {op : Access}
    (hop : Command.Only Command.LeavesWatch (.access 1 .ambient op)) :
    Reached watchOn nestingLimit ((start watchOn nestingLimit).run (hookedThread op)).2 := by
  have hlate : (start watchOn nestingLimit).LateLeavesWatch := by
    intro a ha code hcode
    rw [List.mem_singleton.1 ha] at hcode
    cases hcode
  refine Reached.start.run (by decide +kernel) hlate ⟨⟨by decide +kernel, nofun⟩,
    .intro trivial fun script h => ?_, .intro trivial fun script h => ?_, .of_leaf trivial nofun,
    trivial⟩
  · cases h with
    | declare _ h =>
      cases h with
      | initializer h => cases h
      | hook hh hn value =>
        cases hh
        cases hn
        exact .step _ hop fun _ => .done _
  · cases h with
    | declare _ h => cases h <;> contradiction

/-- A thread that clears itself, and what its hook does meanwhile is to unset another variable. -/
theorem untracked_of_clear_removingHook : ∃ s sc, Reached watchOn nestingLimit s ∧ s.Shows "a" sc ∧
    sc.process.tracked.toList = [1] ∧
    let sc' := (runOn (clearThread (amid (·.process) s.depth)) sc).2
    sc'.thread.sentinel ≠ .destroyed ∧ sc'.process.tally.threadsWatched = 1 ∧
    sc.thread.id ∉ sc'.process.tracked ∧
      .forget sc.thread.id ∉ (sc'.process.watcher deathWatcher).taken ∧
      ∀ s', Relation.ReflTransGen (Rests sc.thread.id) (s.after "a" sc') s' →
        sc'.process.Forgets sc.thread.id s'.process := by
  let s := ((start watchOn nestingLimit).run (hookedThread .remove)).2
  have hs : Reached watchOn nestingLimit s := reached_hookedThread (.of_leaf trivial nofun)
  have hview : (s.actor? "a").map (fun a =>
      let sc : Scene := { process := s.process, thread := a.thread }
      let sc' := (runOn (clearThread (enter s.depth)) sc).2
      (s.process.tracked.toList, s.process.tally.threadsWatched, sc'.process.tally.threadsWatched,
        sc'.thread.sentinel)) = some ([1], 1, 1, .installed 2 [0]) := by
    decide +kernel
  obtain ⟨a, ha, hview⟩ := Option.map_eq_some_iff.1 hview
  simp only [Prod.mk.injEq] at hview
  obtain ⟨htracked, hbefore, hafter, hsentinel⟩ := hview
  have hshows := shows_of_actor? ha
  have halive := ne_of_eq_of_ne hsentinel (show Sentinel.installed 2 [0] ≠ .destroyed by decide)
  obtain ⟨hout, hrests⟩ := untracked_of_clear (by decide +kernel) hs hshows fun sc =>
    Process.WorkerSteps.refl sc.process
  simp only [amid_idle] at hout hrests ⊢
  have hout := hout (hafter.trans hbefore.symm)
  exact ⟨s, _, hs, hshows, htracked, halive, hafter, hout, (hrests hout).1 halive, (hrests hout).2⟩

/-- A hook that sets another variable has the thread tracked again, and then it stays tracked: its
table is discarded, but when it dies the worker takes its job. -/
theorem tracked_after_settingHook : ∃ s sc sc', Reached watchOn nestingLimit s ∧ s.Shows "a" sc ∧
    runOn (clearThread (amid (·.process) s.depth)) sc = (.ok (), sc') ∧
    sc'.process.tracked.toList = [sc.thread.id] ∧ (runOn liveCount sc').1 = .ok 0 ∧
    ∃ s', Relation.ReflTransGen (Rests sc.thread.id) (s.after "a" sc') s' ∧
      (s'.process.watcher deathWatcher).taken = [.forget sc.thread.id] := by
  let s := ((start watchOn nestingLimit).run (hookedThread (.set (.int 5)))).2
  have hs : Reached watchOn nestingLimit s := reached_hookedThread (.of_leaf trivial nofun)
  have hview : (s.actor? "a").map (fun a =>
      let ended := runOn (clearThread (enter s.depth)) { process := s.process, thread := a.thread }
      let p := (ended.2.destroy .sentinel).process
      (ended.1.toOption.isSome && (ended.2.thread.since? .sentinel).isSome,
        decide (ended.2.process.tracked.toList = [a.thread.id]),
        (runOn liveCount ended.2).1.toOption,
        ((p.watcher deathWatcher).workerTake 0).map fun w => decide
          (((p.updateWatcher deathWatcher fun _ => w).watcher deathWatcher).taken =
            [.forget a.thread.id]))) = some (true, true, some 0, some true) := by
    decide +kernel
  obtain ⟨a, ha, hview⟩ := Option.map_eq_some_iff.1 hview
  have hshows := shows_of_actor? ha
  generalize hended : runOn (clearThread (enter s.depth)) _ = ended at hview
  rcases ended with ⟨_ | _, sc'⟩
  · simp [Except.toOption] at hview
  simp only [Prod.mk.injEq, decide_eq_true_eq, Bool.and_eq_true] at hview
  obtain ⟨⟨-, hused⟩, htracked, hlive, htake⟩ := hview
  obtain ⟨w, hw, htaken⟩ := Option.map_eq_some_iff.1 htake
  have hcount : (runOn liveCount sc').1 = .ok 0 := by
    rcases hrun : (runOn liveCount sc').1 with _ | n
    · simp [hrun, Except.toOption] at hlive
    · simpa [hrun, Except.toOption] using hlive
  have hdied : Rests a.thread.id (s.after "a" sc') _ := .destroy (hshows.after rfl rfl) hused
  exact ⟨s, _, sc', hs, hshows, by rw [amid_idle]; exact hended, htracked, hcount, _,
    .tail (.single hdied) (.worker (.take deathWatcher 0 hw)), of_decide_eq_true htaken⟩

end Session

end ThreadSlots
