import Mathlib.Data.List.Perm.Subperm
import ThreadSlots.Proofs.Custody

/-!
# No value is handed to a removal hook twice

The history of a run consists of the scenes in which what its steps do on a thread comes to its end;
they note every value that was stored and every one that left its slot. If all values that are ever
stored are distinct, each of them leaves its slot at most once in the whole run
(`Session.Sound.ledger_run`), so it is handed to a hook at most once, only to that of the variable it
was stored in, and never if it was handed back or overwritten (`Session.hooked_once`).
-/

namespace ThreadSlots

open Storage

/-! ## Partings -/

/-- If the values that have left are distinct, a value has left in one way. -/
theorem eq_of_nodup_departed {gone : List Parting} (h : (departed gone).Nodup) {p q : Parting}
    (hp : p ∈ gone) (hq : q ∈ gone) {x : Value} (hpx : p.value? = some x)
    (hqx : q.value? = some x) : p = q := by
  have hmem : ∀ {r : Parting} {rest : List Parting}, r ∈ rest → r.value? = some x →
      x ∈ departed rest := fun hr hrx => List.mem_filterMap.2 ⟨_, hr, hrx⟩
  have hcons : ∀ {r : Parting} {rest : List Parting}, (departed (r :: rest)).Nodup →
      r.value? = some x → x ∉ departed rest := by
    intro r rest hnodup hrx
    unfold departed at hnodup
    rw [List.filterMap_cons_some hrx] at hnodup
    exact (List.nodup_cons.1 hnodup).1
  induction gone with
  | nil => cases hp
  | cons r rest ih =>
    rcases List.mem_cons.1 hp with rfl | hp' <;> rcases List.mem_cons.1 hq with rfl | hq'
    · rfl
    · exact absurd (hmem hq' hqx) (hcons h hpx)
    · exact absurd (hmem hp' hpx) (hcons h hqx)
    · exact ih (h.sublist ((List.sublist_cons_self r rest).filterMap _)) hp' hq'

theorem sublist_departed (gone : List Parting) :
    ((gone.filterMap Parting.hookCall?).map (·.2)).Sublist (departed gone) := by
  induction gone with
  | nil => exact List.Sublist.slnil
  | cons p gone ih =>
    rcases p with ⟨id, slot, x, fate⟩ | id
    · cases fate with
      | hooked handle => exact ih.cons_cons x
      | removed | returned | overwritten => exact ih.cons x
    · exact ih

theorem mem_filterMap_hookCall? {gone : List Parting} {handle : Nat} {x : Value} :
    (handle, x) ∈ gone.filterMap Parting.hookCall? ↔
      ∃ id slot, .left id slot x (.hooked handle) ∈ gone := by
  rw [List.mem_filterMap]
  constructor
  · rintro ⟨⟨id, slot, y, fate⟩ | id, hmem, hcall⟩
    · cases fate <;> cases hcall
      exact ⟨id, slot, hmem⟩
    · cases hcall
  · exact fun ⟨id, slot, hmem⟩ => ⟨_, hmem, rfl⟩

/-- The calls of hooks in the events are those that the partings stand for. -/
def Scene.Tallies (sc : Scene) : Prop :=
  hookCalls sc.events = sc.partings.filterMap Parting.hookCall?

theorem Course.tallies {busy : List TableId} {sc sc' : Scene} (h : Course busy sc sc')
    (hsc : sc.Tallies) : sc'.Tallies := by
  obtain ⟨news, hnews, hcalls⟩ := h.exists_partings
  unfold Scene.Tallies at *
  rw [hcalls, hnews, hsc, List.filterMap_append]

theorem hookCalls_reverse (events : List Event) :
    hookCalls events.reverse = (hookCalls events).reverse :=
  List.filterMap_reverse

/-! ## Steps -/

namespace Session

variable {s : Session}

/-- The threads that can be told by their names. -/
def threads (s : Session) (name : String) : Option Thread := (s.actor? name).map (·.thread)

theorem threads_eq_some {name : String} {a : Actor} (ha : s.actor? name = some a) :
    s.threads name = some a.thread := by
  rw [threads, ha]
  rfl

theorem threads_setThread {name : String} {t : Thread} {n : String} {u : Thread}
    (h : (s.setThread name t).threads n = some u) :
    n ≠ name ∧ s.threads n = some u ∨ n = name ∧ u = t := by
  have hactor : (s.setThread name t).actor? n =
      (s.actor? n).map fun a => if a.name == name then { a with thread := t } else a := by
    unfold actor? setThread
    rw [List.find?_map]
    congr 2
    funext a
    simp only [Function.comp]
    split <;> rfl
  unfold threads at h ⊢
  rw [hactor] at h
  rcases ha : s.actor? n with _ | a
  · rw [ha] at h
    cases h
  · have hname : a.name = n := by
      have := List.find?_some ha
      simpa using this
    rw [ha] at h
    by_cases hn : n = name
    · rw [Option.map_some, Option.map_some, if_pos (by simp [hname, hn])] at h
      exact .inr ⟨hn, (Option.some.inj h).symm⟩
    · rw [Option.map_some, Option.map_some, if_neg (by simp [hname, hn])] at h
      exact .inl ⟨hn, h⟩

theorem threads_spawn {name : String} {kind : ThreadKind} {label : Option String}
    {late : Option (List Command)} {n : String} {u : Thread}
    (h : (s.spawn name kind label late).2.threads n = some u) :
    s.threads n = some u ∨ n = name ∧ u = (s.prepared kind label late).thread := by
  obtain ⟨a, ha, rfl⟩ := Option.map_eq_some_iff.1 h
  unfold actor? spawn at ha
  rw [List.find?_append] at ha
  rcases Option.or_eq_some_iff.1 ha with ha | ⟨-, ha⟩
  · exact .inl (Option.map_eq_some_iff.2 ⟨a, ha, rfl⟩)
  · have hname := List.find?_some ha
    obtain rfl := List.mem_singleton.1 (List.mem_of_find?_eq_some ha)
    exact .inr ⟨(by simpa using hname : name = n).symm, rfl⟩

theorem threads_addLate (name : String) (code : Late) : (s.addLate name code).threads = s.threads := by
  funext n
  unfold threads actor? addLate
  rw [List.find?_map, Option.map_map]
  have hname : ((fun a : Actor => a.name == n) ∘
      fun a : Actor => if a.name == name then { a with late := code :: a.late } else a) =
      fun a => a.name == n := by
    funext a
    dsimp only [Function.comp]
    split <;> rfl
  rw [hname]
  congr 1
  funext a
  dsimp only [Function.comp]
  split <;> rfl

/-- The scene in which an ended thread is left. -/
def exited (s : Session) (a : Actor) (panics : Option String) : Scene :=
  (exit s.depth s.process a panics).2

theorem threads_join {name : String} {panics : Option String} {a : Actor}
    (ha : s.actor? name = some a) {n : String} {u : Thread}
    (h : (s.join name panics).2.threads n = some u) : n ≠ name ∧ s.threads n = some u := by
  have hfilter : (s.join name panics).2.actors = s.actors.filter (·.name != name) := by
    unfold join
    rw [ha]
  obtain ⟨b, hb, rfl⟩ := Option.map_eq_some_iff.1 h
  unfold actor? at hb
  rw [hfilter, List.find?_filter] at hb
  have hname : b.name ≠ name ∧ b.name = n := by simpa using List.find?_some hb
  have hne : n ≠ name := hname.2 ▸ hname.1
  refine ⟨hne, Option.map_eq_some_iff.2 ⟨b, ?_, rfl⟩⟩
  rw [actor?, ← hb]
  congr 1
  funext c
  by_cases hc : c.name = n
  · simp [hc, hne]
  · simp [hc]

/-- The scenes in which what a step does on a thread comes to its end. -/
def scenes (s : Session) : Step → List Scene
  | .run name c => ((s.actor? name).map fun a => [s.performed a c]).getD []
  | .spawn _ kind label late => [s.prepared kind label late]
  | .use _ _ => []
  | .join name panics => ((s.actor? name).map fun a => [s.exited a panics]).getD []

/-- The scenes of a run, in order. -/
def history (s : Session) : List Step → List Scene
  | [] => []
  | x :: steps => s.scenes x ++ (s.step x).2.history steps

/-! ## What steps do to values -/

theorem act_transfers {α : Type} {x : Storage α} (hx : Walks [] x) {p : Process} {t : Thread}
    (hp : p.Sound) (ht : t.Sound p) :
    Scene.Transfers { process := p, thread := t } (act p t x).2 := by
  have hs : Scene.Sound { process := p, thread := t } := ⟨hp, ht⟩
  have hcourse := hx.course [] hs
  exact (hcourse.transfers hs).trans
    (.of_eq rfl rfl rfl (Process.Grows.settle _ (hcourse.sound hs).process).2.knows)

theorem Sound.exited_transfers (hs : s.Sound) {a : Actor} (ha : a ∈ s.actors)
    (panics : Option String) :
    Scene.Transfers { process := s.process, thread := a.thread } (s.exited a panics) := by
  have hsc : Scene.Sound { process := s.process, thread := a.thread } :=
    ⟨hs.process, hs.threads a ha⟩
  have hcourse := course_exit s.depth hs.process (hs.threads a ha)
  rw [exited, scene_exit]
  exact (hcourse.transfers hsc).trans
    (.of_eq rfl rfl rfl (Process.Grows.settle _ (hcourse.sound hsc).process).2.knows)

variable {old : List Arrival} {gone : List Parting}

theorem Sound.ledger_command (hs : s.Sound) (hl : Ledger s.process s.threads old gone)
    (name : String) (c : Command)
    (hnodup : ((old ++ (s.scenes (.run name c)).flatMap (·.arrivals)).map (·.value)).Nodup) :
    Ledger (s.command name c).2.process (s.command name c).2.threads
      (old ++ (s.scenes (.run name c)).flatMap (·.arrivals))
      (gone ++ (s.scenes (.run name c)).flatMap (·.partings)) := by
  rcases ha : s.actor? name with _ | a
  · rw [command_of_none ha]
    simpa [scenes, ha] using hl
  · have hmem : a ∈ s.actors := mem_actors ha
    have hscenes : s.scenes (.run name c) = [s.performed a c] := by simp [scenes, ha]
    rw [hscenes, List.flatMap_singleton] at hnodup
    rw [hscenes, List.flatMap_singleton, List.flatMap_singleton, session_command ha]
    obtain ⟨hgrows, -, -⟩ := hs.performed hmem c
    exact hl.visit_own (threads_eq_some ha)
      (act_transfers (walks_perform s.depth c) hs.process (hs.threads a hmem))
      (hgrows hs.process).2.knows hnodup fun n u => threads_setThread

theorem Sound.ledger_spawn (hs : s.Sound) (hl : Ledger s.process s.threads old gone)
    (name : String) (kind : ThreadKind) (label : Option String) (late : Option (List Command))
    (hnodup : ((old ++ (s.prepared kind label late).arrivals).map (·.value)).Nodup) :
    Ledger (s.spawn name kind label late).2.process (s.spawn name kind label late).2.threads
      (old ++ (s.prepared kind label late).arrivals)
      (gone ++ (s.prepared kind label late).partings) := by
  have hnew := hs.newcomer kind label (Late.first late).length
  have hcourse := hs.course_prepared kind label late
  have hprepared := hcourse.sound hnew
  have hblank : ∀ id slot x,
      ¬ (s.newcomer kind label (Late.first late).length).thread.Has id slot x := by
    intro id slot x
    simp [Thread.Has, Thread.table, Session.newcomer]
  have hl' := hl.mono (s.grows_newcomer kind label (Late.first late).length hs.process).2.knows
  have hvisited : Ledger (s.prepared kind label late).process
      (s.spawn name kind label late).2.threads (old ++ (s.prepared kind label late).arrivals)
      (gone ++ (s.prepared kind label late).partings) :=
    hl'.visit (fun _ _ => id) (fun id slot x hx => absurd hx (hblank id slot x))
    (hcourse.transfers hnew) (hcourse.grows hnew.process).2.knows hnodup
    fun n u hu => threads_spawn hu
  exact hvisited.mono (s.grows_spawned name kind label late hprepared.process).2.knows

theorem Sound.ledger_use (hs : s.Sound) (hl : Ledger s.process s.threads old gone)
    (name : String) (commands : List Command) (hnodup : (old.map (·.value)).Nodup) :
    Ledger (s.use name commands).2.process (s.use name commands).2.threads old gone := by
  rcases ha : s.actor? name with _ | a
  · rw [use_of_none ha]
    exact hl
  · have hsc : Scene.Sound { process := s.process, thread := a.thread } :=
      ⟨hs.process, hs.threads a (mem_actors ha)⟩
    have htransfers := (course_used [] s.process a.thread).transfers hsc
    rw [session_use ha, threads_addLate]
    have hvisited : Ledger s.process (s.setThread name (used a.thread)).threads (old ++ [])
        (gone ++ []) :=
      hl.visit_own (threads_eq_some ha) htransfers (fun _ => id) (by simpa using hnodup)
        fun n u => threads_setThread
    rwa [List.append_nil, List.append_nil] at hvisited

theorem Sound.ledger_join (hs : s.Sound) (hl : Ledger s.process s.threads old gone)
    (name : String) (panics : Option String)
    (hnodup : ((old ++ (s.scenes (.join name panics)).flatMap (·.arrivals)).map (·.value)).Nodup) :
    Ledger (s.join name panics).2.process (s.join name panics).2.threads
      (old ++ (s.scenes (.join name panics)).flatMap (·.arrivals))
      (gone ++ (s.scenes (.join name panics)).flatMap (·.partings)) := by
  rcases ha : s.actor? name with _ | a
  · have hjoin : (s.join name panics).2 = s := by
      unfold Session.join
      rw [ha]
    rw [hjoin]
    simpa [scenes, ha] using hl
  · have hmem : a ∈ s.actors := mem_actors ha
    have hscenes : s.scenes (.join name panics) = [s.exited a panics] := by simp [scenes, ha]
    have hprocess : (s.join name panics).2.process = (s.exited a panics).process := by
      unfold Session.join
      rw [ha]
      rfl
    rw [hscenes, List.flatMap_singleton] at hnodup
    rw [hscenes, List.flatMap_singleton, List.flatMap_singleton, hprocess]
    exact hl.visit_own (threads_eq_some ha) (hs.exited_transfers hmem panics)
      (grows_exit s.depth hs.process (hs.threads a hmem) panics hs.process).2.knows hnodup
      fun n u hu => .inl (threads_join ha hu)

theorem Sound.ledger_step (hs : s.Sound) (hl : Ledger s.process s.threads old gone) (x : Step)
    (hnodup : ((old ++ (s.scenes x).flatMap (·.arrivals)).map (·.value)).Nodup) :
    Ledger (s.step x).2.process (s.step x).2.threads
      (old ++ (s.scenes x).flatMap (·.arrivals)) (gone ++ (s.scenes x).flatMap (·.partings)) := by
  cases x with
  | run name c => exact hs.ledger_command hl name c hnodup
  | spawn name kind label late =>
    simp only [scenes, List.flatMap_singleton] at hnodup ⊢
    exact hs.ledger_spawn hl name kind label late hnodup
  | use name commands =>
    simp only [scenes, List.flatMap_nil, List.append_nil] at hnodup ⊢
    exact hs.ledger_use hl name commands hnodup
  | join name panics => exact hs.ledger_join hl name panics hnodup

/-- After a run in which all values that were stored are distinct, each of them is in one place or
has left, once. -/
theorem Sound.ledger_run (hs : s.Sound) (hl : Ledger s.process s.threads old gone)
    (steps : List Step)
    (hnodup : ((old ++ (s.history steps).flatMap (·.arrivals)).map (·.value)).Nodup) :
    Ledger (s.run steps).2.process (s.run steps).2.threads
      (old ++ (s.history steps).flatMap (·.arrivals))
      (gone ++ (s.history steps).flatMap (·.partings)) := by
  induction steps generalizing s old gone with
  | nil => simpa [history, Session.run] using hl
  | cons x steps ih =>
    simp only [history, List.flatMap_append, ← List.append_assoc] at hnodup ⊢
    have hstep := hs.ledger_step hl x (hnodup.sublist ((List.sublist_append_left _ _).map _))
    exact ih (hs.step x).2 hstep hnodup

/-! ## What steps report -/

/-- The calls of removal hooks that are reported. -/
def calls (reports : List StepReport) : List (Nat × Value) :=
  reports.flatMap fun report => hookCalls report.events

theorem Sound.performed_tallies (hs : s.Sound) {a : Actor} (ha : a ∈ s.actors) (c : Command) :
    (s.performed a c).Tallies := by
  have hsc : Scene.Sound { process := s.process, thread := a.thread } :=
    ⟨hs.process, hs.threads a ha⟩
  exact ((walks_perform s.depth c).course [] hsc).tallies rfl

theorem Sound.exited_tallies (hs : s.Sound) {a : Actor} (ha : a ∈ s.actors)
    (panics : Option String) : (s.exited a panics).Tallies := by
  have hended : (tornDown s.depth s.process a).Tallies :=
    (course_exit s.depth hs.process (hs.threads a ha)).tallies rfl
  exact hended

/-- What a step reports of the calls of hooks is among what was noted to have left. -/
theorem Sound.calls_step (hs : s.Sound) (x : Step) :
    (hookCalls (s.step x).1.events).Subperm
      (((s.scenes x).flatMap (·.partings)).filterMap Parting.hookCall?) := by
  have hreported : ∀ sc : Scene, sc.Tallies →
      (hookCalls sc.events.reverse).Subperm (sc.partings.filterMap Parting.hookCall?) := by
    intro sc hsc
    rw [hookCalls_reverse, hsc]
    exact (List.reverse_perm _).subperm
  cases x with
  | run name c =>
    show (hookCalls (s.command name c).1.events).Subperm _
    rcases ha : s.actor? name with _ | a
    · rw [command_of_none ha]
      exact List.nil_subperm
    · have hevents : (s.command name c).1.events = (s.performed a c).events.reverse := by
        unfold Session.command
        rw [ha]
        rfl
      rw [hevents]
      simp only [scenes, ha, Option.map_some, Option.getD_some, List.flatMap_singleton]
      exact hreported _ (hs.performed_tallies (mem_actors ha) c)
  | spawn name kind label late => exact List.nil_subperm
  | use name commands =>
    show (hookCalls (s.use name commands).1.events).Subperm _
    unfold Session.use
    split <;> exact List.nil_subperm
  | join name panics =>
    show (hookCalls (s.join name panics).1.events).Subperm _
    rcases ha : s.actor? name with _ | a
    · have hevents : (s.join name panics).1.events = [] := by
        unfold Session.join
        rw [ha]
      rw [hevents]
      exact List.nil_subperm
    · have hevents : (s.join name panics).1.events = (s.exited a panics).events.reverse := by
        unfold Session.join
        rw [ha]
        rfl
      rw [hevents]
      simp only [scenes, ha, Option.map_some, Option.getD_some, List.flatMap_singleton]
      exact hreported _ (hs.exited_tallies (mem_actors ha) panics)

theorem Sound.calls_run (hs : s.Sound) (steps : List Step) :
    (calls (s.run steps).1).Subperm
      (((s.history steps).flatMap (·.partings)).filterMap Parting.hookCall?) := by
  induction steps generalizing s with
  | nil => exact List.nil_subperm
  | cons x steps ih =>
    simp only [history, List.flatMap_append, List.filterMap_append]
    show (hookCalls (s.step x).1.events ++ calls ((s.step x).2.run steps).1).Subperm _
    exact (hs.calls_step x).append (ih (hs.step x).2)

end Session

/-! ## What is handed back or overwritten -/

/-- What `take` and `replace` hand back of a slot, and what `set` and `store` write over, is noted to
have left that way. -/
structure Variable.Notes (v : Variable) (id : TableId) (x : Value) (sc : Scene) : Prop where
  take : .left id v.slot x .returned ∈ (runOn (v.takeIn id) sc).2.partings
  replace : ∀ y previous sc', runOn (v.replaceIn id y) sc = (.ok previous, sc') →
    .left id v.slot x .returned ∈ sc'.partings
  set : ∀ y sc', runOn (v.setIn id y) sc = (.ok (), sc') →
    .left id v.slot x .overwritten ∈ sc'.partings
  store : ∀ enter y sc', runOn (v.storeIn enter id (some y)) sc = (.ok (), sc') →
    .left id v.slot x .overwritten ∈ sc'.partings

section

variable {sc : Scene} {id : TableId} {v : Variable} {x : Value}

theorem Scene.mem_partings_parted (hx : sc.thread.Has id v.slot x) (sc₁ : Scene) (fate : Fate) :
    .left id v.slot x fate ∈
      (sc₁.parted id v.slot fate ((sc.thread.table id).get? v.slot)).partings := by
  have hget : (sc.thread.table id).get? v.slot = some (.value x) := hx
  rw [hget]
  exact List.mem_cons_self

/-- What a write leaves of the value that was there before is noted. -/
theorem Storage.Ends.noted {α : Type} {y : Storage α} {a b : α} {sc₁ sc' : Scene} {fate : Fate}
    (hy : Ends y sc a (sc₁.parted id v.slot fate ((sc.thread.table id).get? v.slot)))
    (hx : sc.thread.Has id v.slot x) (hrun : runOn y sc = (.ok b, sc')) :
    .left id v.slot x fate ∈ sc'.partings := by
  obtain ⟨sc'', hrun', hlike⟩ := hy
  obtain rfl : sc'' = sc' := congrArg Prod.snd (hrun'.symm.trans hrun)
  have hpartings : (sc₁.parted id v.slot fate ((sc.thread.table id).get? v.slot)).partings =
      sc''.partings := congrArg (·.partings) hlike
  rw [← hpartings]
  exact Scene.mem_partings_parted hx sc₁ fate

theorem Thread.Has.noted_putIn (hx : sc.thread.Has id v.slot x) {y : Value} {fate : Fate}
    {previous : Option Cell} {sc' : Scene}
    (hrun : runOn (v.putIn id y fate) sc = (.ok previous, sc')) :
    .left id v.slot x fate ∈ sc'.partings := by
  rcases hi : (sc.thread.table id).insert v.slot (.value y) with e | stored
  · rw [runOn_putIn_error sc hi] at hrun
    cases hrun
  · exact (ends_putIn sc fate hi).noted hx hrun

theorem Thread.Has.notes (hx : sc.thread.Has id v.slot x) (hv : v.slot ≠ reservedSlot) :
    v.Notes id x sc := by
  refine ⟨?_, fun y previous sc' hrun => ?_, fun y sc' hrun => ?_, fun enter y sc' hrun => ?_⟩
  · rw [runOn_takeIn sc hv id]
    exact Scene.mem_partings_parted hx _ _
  · obtain ⟨cell, sc₁, hput, hend⟩ := runOn_bind_eq_ok.1 hrun
    cases hend
    exact hx.noted_putIn hput
  · obtain ⟨cell, sc₁, hput, hend⟩ := runOn_bind_eq_ok.1 hrun
    cases hend
    exact hx.noted_putIn hput
  · rcases hi : (sc.thread.table id).insert v.slot (.value y) with e | stored
    · rw [runOn_storeIn_error sc enter hi] at hrun
      cases hrun
    · exact (ends_storeIn_some sc enter hi).noted hx hrun

end

namespace Session

variable {s : Session}

/-- **No value is handed to a removal hook twice**: in a run in which all values that are stored are
distinct, whatever its threads and their nested code do, each value is handed to a removal hook at
most once, only to that of the variable it was stored in, and not if it was handed back or
overwritten. -/
theorem hooked_once (environment : Environment) (depth : Nat) (steps : List Step) :
    let s := start environment depth
    let arrivals := (s.history steps).flatMap (·.arrivals)
    let partings := (s.history steps).flatMap (·.partings)
    (arrivals.map (·.value)).Nodup →
      ((calls (s.run steps).1).map (·.2)).Nodup ∧
        (∀ handle x, (handle, x) ∈ calls (s.run steps).1 →
          ∃ v, (s.run steps).2.process.Knows v ∧ v.handle = handle ∧ v.onRemoval.isSome ∧
            ∃ a ∈ arrivals, a.value = x ∧ a.slot = v.slot) ∧
        (∀ id slot x fate, .left id slot x fate ∈ partings →
          fate = .returned ∨ fate = .overwritten →
          ∀ handle, (handle, x) ∉ calls (s.run steps).1) ∧
        ∀ (sc : Scene) (id : TableId) (v : Variable) (x : Value), v.slot ≠ reservedSlot →
          sc.thread.Has id v.slot x → v.Notes id x sc := by
  intro s arrivals partings hnodup
  have hs : s.Sound := sound_start environment depth
  have hempty : Ledger s.process s.threads [] [] := by
    have hblank : ∀ name t, s.threads name = some t → ∀ id slot x, ¬ t.Has id slot x := by
      intro name t ht id slot x
      obtain ⟨a, ha, rfl⟩ := Option.map_eq_some_iff.1 ht
      obtain rfl := List.mem_singleton.1 (mem_actors ha)
      simp [Thread.Has, Thread.table]
    refine ⟨fun name t ht id slot x hx => absurd hx (hblank name t ht id slot x),
      fun name t _ _ ht _ id slot _ _ x hx => absurd hx (hblank name t ht id slot x),
      List.nodup_nil, by simp, by simp⟩
  have hl : Ledger (s.run steps).2.process (s.run steps).2.threads arrivals partings := by
    simpa using hs.ledger_run hempty steps (by simpa using hnodup)
  have hcalls : (calls (s.run steps).1).Subperm (partings.filterMap Parting.hookCall?) :=
    hs.calls_run steps
  have hcall : ∀ handle x, (handle, x) ∈ calls (s.run steps).1 →
      ∃ id slot, .left id slot x (.hooked handle) ∈ partings :=
    fun handle x hmem => mem_filterMap_hookCall?.1 (hcalls.subset hmem)
  refine ⟨?_, fun handle x hmem => ?_, fun id slot x fate hleft hfate handle hmem => ?_,
    fun _ _ _ _ hv hx => hx.notes hv⟩
  · obtain ⟨called, hperm, hsub⟩ := hcalls
    rw [← (hperm.map (·.2)).nodup_iff]
    exact hl.once.sublist ((hsub.map (·.2)).trans (sublist_departed partings))
  · obtain ⟨id, slot, hleft⟩ := hcall handle x hmem
    obtain ⟨v, hv, rfl, hhandle, hhook⟩ := hl.hooked id slot x handle hleft
    obtain ⟨id', hcame⟩ := hl.left id v.slot x _ hleft
    exact ⟨v, hv, hhandle, hhook, _, hcame, rfl, rfl⟩
  · obtain ⟨id', slot', hcalled⟩ := hcall handle x hmem
    have he := eq_of_nodup_departed hl.once hleft hcalled rfl rfl
    cases he
    rcases hfate with hfate | hfate <;> cases hfate

/-- A thread that carries its table replaces a value, overwrites one and removes one, with a hook that
removes the variable again and clears the thread; the main thread stores one, too, and then
everything ends. -/
def distinctValues : List Step :=
  [.run "main" (.declare .int (.plain .int) (some
      { nested := some fun _ => .step "remove" (.access 0 .ambient .remove) fun _ =>
          .step "remove_all" (.onThread .clear) fun _ => .done none
        panics := fun _ => none })),
    .spawn "a" .carried none none,
    .run "a" (.access 0 .ambient (.set (.int 1))),
    .run "a" (.access 0 .ambient (.replace (.int 2))),
    .run "a" (.access 0 .ambient (.set (.int 3))),
    .run "a" (.access 0 .ambient .remove),
    .run "main" (.access 0 .ambient (.set (.int 4))),
    .run "a" (.access 0 .ambient (.set (.int 5))),
    .join "a" none,
    .run "main" (.onThread .clear)]

theorem hooked_once_distinctValues :
    let s := start {} nestingLimit
    let arrivals := (s.history distinctValues).flatMap (·.arrivals)
    let partings := (s.history distinctValues).flatMap (·.partings)
    arrivals.map (·.value) = [.int 1, .int 2, .int 3, .int 4, .int 5] ∧
      .left 0 1 (.int 1) .returned ∈ partings ∧ .left 0 1 (.int 2) .overwritten ∈ partings ∧
      calls (s.run distinctValues).1 = [(0, .int 3), (0, .int 5), (0, .int 4)] ∧
      ((calls (s.run distinctValues).1).map (·.2)).Nodup ∧
      (∀ handle, (handle, .int 1) ∉ calls (s.run distinctValues).1) ∧
      ∀ handle, (handle, .int 2) ∉ calls (s.run distinctValues).1 := by
  intro s arrivals partings
  have hvalues : arrivals.map (·.value) = [.int 1, .int 2, .int 3, .int 4, .int 5] := by
    decide +kernel
  have hpartings : .left 0 1 (.int 1) .returned ∈ partings ∧
      .left 0 1 (.int 2) .overwritten ∈ partings := by
    decide +kernel
  have hcalls : calls (s.run distinctValues).1 = [(0, .int 3), (0, .int 5), (0, .int 4)] := by
    decide +kernel
  have hnodup : (arrivals.map (·.value)).Nodup := by
    rw [hvalues]
    decide
  obtain ⟨honce, -, hkept, -⟩ := hooked_once {} nestingLimit distinctValues hnodup
  exact ⟨hvalues, hpartings.1, hpartings.2, hcalls, honce,
    hkept 0 1 (.int 1) .returned hpartings.1 (.inl rfl),
    hkept 0 1 (.int 2) .overwritten hpartings.2 (.inr rfl)⟩

end Session

end ThreadSlots
