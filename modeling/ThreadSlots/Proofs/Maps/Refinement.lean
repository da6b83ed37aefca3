import ThreadSlots.Proofs.Quiet
import ThreadSlots.Proofs.Maps.Mirror

/-!
# Storage actions refine turns

An action refines a turn if from every scene that mirrors a world the two end alike, in a scene and
a world that mirror each other (`Refines`). Refinement is kept by sequencing, so each operation
needs one lemma about its own steps.
-/

namespace ThreadSlots

open Std (ExtTreeMap)
open Storage
open Maps (Turn World ValueMap Own Owner Shared)

/-- From mirroring states, the action ends as the turn does, up to a view of its result, as long as
the maps of all threads were destroyed fewer than `2 ^ 64` times. -/
def Refines {α β : Type} (known : List Variable) (view : α → β) (x : Storage α) (y : Turn β) :
    Prop :=
  ∀ destroys sc w, sc.Mirrors known destroys w → destroys + (y w).destroys < 2 ^ 64 →
    (y w).result = (runOn x sc).1.map view ∧
      (runOn x sc).2.Mirrors known (destroys + (y w).destroys) (y w).world

namespace Refines

variable {α β γ δ : Type} {known : List Variable} {view : α → β} {view' : γ → δ}

theorem of_ends {x : Storage α} {y : Turn β}
    (h : ∀ destroys sc w, sc.Mirrors known destroys w → ∃ a sc', Ends x sc a sc' ∧
      (y w).result = .ok (view a) ∧ (y w).destroys = 0 ∧ sc'.Mirrors known destroys (y w).world) :
    Refines known view x y := by
  intro destroys sc w hm _
  obtain ⟨a, sc', ⟨sc'', hrun, hlike⟩, hresult, hzero, hm'⟩ := h destroys sc w hm
  rw [hrun, hresult, hzero]
  exact ⟨rfl, hm'.like hlike⟩

/-- An action that ends in the very scene it began in, with a result that the turn has too. -/
theorem of_runOn {x : Storage α} {y : Turn β}
    (h : ∀ destroys sc w, sc.Mirrors known destroys w → ∃ a, runOn x sc = (.ok a, sc) ∧
      y w = { result := .ok (view a), world := w }) :
    Refines known view x y := by
  apply of_ends
  intro destroys sc w hm
  obtain ⟨a, hx, hy⟩ := h destroys sc w hm
  exact ⟨a, sc, .of_runOn hx, by rw [hy], by rw [hy], by rw [hy]; exact hm⟩

theorem pure (a : α) : Refines known view (Pure.pure a) (Pure.pure (view a)) :=
  of_runOn fun _ _ _ _ => ⟨a, rfl, rfl⟩

/-- Sequencing. What follows may rely on what is known of every result. -/
theorem bind_of {P : α → Prop} {x : Storage α} {y : Turn β} {f : α → Storage γ} {g : β → Turn δ}
    (hx : Refines known view x y)
    (hp : ∀ {destroys sc w a}, sc.Mirrors known destroys w → (runOn x sc).1 = .ok a → P a)
    (hf : ∀ a, P a → Refines known view' (f a) (g (view a))) :
    Refines known view' (x >>= f) (y >>= g) := by
  intro destroys sc w hm
  show destroys + (Turn.bind y g w).destroys < 2 ^ 64 → (Turn.bind y g w).result = _ ∧
    Scene.Mirrors known (destroys + (Turn.bind y g w).destroys) _ (Turn.bind y g w).world
  have hx := hx destroys sc w hm
  unfold Turn.bind
  rw [runOn_bind]
  rcases hy : y w with ⟨stop | b, w', n⟩
  · intro hbound
    rw [hy] at hx
    obtain ⟨hresult, hm'⟩ := hx hbound
    rcases hr : runOn x sc with ⟨stop' | a, sc'⟩
    · rw [hr] at hresult hm'
      cases hresult
      exact ⟨rfl, hm'⟩
    · rw [hr] at hresult
      cases hresult
  · intro hbound
    rw [hy] at hx
    -- The bound on the destructions of both parts bounds those of the first.
    obtain ⟨hresult, hm'⟩ := hx (by simp only at hbound ⊢; omega)
    rcases hr : runOn x sc with ⟨stop | a, sc'⟩
    · rw [hr] at hresult
      cases hresult
    · rw [hr] at hresult hm'
      cases hresult
      simp only [← Nat.add_assoc] at hbound ⊢
      exact hf a (hp hm (by rw [hr])) _ sc' w' hm' hbound

theorem bind {x : Storage α} {y : Turn β} {f : α → Storage γ} {g : β → Turn δ}
    (hx : Refines known view x y) (hf : ∀ a, Refines known view' (f a) (g (view a))) :
    Refines known view' (x >>= f) (y >>= g) :=
  bind_of (P := fun _ => True) hx (fun _ _ => trivial) fun a _ => hf a

theorem map {x : Storage α} {y : Turn β} {f : α → γ} {g : β → δ} (hx : Refines known view x y)
    (hfg : ∀ a, g (view a) = view' (f a)) : Refines known view' (f <$> x) (g <$> y) := by
  rw [map_eq_pure_bind, show g <$> y = y >>= fun b => Pure.pure (g b) from rfl]
  refine bind hx fun a => ?_
  rw [hfg a]
  exact pure (f a)

/-- A step of the action that leaves the world alone. -/
theorem bind_quiet {x : Storage α} {f : α → Storage γ} {y : Turn δ} {a : α}
    (hx : ∀ sc, Ends x sc a sc) (hf : Refines known view' (f a) y) :
    Refines known view' (x >>= f) y := by
  intro destroys sc w hm hbound
  obtain ⟨sc', hrun, hlike⟩ := hx sc
  rw [runOn_bind, hrun]
  exact hf destroys sc' w (hm.like hlike) hbound

theorem panicWith (message : String) :
    Refines known view (Storage.panicWith message) (Turn.stop (.panicked message)) :=
  fun _ _ _ hm _ => ⟨rfl, hm⟩

theorem emit (e : Event) : Refines known id (Storage.emit e) (Turn.say [e.shown]) :=
  of_ends fun _ _ _ hm => ⟨(), _, .of_runOn (runOn_emit _ e), rfl, rfl, hm.say [e]⟩

/-! ## The thread's own table -/

theorem blankTable_mirrors {destroys : Nat} {sc : Scene} {w : World}
    (hm : sc.Mirrors known destroys w) :
    sc.blankTable.Mirrors sc.process { policy := w.shared.policy } := by
  rw [hm.process.policy]
  exact .of_policy _

theorem makeBlank_mirrors {destroys : Nat} {sc : Scene} {w : World}
    (hm : sc.Mirrors known destroys w) :
    sc.makeBlank.Mirrors known destroys (w.makeMap { policy := w.shared.policy }) :=
  (hm.makeTable (blankTable_mirrors hm)).like sc.like_makeBlank.symm

theorem newTable (policy : SentinelPolicy) :
    Refines known id (Storage.newTable policy) (Turn.newMap policy) := by
  refine of_ends fun destroys sc w hm => ⟨_, _, .of_runOn (runOn_newTable sc policy), ?_, rfl, ?_⟩
  · exact congrArg Except.ok hm.thread.next
  · exact (hm.makeTable (.of_policy policy)).like (.count _ (by decide))

theorem freshTable : Refines known id Storage.freshTable Turn.freshMap := by
  refine of_ends fun destroys sc w hm => ⟨_, _, .of_runOn (runOn_freshTable sc), ?_, rfl, ?_⟩
  · exact congrArg Except.ok hm.thread.next
  · exact makeBlank_mirrors hm

theorem dropFallback_mirrors {destroys : Nat} {sc : Scene} {w : World}
    (hm : sc.Mirrors known destroys w) :
    sc.dropFallback.Mirrors known destroys (w.setOwn w.owner.own.spared) := by
  refine hm.setLocals ?_
  rw [Locals.seen_emptied]
  have howns := hm.thread.owns
  unfold Locals.seen at howns
  generalize sc.thread.locals.carried.seen = c, sc.thread.locals.fallback.seen = f at howns
  generalize w.owner.own = own at howns
  cases howns with
  | nothing | stale | kept => exact .nothing
  | carried id => exact .carried id

/-- A thread without a map of its own may drop its fallback table, which is an old one. -/
theorem dropFallback_mirrors_of_none {destroys : Nat} {sc : Scene} {w : World}
    (hm : sc.Mirrors known destroys w) (hown : w.owner.own.id? = none) :
    sc.dropFallback.Mirrors known destroys w := by
  have hdrop := dropFallback_mirrors hm
  obtain ⟨shared, ⟨maps, next, own, names, label⟩, events⟩ := w
  cases own with
  | nothing => exact hdrop
  | kept i => cases hown
  | carried i => cases hown

/-- The thread-locals of a thread without a table of its own take a new fallback table. -/
theorem keep_mirrors {destroys : Nat} {sc : Scene} {w : World} (hm : sc.Mirrors known destroys w)
    (hown : w.owner.own = .nothing) (id : TableId) :
    (sc.keep id).Mirrors known destroys (w.setOwn (.kept id)) := by
  refine hm.setLocals ?_
  rw [Locals.seen_emptied_setFallback, hm.process.epoch]
  have howns := hm.thread.owns
  rw [hown] at howns
  unfold Locals.seen at howns
  generalize sc.thread.locals.carried.seen = c, sc.thread.locals.fallback.seen = f at howns
  cases howns <;> exact .kept id

theorem carry_mirrors {destroys : Nat} {sc : Scene} {w : World} (hm : sc.Mirrors known destroys w)
    (id : TableId) : (sc.carry id).Mirrors known destroys (w.setOwn (.carried id)) := by
  refine hm.setLocals ?_
  rw [Locals.seen_emptied_setCarried]
  have howns := hm.thread.owns
  unfold Locals.seen at howns
  generalize sc.thread.locals.carried.seen = c, sc.thread.locals.fallback.seen = f at howns
  generalize w.owner.own = own at howns
  cases howns <;> exact .carried id

/-- Reaching for the thread's own table changes nothing that the world shows. -/
theorem setLocals_mirrors {destroys : Nat} {sc : Scene} {w : World}
    (hm : sc.Mirrors known destroys w) {l : Locals} (hl : l.seen = sc.thread.locals.seen) :
    (sc.setLocals l).Mirrors known destroys w := by
  have howns := hm.thread.owns
  rw [← hl] at howns
  exact hm.setLocals howns

theorem reached_mirrors {destroys : Nat} {sc : Scene} {w : World}
    (hm : sc.Mirrors known destroys w) : sc.reached.Mirrors known destroys w :=
  setLocals_mirrors hm sc.thread.locals.seen_reached

theorem current? : Refines known id Storage.current? Turn.own? := by
  refine of_ends fun destroys sc w hm => ⟨_, _, .of_runOn (runOn_current? sc), ?_, rfl, ?_⟩
  · exact congrArg Except.ok hm.own?_eq.symm
  · rw [hm.own?_eq]
    rcases hown : w.owner.own.id? with _ | i
    · exact dropFallback_mirrors_of_none hm hown
    · exact reached_mirrors hm

theorem current : Refines known id Storage.current Turn.own := by
  refine of_ends fun destroys sc w hm => ?_
  have hrun := runOn_current sc
  rw [hm.own?_eq] at hrun
  obtain ⟨shared, ⟨maps, next, own, names, label⟩, events⟩ := w
  cases own with
  | nothing =>
    refine ⟨_, _, .of_runOn hrun, congrArg Except.ok hm.thread.next, rfl, ?_⟩
    rw [← show next = sc.thread.nextTable from hm.thread.next]
    exact keep_mirrors (makeBlank_mirrors hm) rfl next
  | kept id => exact ⟨id, _, .of_runOn hrun, rfl, rfl, reached_mirrors hm⟩
  | carried id => exact ⟨id, _, .of_runOn hrun, rfl, rfl, reached_mirrors hm⟩

theorem discard : Refines known id Storage.discard Turn.discard := by
  refine of_ends fun destroys sc w hm => ?_
  have hrun := runOn_discard sc
  rw [hm.carried?_eq] at hrun
  obtain ⟨shared, ⟨maps, next, own, names, label⟩, events⟩ := w
  cases own with
  | nothing => exact ⟨(), _, .of_runOn hrun, rfl, rfl, dropFallback_mirrors hm⟩
  | kept id => exact ⟨(), _, .of_runOn hrun, rfl, rfl, dropFallback_mirrors hm⟩
  | carried id =>
    refine ⟨(), _, .of_runOn hrun, rfl, rfl, ?_⟩
    have hset := hm.setTable id (blankTable_mirrors hm)
    have hlike : (sc.setTable id sc.blankTable).Like
        { sc.setTable id sc.blankTable with
          process := (sc.process.count .tablesCreated).settled } :=
      .of_process (sc.process.stripped_count (by decide))
    obtain ⟨hprocess, hthread, hevents, hknown⟩ := hset.like hlike
    exact ⟨hprocess, hthread, hevents, hknown⟩

theorem destroy : Refines known id Storage.destroyFallbacks Turn.destroy := by
  intro destroys sc w hm hbound
  refine ⟨rfl, ⟨⟨?_, hm.process.pure, hm.process.supply, hm.process.bySlot, hm.process.byHandle,
    hm.process.nextHandle, hm.process.draws, hm.process.policy, ?_, hbound⟩, ?_, hm.events,
    hm.known⟩⟩
  · refine hm.process.sound.of_eq ?_
    rfl
  · show sc.process.epoch + 1 = _
    rw [hm.process.epoch, stamp_succ]
    rfl
  · have hthread := hm.thread
    have hknows : ∀ v, sc.process.Knows v → (runOn destroyFallbacks sc).2.process.Knows v :=
      fun _ hv => hv
    exact ⟨fun i => (hthread.tables i).mono hknows, hthread.next, hthread.names, hthread.label,
      hthread.owns.destroyed⟩

theorem adopt : Refines known id Storage.adopt Turn.adopt := by
  refine of_ends fun destroys sc w hm => ?_
  have hrun := runOn_adopt sc
  rw [hm.own?_eq, hm.carried?_eq] at hrun
  obtain ⟨shared, ⟨maps, next, own, names, label⟩, events⟩ := w
  cases own with
  | nothing =>
    refine ⟨_, _, .of_runOn hrun, congrArg Except.ok hm.thread.next, rfl, ?_⟩
    rw [← show next = sc.thread.nextTable from hm.thread.next]
    exact carry_mirrors (makeBlank_mirrors hm) next
  | kept id => exact ⟨id, _, .of_runOn hrun, rfl, rfl, carry_mirrors hm id⟩
  | carried id => exact ⟨id, sc, .of_runOn hrun, rfl, rfl, hm⟩

theorem release : Refines known id Storage.release Turn.release := by
  refine of_ends fun destroys sc w hm => ?_
  have hrun := runOn_release sc
  rw [hm.carried?_eq] at hrun
  have hreleased : ∀ own', Owns destroys (sc.thread.locals.carried.seen.map fun _ => none,
      sc.thread.locals.fallback.seen) own' → sc.released.Mirrors known destroys (w.setOwn own') := by
    intro own' hl
    refine hm.setLocals ?_
    rwa [Locals.seen_setCarried]
  have howns := hm.thread.owns
  unfold Locals.seen at howns
  generalize sc.thread.locals.carried.seen = c, sc.thread.locals.fallback.seen = f
    at howns hreleased
  obtain ⟨shared, ⟨maps, next, own, names, label⟩, events⟩ := w
  cases howns with
  | nothing => exact ⟨_, _, .of_runOn hrun, rfl, rfl, hreleased _ .nothing⟩
  | stale hk id => exact ⟨_, _, .of_runOn hrun, rfl, rfl, hreleased _ (.stale hk id)⟩
  | kept id => exact ⟨_, _, .of_runOn hrun, rfl, rfl, hreleased _ (.kept id)⟩
  | carried id => exact ⟨_, _, .of_runOn hrun, rfl, rfl, hreleased _ .nothing⟩

theorem isCarrying : Refines known id ThreadSlots.isCarrying Turn.isCarrying := by
  refine of_ends fun destroys sc w hm => ?_
  refine ⟨sc.thread.carried?.isSome, sc.setLocals sc.thread.locals.useCarried, .of_runOn ?_, ?_,
    rfl, setLocals_mirrors hm sc.thread.locals.seen_useCarried⟩
  · unfold ThreadSlots.isCarrying
    rw [runOn_bind, runOn_carried?]
    rfl
  · rw [hm.carried?_eq]
    rfl

theorem bindTable (name : String) (i : TableId) :
    Refines known id (ThreadSlots.bindTable name i) (Turn.bindName name i) := by
  refine of_ends fun destroys sc w hm => ⟨(), _, .of_runOn rfl, rfl, rfl, hm.process, ?_, hm.events,
    hm.known⟩
  refine ⟨hm.thread.tables, hm.thread.next, ?_, hm.thread.label, hm.thread.owns⟩
  exact congrArg (fun names : List (String × TableId) =>
    (name, i) :: names.filter (·.1 != name)) hm.thread.names

theorem resolve (place : Place) : Refines known id place.resolve (Turn.resolve place) := by
  cases place with
  | ambient => exact map current fun _ => rfl
  | table name =>
    refine of_runOn fun destroys sc w hm => ⟨_, rfl, ?_⟩
    rw [Thread.named?, ← hm.thread.names]
    rfl

theorem resolve? (place : Place) : Refines known id place.resolve? (Turn.resolve? place) := by
  cases place with
  | ambient => exact current?
  | table name =>
    refine of_runOn fun destroys sc w hm => ⟨_, rfl, ?_⟩
    rw [Thread.named?, ← hm.thread.names]
    rfl

end Refines

end ThreadSlots
