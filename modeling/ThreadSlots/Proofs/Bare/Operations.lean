import ThreadSlots.Proofs.Bare.Machine
import ThreadSlots.Proofs.Callbacks
import ThreadSlots.Proofs.Registration
import ThreadSlots.Proofs.Storing

/-!
# Variables of a thread whose thread-locals are destroyed

A table that such a thread makes is out of reach for everything but the operation that made it: what
nested code does in between happens in later tables (`Scene.Idle`). So an operation on a variable finds
its table blank whenever it comes back to it, and ends as a turn does that has no table at all
(`Bare.Matches`).
-/

namespace ThreadSlots

open Std (ExtTreeMap)
open Storage
open Bare (Given Trace Turn)

/-- All commands that the initializers of the process's variables do have the property. -/
def Process.Prepares (P : Command → Prop) (p : Process) : Prop :=
  ∀ (slot : Nat) (v : Variable), p.bySlot[slot]? = some v →
    ∀ s, v.initial.nested = some s → s.Only P

/-- The process but for how often initializers have made values, and for what no value depends on. -/
def Process.undrawn (p : Process) : Process := { p.stripped with draws := ∅ }

/-- The thread but for its tables and whom its sentinel reports to. -/
def Thread.untabled (t : Thread) : Thread :=
  { t with tables := ∅, nextTable := 0, names := [], sentinel := .absent }

namespace Scene

/-- What the machine is given of a scene. -/
def given (sc : Scene) : Given where
  resolve? := sc.process.resolve?
  policy := sc.process.inEffect.sentinelPolicy
  label := sc.thread.label

/-- What the machine leaves in a scene. -/
def trace (sc : Scene) : Trace where
  draws := sc.process.draws
  events := sc.events

/-- Tables were made and written, but none that is below the identity; no value has left a table, and
no removal hook was called. -/
structure Idle (n : TableId) (sc sc' : Scene) : Prop where
  process : sc'.process.undrawn = sc.process.undrawn
  thread : sc'.thread.untabled = sc.thread.untabled
  tables : ∀ id < n, sc'.thread.table id = sc.thread.table id
  nextTable : sc.thread.nextTable ≤ sc'.thread.nextTable
  partings : sc'.partings = sc.partings
  calls : hookCalls sc'.events = hookCalls sc.events

namespace Idle

variable {n m : TableId} {sc sc' sc'' : Scene}

theorem refl (n : TableId) (sc : Scene) : sc.Idle n sc :=
  ⟨rfl, rfl, fun _ _ => rfl, Nat.le_refl _, rfl, rfl⟩

theorem trans (h : sc.Idle n sc') (h' : sc'.Idle n sc'') : sc.Idle n sc'' where
  process := h'.process.trans h.process
  thread := h'.thread.trans h.thread
  tables id hid := (h'.tables id hid).trans (h.tables id hid)
  nextTable := Nat.le_trans h.nextTable h'.nextTable
  partings := h'.partings.trans h.partings
  calls := h'.calls.trans h.calls

theorem mono (h : sc.Idle m sc') (hnm : n ≤ m) : sc.Idle n sc' :=
  { h with tables := fun id hid => h.tables id (Nat.lt_of_lt_of_le hid hnm) }

theorem of_like (n : TableId) (h : sc.Like sc') : sc.Idle n sc' where
  process := (congrArg (·.process.undrawn) h).symm
  thread := (congrArg (·.thread.untabled) h).symm
  tables id _ := h.thread_table id
  nextTable := Nat.le_of_eq (congrArg (·.thread.nextTable) h)
  partings := h.partings
  calls := congrArg hookCalls h.events

theorem setTable {id : TableId} (hid : n ≤ id) (t : SlotTable) : sc.Idle n (sc.setTable id t) where
  process := rfl
  thread := rfl
  tables i hi := by
    rw [table_setTable, if_neg (Nat.ne_of_lt (Nat.lt_of_lt_of_le hi hid))]
  nextTable := Nat.le_refl _
  partings := rfl
  calls := rfl

theorem epoch (h : sc.Idle n sc') : sc'.process.epoch = sc.process.epoch :=
  congrArg (·.epoch) h.process

theorem makeBlank (sc : Scene) : sc.Idle sc.thread.nextTable sc.makeBlank := by
  have hmade : sc.Idle sc.thread.nextTable (sc.makeTable sc.blankTable) := by
    refine ⟨rfl, rfl, fun id hid => ?_, Nat.le_succ _, rfl, rfl⟩
    rw [table_makeTable, if_neg (Nat.ne_of_lt hid)]
  exact hmade.trans (.of_like _ sc.like_makeBlank.symm)

theorem bind (n : TableId) (sc : Scene) (name : String) (id : TableId) :
    sc.Idle n { sc with thread := sc.thread.bind name id } :=
  ⟨rfl, rfl, fun _ _ => rfl, Nat.le_refl _, rfl, rfl⟩

end Idle

theorem Like.trace {sc sc' : Scene} (h : sc.Like sc') : sc'.trace = sc.trace :=
  (congrArg Scene.trace h).symm

theorem trace_unwind (sc : Scene) (n : Nat) : (sc.unwind n).trace = sc.trace := by
  have hdraws := congrArg (·.draws) (sc.stripped_unwind n)
  have hevents : (sc.unwind n).events = sc.events := by rw [unwind_eq]
  exact congrArg₂ Trace.mk hdraws hevents

/-- The thread-locals of the thread are destroyed, its process is sound, and all that initializers do
concerns their thread's own storage. -/
structure Bereft (given : Given) (sc : Scene) : Prop where
  locals : sc.thread.locals.Gone
  sound : sc.process.Sound
  given : sc.given = given
  prepares : sc.process.Prepares Command.IsOwn

/-- The table is made, and like new. -/
structure Spare (given : Given) (id : TableId) (sc : Scene) : Prop where
  made : id < sc.thread.nextTable
  blank : sc.thread.table id = { policy := given.policy }

namespace Bereft

variable {given : Given} {n : TableId} {sc sc' : Scene}

theorem idle (h : sc.Bereft given) (hidle : sc.Idle n sc') : sc'.Bereft given where
  locals := by
    have hlocals : sc'.thread.locals = sc.thread.locals := congrArg (·.locals) hidle.thread
    rw [hlocals]
    exact h.locals
  sound := h.sound.of_eq (congrArg (·.register) hidle.process)
  given := by
    have hprocess := congrArg (fun p : Process => (p.resolve?, p.inEffect.sentinelPolicy)) hidle.process
    have hlabel := congrArg (·.label) hidle.thread
    rw [← h.given]
    show Given.mk _ _ _ = Given.mk _ _ _
    rw [Given.mk.injEq]
    exact ⟨congrArg Prod.fst hprocess, congrArg Prod.snd hprocess, hlabel⟩
  prepares := by
    have hslots : sc'.process.bySlot = sc.process.bySlot := congrArg (·.bySlot) hidle.process
    unfold Process.Prepares
    rw [hslots]
    exact h.prepares

theorem carried? (h : sc.Bereft given) : sc.thread.carried? = none := by
  unfold Thread.carried?
  rw [h.locals.1]
  rfl

theorem own? (h : sc.Bereft given) : sc.own? = none := by
  rw [own?_of_fallback h.carried?, Scene.fallback?, Thread.fallbackOf?, Thread.fallback?, h.locals.2]
  rfl

/-! What is written to the thread-locals is lost. -/

theorem dropFallback (h : sc.Bereft given) : sc.dropFallback = sc := by
  rw [Scene.dropFallback, h.locals.emptied]
  rfl

theorem keep (h : sc.Bereft given) (id : TableId) : sc.keep id = sc := by
  rw [Scene.keep, h.locals.emptied, h.locals.setFallback]
  rfl

theorem carry (h : sc.Bereft given) (id : TableId) : sc.carry id = sc := by
  rw [Scene.carry, h.locals.emptied, h.locals.setCarried]
  rfl

theorem useCarried (h : sc.Bereft given) : sc.setLocals sc.thread.locals.useCarried = sc := by
  rw [h.locals.useCarried]
  rfl

theorem released (h : sc.Bereft given) : sc.released = sc := by
  rw [Scene.released, h.locals.useCarried, h.locals.setCarried]
  rfl

/-- Other thread-locals are destroyed. -/
theorem idle_unwind (h : sc.Bereft given) (m : TableId) (n : Nat) : sc.Idle m (sc.unwind n) := by
  have hprocess := sc.stripped_unwind n
  rw [unwind_eq, h.locals.unwound] at *
  exact ⟨congrArg (fun p : Process => { p with draws := ∅ }) hprocess, rfl, fun _ _ => rfl,
    Nat.le_refl _, rfl, rfl⟩

theorem spare_makeBlank (h : sc.Bereft given) : sc.makeBlank.Spare given sc.thread.nextTable where
  made := Nat.lt_succ_self _
  blank := by
    rw [sc.like_makeBlank.symm.thread_table, table_makeTable, if_pos rfl, ← h.given]
    rfl

theorem slot_le (h : sc.Bereft given) {handle : Nat} {v : Variable}
    (hv : given.resolve? handle = some v) : v.slot ≤ maxSlot := by
  rw [← h.given] at hv
  exact (h.sound.bySlot _ v (h.sound.resolve?_eq_some.1 hv).2).2.2.1

theorem only_initializer (h : sc.Bereft given) {handle : Nat} {v : Variable}
    (hv : given.resolve? handle = some v) {s : Script} (hs : v.initial.nested = some s) :
    s.Only Command.IsOwn := by
  rw [← h.given] at hv
  exact h.prepares _ v (h.sound.resolve?_eq_some.1 hv).2 s hs

end Bereft

/-- Nested code leaves a table alone that is there before. -/
theorem Spare.idle {given : Given} {id n : TableId} {sc sc' : Scene} (h : sc.Spare given id)
    (hn : id < n) (hidle : sc.Idle n sc') : sc'.Spare given id where
  made := Nat.lt_of_lt_of_le h.made hidle.nextTable
  blank := (hidle.tables id hn).trans h.blank

end Scene

namespace Bare

theorem Turn.bind_pure {α : Type} (y : Turn α) : y >>= pure = y := by
  funext t
  show Turn.bind y Turn.pure t = y t
  unfold Turn.bind
  rcases y t with ⟨_ | _, _⟩ <;> rfl

/-- From the scene the action ends as the turn does and leaves what the turn leaves. -/
def Matches {α : Type} (n : TableId) (x : Storage α) (y : Turn α) (sc : Scene) : Prop :=
  ∃ sc', runOn x sc = ((y sc.trace).1, sc') ∧ sc'.trace = (y sc.trace).2 ∧ sc.Idle n sc'

/-- On a thread whose thread-locals are destroyed the action ends as the turn does, and leaves what the
turn leaves. -/
def AmountsTo {α : Type} (given : Given) (x : Storage α) (y : Turn α) : Prop :=
  ∀ sc : Scene, sc.Bereft given → Matches sc.thread.nextTable x y sc

section

variable {α β : Type} {given : Given} {n : TableId} {sc sc₁ : Scene}

namespace Matches

theorem of_idle {x : Storage α} {a : α} (hrun : runOn x sc = (.ok a, sc₁))
    (htrace : sc₁.trace = sc.trace) (hidle : sc.Idle n sc₁) : Matches n x (pure a) sc :=
  ⟨sc₁, hrun, htrace, hidle⟩

theorem of_like {x : Storage α} {a : α} (hrun : runOn x sc = (.ok a, sc₁)) (hlike : sc.Like sc₁) :
    Matches n x (pure a) sc :=
  of_idle hrun hlike.trace (.of_like n hlike)

theorem of_runOn {x : Storage α} {a : α} (hrun : runOn x sc = (.ok a, sc)) :
    Matches n x (pure a) sc :=
  of_idle hrun rfl (.refl n sc)

theorem of_stop {x : Storage α} {stop : Stop} (hrun : runOn x sc = (.error stop, sc)) :
    Matches n x (Turn.stop stop) sc :=
  ⟨sc, hrun, rfl, .refl n sc⟩

theorem pure (a : α) : Matches n (Pure.pure a) (Pure.pure a) sc := of_runOn rfl

theorem mono {m : TableId} {x : Storage α} {y : Turn α} (h : Matches m x y sc) (hnm : n ≤ m) :
    Matches n x y sc := by
  obtain ⟨sc', hrun, htrace, hidle⟩ := h
  exact ⟨sc', hrun, htrace, hidle.mono hnm⟩

/-- Sequencing. The first part may leave more tables alone than the rest does. -/
theorem bind_mono {m : TableId} {x : Storage α} {y : Turn α} {f : α → Storage β} {g : α → Turn β}
    (hx : Matches m x y sc) (hnm : n ≤ m)
    (hf : ∀ a sc₁, sc.Idle m sc₁ → Matches n (f a) (g a) sc₁) :
    Matches n (x >>= f) (y >>= g) sc := by
  obtain ⟨sc₁, hrun, htrace, hidle⟩ := hx
  show ∃ sc', runOn (x >>= f) sc = ((Turn.bind y g sc.trace).1, sc') ∧
    sc'.trace = (Turn.bind y g sc.trace).2 ∧ sc.Idle n sc'
  unfold Turn.bind
  rw [runOn_bind, hrun]
  rcases hy : y sc.trace with ⟨stop | a, t⟩
  · rw [hy] at htrace
    exact ⟨sc₁, rfl, htrace, hidle.mono hnm⟩
  · rw [hy] at htrace
    obtain rfl : sc₁.trace = t := htrace
    obtain ⟨sc₂, hrun₂, htrace₂, hidle₂⟩ := hf a sc₁ hidle
    exact ⟨sc₂, hrun₂, htrace₂, (hidle.mono hnm).trans hidle₂⟩

theorem bind {x : Storage α} {y : Turn α} {f : α → Storage β} {g : α → Turn β}
    (hx : Matches n x y sc) (hf : ∀ a sc₁, sc.Idle n sc₁ → Matches n (f a) (g a) sc₁) :
    Matches n (x >>= f) (y >>= g) sc :=
  bind_mono hx (Nat.le_refl n) hf

/-- A step of the action that the turn does not have. -/
theorem bind_idle {x : Storage α} {a : α} {f : α → Storage β} {y : Turn β}
    (hrun : runOn x sc = (.ok a, sc₁)) (htrace : sc₁.trace = sc.trace) (hidle : sc.Idle n sc₁)
    (hf : Matches n (f a) y sc₁) : Matches n (x >>= f) y sc := by
  obtain ⟨sc₂, hrun₂, htrace₂, hidle₂⟩ := hf
  rw [htrace] at hrun₂ htrace₂
  refine ⟨sc₂, ?_, htrace₂, hidle.trans hidle₂⟩
  rw [runOn_bind, hrun]
  exact hrun₂

theorem bind_pure {x : Storage α} {a : α} {f : α → Storage β} {y : Turn β}
    (hx : Matches n x (Pure.pure a) sc) (hf : ∀ sc₁, sc.Idle n sc₁ → Matches n (f a) y sc₁) :
    Matches n (x >>= f) y sc := by
  obtain ⟨sc₁, hrun, htrace, hidle⟩ := hx
  exact bind_idle hrun htrace hidle (hf sc₁ hidle)

theorem bind_like {x : Storage α} {a : α} {f : α → Storage β} {y : Turn β}
    (hrun : runOn x sc = (.ok a, sc₁)) (hlike : sc.Like sc₁) (hf : Matches n (f a) y sc₁) :
    Matches n (x >>= f) y sc :=
  bind_idle hrun hlike.trace (.of_like n hlike) hf

theorem emit {e : Event} (he : hookCalls [e] = []) : Matches n (emit e) (Turn.say e) sc := by
  refine ⟨_, runOn_emit sc e, rfl, rfl, rfl, fun _ _ => rfl, Nat.le_refl _, rfl, ?_⟩
  show hookCalls ([e] ++ sc.events) = hookCalls sc.events
  unfold hookCalls at *
  rw [List.filterMap_append, he]
  rfl

theorem caught {x : Storage α} {y : Turn α} (h : Matches n x y sc) :
    Matches n (Storage.caught x) y.caught sc := by
  obtain ⟨sc', hrun, htrace, hidle⟩ := h
  unfold Matches Turn.caught
  rw [runOn_caught, hrun]
  rcases hy : y sc.trace with ⟨(e | message) | a, t⟩
  all_goals
    rw [hy] at htrace
    exact ⟨sc', rfl, htrace, hidle⟩

theorem reportStep (name : String) (answer : Except String Reply) :
    Matches n (ThreadSlots.reportStep name answer) (Turn.reportStep name answer) sc := by
  cases answer with
  | ok reply => exact emit rfl
  | error message => exact pure ()

theorem draw (v : Variable) : Matches n v.draw (Turn.draw v) sc :=
  ⟨_, rfl, rfl, rfl, rfl, fun _ _ => rfl, Nat.le_refl _, rfl, rfl⟩

end Matches

end

/-! ## Nested code -/

section

variable {given : Given} {enter : Enter} {enter' : Script → Turn (Option Value)}
  (henter : ∀ s : Script, s.Only Command.IsOwn → AmountsTo given (enter s) (enter' s))
  {n : TableId} {sc : Scene} (hsc : sc.Bereft given) (hn : n ≤ sc.thread.nextTable)

include henter hsc hn

theorem matches_enter {s : Script} (hs : s.Only Command.IsOwn) : Matches n (enter s) (enter' s) sc :=
  (henter s hs sc hsc).mono hn

theorem matches_makeInitial {v : Variable}
    (hv : ∀ s, v.initial.nested = some s → s.Only Command.IsOwn) :
    Matches n (v.makeInitial enter) (Turn.makeInitial enter' v) sc := by
  have hnested : Matches n (v.initial.runNested enter) (Turn.runNested enter' v.initial) sc := by
    unfold Initializer.runNested Turn.runNested
    cases hs : v.initial.nested with
    | some s => exact matches_enter henter hsc hn (hv s hs)
    | none => exact .pure none
  unfold Variable.makeInitial Turn.makeInitial
  refine .bind hnested fun result sc₁ _ => .bind (.draw v) fun k sc₂ _ => ?_
  cases v.initial.outcome k result with
  | ok made =>
    dsimp only
    split
    · exact .bind (.emit rfl) fun _ _ _ => .pure _
    · exact .pure _
  | error message =>
    dsimp only
    split
    · exact .bind (.emit rfl) fun _ _ _ => .of_stop rfl
    · exact .of_stop rfl

end

/-! ## A variable in a table that nothing else reaches -/

section

variable {given : Given} {v : Variable} {id : TableId} {sc : Scene} (hid : sc.Spare given id)

include hid

theorem get?_spare (slot : Nat) : (sc.thread.table id).get? slot = none := by
  rw [hid.blank]
  exact Table.get?_mk _ _

/-- There is nothing to remove, and no hook is called. -/
theorem matches_store_none (enter : Enter) :
    Matches id
      (do
        v.storeIn enter id none
        return Reply.done)
      (if given.policy.rejectsSentinel then Turn.stop (.refused (.sentinelStored v.slot))
        else pure Reply.done) sc := by
  have hhook : ∀ sc₁ : Scene, runOn (v.runHook enter none) (sc₁.handedOver v id none) =
      (.ok (), sc₁) := by
    intro sc₁
    unfold Variable.runHook Scene.handedOver
    cases v.onRemoval <;> rfl
  have hstore := runOn_storeIn_none sc enter v id
  rw [get?_spare hid, hhook, hid.blank] at hstore
  split at hstore
  · next hrejects =>
    rw [if_pos hrejects]
    refine .of_stop ?_
    rw [runOn_bind, hstore]
  · next haccepts =>
    rw [if_neg haccepts]
    exact .bind_idle hstore rfl (.setTable (Nat.le_refl id) _) (.pure Reply.done)

variable (hv : v.slot ≤ maxSlot)

include hv

/-- A value is stored where none was before. -/
theorem matches_putIn (x : Value) (fate : Fate) : Matches id (v.putIn id x fate) (pure none) sc := by
  obtain ⟨stored, hstored⟩ : ∃ stored, (sc.thread.table id).insert v.slot (.value x) = .ok stored := by
    rw [hid.blank]
    obtain ⟨stored, hstored, -⟩ :=
      Table.exists_insert (Table.grown_mk given.policy) hv (.value x : Cell)
    exact ⟨stored, hstored⟩
  obtain ⟨sc', hrun, hlike⟩ := ends_putIn sc fate hstored
  rw [get?_spare hid v.slot] at hrun hlike
  have hset : sc.Idle id (sc.setTable id (stored.track v)) := .setTable (Nat.le_refl id) _
  have hwritten : sc.Idle id (((sc.setTable id (stored.track v)).arrived id v.slot (.value x)).parted
      id v.slot fate none) :=
    ⟨hset.process, hset.thread, hset.tables, hset.nextTable, hset.partings, hset.calls⟩
  exact .of_idle hrun hlike.trace (hwritten.trans (.of_like id hlike))

theorem matches_setIn (x : Value) : Matches id (v.setIn id x) (pure ()) sc :=
  .bind_pure (matches_putIn hid hv x .overwritten) fun _ _ => .pure ()

theorem matches_replaceIn (x : Value) : Matches id (v.replaceIn id x) (pure none) sc := by
  refine .bind_pure (matches_putIn hid hv x .returned) fun _ _ => ?_
  exact .pure none

theorem matches_storeIn_some (enter : Enter) (x : Value) :
    Matches id (v.storeIn enter id (some x)) (pure ()) sc := by
  have hset := matches_setIn hid hv x
  unfold Matches at hset ⊢
  rwa [runOn_storeIn_some]

variable {enter : Enter} {enter' : Script → Turn (Option Value)}
  (henter : ∀ s : Script, s.Only Command.IsOwn → AmountsTo given (enter s) (enter' s))
  (hsc : sc.Bereft given) (hnested : ∀ s, v.initial.nested = some s → s.Only Command.IsOwn)

include henter hsc hnested

/-- The initializer is called, and what its nested code does leaves the table alone. -/
theorem matches_getIn : Matches id (v.getIn enter id) (Turn.makeInitial enter' v) sc := by
  unfold Variable.getIn
  refine .bind_like (runOn_table sc id) (.refl sc) ?_
  rw [get?_spare hid]
  have hcounted : sc.Like { sc with process := sc.process.count .initializations } :=
    .count sc (by decide)
  refine .bind_like (runOn_count sc .initializations) hcounted ?_
  have hidle₁ : sc.Idle (id + 1) _ := .of_like (id + 1) hcounted
  have hid₁ := hid.idle (Nat.lt_succ_self id) hidle₁
  have hmade := matches_makeInitial henter (hsc.idle hidle₁) (Nat.succ_le_of_lt hid₁.made) hnested
  rw [← Turn.bind_pure (Turn.makeInitial enter' v)]
  refine hmade.bind_mono (Nat.le_succ id) fun x sc₂ hidle₂ => ?_
  have hid₂ := hid₁.idle (Nat.lt_succ_self id) hidle₂
  exact .bind_pure (matches_putIn hid₂ hv x .overwritten) fun _ _ => .pure x

theorem matches_withIn {body : Option (Value → Script)}
    (hbody : ∀ b, body = some b → ∀ x, (b x).Only Command.IsOwn) :
    Matches id (v.withIn enter id body) (Turn.withInitial enter' v body) sc := by
  refine .bind (matches_getIn hid hv henter hsc hnested) fun x sc₁ hidle => ?_
  cases body with
  | none => exact .pure x
  | some b =>
    have hsc₁ := hsc.idle hidle
    have hle := Nat.le_trans (Nat.le_of_lt hid.made) hidle.nextTable
    exact .bind (matches_enter henter hsc₁ hle (hbody b rfl x)) fun _ _ _ => .pure x

end

end Bare

end ThreadSlots
