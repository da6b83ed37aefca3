import ThreadSlots.Proofs.Runs

/-!
# The effect of each operation between callbacks

What the steps of an operation that run no nested code do, one statement for each: finding, making,
discarding and keeping the thread's table, and writing a variable's slot. Effects are exact up to
`Scene.Like`.
-/

namespace ThreadSlots

open Std (ExtTreeMap)

/-! ## Thread-locals that hold tables -/

namespace LocalCell

variable {α : Type} (c : LocalCell α)

@[simp] theorem content?_put_none : (c.put none).content? = none := by cases c <;> rfl

theorem content?_put (x : Option α) : (c.put x).content? = x ∨ (c.put x).content? = none := by
  cases c with
  | inUse since content => exact .inl rfl
  | _ => exact .inr rfl

@[simp] theorem put_put (x y : Option α) : (c.put x).put y = c.put y := by cases c <;> rfl

/-- What operations see of it: what it holds, unless it was destroyed. -/
def seen : LocalCell α → Option (Option α)
  | .destroyed => none
  | cell => some cell.content?

theorem content?_eq_seen : c.content? = c.seen.join := by cases c <;> rfl

theorem isSome_seen : c.seen.isSome ↔ c ≠ .destroyed := by cases c <;> simp [seen]

end LocalCell

namespace Locals

variable (l : Locals)

@[simp] theorem carried_useCarried : l.useCarried.carried.content? = l.carried.content? := by
  unfold useCarried
  split
  · next h => rw [h]; rfl
  · rfl

@[simp] theorem fallback_useCarried : l.useCarried.fallback = l.fallback := by
  unfold useCarried
  split <;> rfl

@[simp] theorem carried_useFallback : l.useFallback.carried = l.carried := by
  unfold useFallback
  split <;> rfl

@[simp] theorem fallback_useFallback : l.useFallback.fallback.content? = l.fallback.content? := by
  unfold useFallback
  split
  · next h => rw [h]; rfl
  · rfl

/-- What operations see of the thread-locals: not when they were first used. -/
def seen : Option (Option TableId) × Option (Option Fallback) := (l.carried.seen, l.fallback.seen)

@[simp] theorem seen_useCarried : l.useCarried.seen = l.seen := by
  unfold useCarried seen
  split
  · next h => rw [h]; rfl
  · rfl

@[simp] theorem seen_useFallback : l.useFallback.seen = l.seen := by
  unfold useFallback seen
  split
  · next h => rw [h]; rfl
  · rfl

theorem useCarried_of_some {l : Locals} {id : TableId} (h : l.carried.content? = some id) :
    l.useCarried = l := by
  unfold useCarried
  split
  · next hc =>
    rw [hc] at h
    cases h
  · rfl

theorem useFallback_cases :
    (∃ since, l.useFallback.fallback = .inUse since l.fallback.content?) ∨
      (l.useFallback.fallback = .destroyed ∧ l.fallback.content? = none) := by
  unfold useFallback
  cases h : l.fallback with
  | unused => exact .inl ⟨_, rfl⟩
  | inUse since content => exact .inl ⟨since, h⟩
  | destroyed => exact .inr ⟨h, rfl⟩

/-- The thread-locals once the thread's table was found. -/
def reached : Locals := if l.carried.content?.isSome then l else l.useCarried.useFallback

/-- The thread-locals once the fallback table was given up. -/
def emptied : Locals := l.useCarried.useFallback.setFallback none

@[simp] theorem seen_reached : l.reached.seen = l.seen := by
  unfold reached
  split
  · rfl
  · rw [seen_useFallback, seen_useCarried]

@[simp] theorem carried_setFallback (f : Option Fallback) : (l.setFallback f).carried = l.carried :=
  rfl

@[simp] theorem fallback_setCarried (id : Option TableId) :
    (l.setCarried id).fallback = l.fallback := rfl

@[simp] theorem carried_emptied : l.emptied.carried.content? = l.carried.content? := by
  rw [emptied, carried_setFallback, carried_useFallback, carried_useCarried]

@[simp] theorem fallback_emptied : l.emptied.fallback.content? = none :=
  LocalCell.content?_put_none _

theorem seen_setCarried (id : Option TableId) :
    (l.useCarried.setCarried id).seen = (l.carried.seen.map fun _ => id, l.fallback.seen) := by
  obtain ⟨_ | ⟨since, content⟩ | _, fallback, uses⟩ := l <;> rfl

theorem seen_emptied : l.emptied.seen = (l.carried.seen, l.fallback.seen.map fun _ => none) := by
  obtain ⟨_ | ⟨_, _⟩ | _, _ | ⟨_, _⟩ | _, uses⟩ := l <;> rfl

theorem seen_emptied_setFallback (f : Option Fallback) :
    (l.emptied.setFallback f).seen = (l.carried.seen, l.fallback.seen.map fun _ => f) := by
  obtain ⟨_ | ⟨_, _⟩ | _, _ | ⟨_, _⟩ | _, uses⟩ := l <;> rfl

theorem seen_emptied_setCarried (id : Option TableId) :
    (l.emptied.setCarried id).seen =
      (l.carried.seen.map fun _ => id, l.fallback.seen.map fun _ => none) := by
  obtain ⟨_ | ⟨_, _⟩ | _, _ | ⟨_, _⟩ | _, uses⟩ := l <;> rfl

/-- Neither thread-local was destroyed. -/
def Intact : Prop := l.carried ≠ .destroyed ∧ l.fallback ≠ .destroyed

instance : Decidable l.Intact := inferInstanceAs (Decidable (_ ∧ _))

theorem intact_iff_seen : l.Intact ↔ l.seen.1.isSome ∧ l.seen.2.isSome := by
  rw [Intact, ← LocalCell.isSome_seen, ← LocalCell.isSome_seen]
  rfl

theorem Intact.of_seen {l l' : Locals} (h : l.Intact) (hseen : l'.seen = l.seen) : l'.Intact := by
  rw [intact_iff_seen] at *
  rwa [hseen]

theorem Intact.emptied {l : Locals} (h : l.Intact) : l.emptied.Intact := by
  rw [intact_iff_seen] at *
  rw [seen_emptied]
  exact ⟨h.1, (Option.isSome_map ..).trans h.2⟩

theorem Intact.setCarried {l : Locals} (h : l.Intact) (id : Option TableId) :
    (l.setCarried id).Intact := by
  refine ⟨?_, h.2⟩
  unfold Locals.setCarried
  rcases hc : l.carried with _ | _ | _
  · nofun
  · nofun
  · exact absurd hc h.1

theorem Intact.setFallback {l : Locals} (h : l.Intact) (f : Option Fallback) :
    (l.setFallback f).Intact := by
  refine ⟨h.1, ?_⟩
  unfold Locals.setFallback
  rcases hf : l.fallback with _ | _ | _
  · nofun
  · nofun
  · exact absurd hf h.2

theorem setFallback_of_destroyed {l : Locals} (h : l.fallback = .destroyed) (f : Option Fallback) :
    l.setFallback f = l := by
  have hput : l.fallback.put f = l.fallback := by rw [h]; rfl
  rw [setFallback, hput]

/-- Both thread-locals were destroyed. -/
def Gone : Prop := l.carried = .destroyed ∧ l.fallback = .destroyed

instance : Decidable l.Gone := inferInstanceAs (Decidable (_ ∧ _))

theorem Gone.useCarried {l : Locals} (h : l.Gone) : l.useCarried = l := by
  unfold Locals.useCarried
  rw [h.1]

theorem Gone.useFallback {l : Locals} (h : l.Gone) : l.useFallback = l := by
  unfold Locals.useFallback
  rw [h.2]

theorem Gone.setCarried {l : Locals} (h : l.Gone) (id : Option TableId) : l.setCarried id = l := by
  have hput : l.carried.put id = l.carried := by rw [h.1]; rfl
  rw [Locals.setCarried, hput]

theorem Gone.setFallback {l : Locals} (h : l.Gone) (f : Option Fallback) : l.setFallback f = l :=
  setFallback_of_destroyed h.2 f

theorem Gone.emptied {l : Locals} (h : l.Gone) : l.emptied = l := by
  rw [Locals.emptied, h.useCarried, h.useFallback, h.setFallback]

theorem setFallback_emptied (f : Option Fallback) :
    l.emptied.setFallback f = l.useCarried.useFallback.setFallback f := by
  simp only [emptied, setFallback, LocalCell.put_put]

end Locals

/-! ## The thread's own table -/

namespace Thread

variable {t t' : Thread}

theorem carried?_eq_seen (t : Thread) : t.carried? = t.locals.seen.1.join :=
  LocalCell.content?_eq_seen _

theorem fallback?_eq_seen (t : Thread) : t.fallback? = t.locals.seen.2.join :=
  LocalCell.content?_eq_seen _

theorem own?_eq_seen (t : Thread) (epoch : UInt64) :
    t.own? epoch = (t.locals.seen.1.join <|>
      (t.locals.seen.2.join.filter (·.epoch = epoch)).map (·.table)) := by
  rw [own?, fallbackOf?, carried?_eq_seen, fallback?_eq_seen]

theorem carried?_of_seen (h : t'.locals.seen = t.locals.seen) : t'.carried? = t.carried? := by
  rw [carried?_eq_seen, carried?_eq_seen, h]

theorem fallback?_of_seen (h : t'.locals.seen = t.locals.seen) : t'.fallback? = t.fallback? := by
  rw [fallback?_eq_seen, fallback?_eq_seen, h]

theorem own?_of_seen (h : t'.locals.seen = t.locals.seen) (epoch : UInt64) :
    t'.own? epoch = t.own? epoch := by
  rw [own?_eq_seen, own?_eq_seen, h]

theorem own?_of_carried {t : Thread} {id : TableId} (h : t.carried? = some id) (epoch : UInt64) :
    t.own? epoch = some id := by
  unfold own?
  rw [h]
  rfl

theorem own?_of_fallback {t : Thread} (h : t.carried? = none) (epoch : UInt64) :
    t.own? epoch = t.fallbackOf? epoch := by
  unfold own?
  rw [h]
  rfl

end Thread

namespace Scene

/-- The table that operations of the thread work on. -/
def own? (sc : Scene) : Option TableId := sc.thread.own? sc.process.epoch

/-- The fallback table of the current epoch. -/
def fallback? (sc : Scene) : Option TableId := sc.thread.fallbackOf? sc.process.epoch

/-- The scene once the thread's table was found. -/
def reached (sc : Scene) : Scene := sc.setLocals sc.thread.locals.reached

/-- The scene without a fallback table. -/
def dropFallback (sc : Scene) : Scene := sc.setLocals sc.thread.locals.emptied

/-- The scene with the table for its fallback table, if there can be one. -/
def keep (sc : Scene) (id : TableId) : Scene :=
  sc.setLocals (sc.thread.locals.emptied.setFallback (some ⟨sc.process.epoch, id⟩))

/-- The scene whose thread carries the table, if it can carry one. -/
def carry (sc : Scene) (id : TableId) : Scene :=
  sc.setLocals (sc.thread.locals.emptied.setCarried (some id))

/-- The scene whose thread carries no table. -/
def released (sc : Scene) : Scene := sc.setLocals (sc.thread.locals.useCarried.setCarried none)

/-- The scene with one more table. -/
def makeTable (sc : Scene) (t : SlotTable) : Scene :=
  { sc with
    thread :=
      { sc.thread with
        tables := sc.thread.tables.insert sc.thread.nextTable t
        nextTable := sc.thread.nextTable + 1 } }

/-- The scene with one more table, in which the given values have arrived by hand, and the marks that
this leaves. -/
def makeFilled (sc : Scene) (t : SlotTable) (marks : List TableId) (news : List Arrival) : Scene :=
  { sc.makeTable t with
    thread := { (sc.makeTable t).thread with filled := marks ++ sc.thread.filled }
    arrivals := news ++ sc.arrivals }

/-- The scene in which the thread's explicit tables go by other names. -/
def renamed (sc : Scene) (names : List (String × TableId)) : Scene :=
  { sc with thread := { sc.thread with names := names } }

/-- The next table is blank or marked as filled, and holds only values that have arrived in it. -/
structure Fills (sc : Scene) (t : SlotTable) (marks : List TableId) (news : List Arrival) : Prop where
  grown : t.Grown
  marked : ∀ id ∈ marks, id = sc.thread.nextTable
  unmarked : marks = [] → ∀ slot, t.get? slot = none
  arrived : ∀ slot cell, t.get? slot = some cell →
    ∃ value, cell = .value value ∧ ⟨sc.thread.nextTable, slot, value⟩ ∈ news

/-- The contents of a table that is made with the policy of the process. -/
def blankTable (sc : Scene) : SlotTable := { policy := sc.process.inEffect.sentinelPolicy }

/-- The scene with one more table, made with the policy of the process. -/
def makeBlank (sc : Scene) : Scene :=
  { sc.makeTable sc.blankTable with process := sc.process.settled.count .tablesCreated }

theorem like_makeBlank (sc : Scene) : sc.makeBlank.Like (sc.makeTable sc.blankTable) := by
  apply Like.symm
  exact .of_process (sc.process.settled.stripped_count (by decide))

@[simp] theorem table_reached (sc : Scene) (id : TableId) :
    sc.reached.thread.table id = sc.thread.table id := rfl

@[simp] theorem carried?_reached (sc : Scene) : sc.reached.thread.carried? = sc.thread.carried? :=
  Thread.carried?_of_seen sc.thread.locals.seen_reached

@[simp] theorem fallback?_reached (sc : Scene) :
    sc.reached.thread.fallback? = sc.thread.fallback? :=
  Thread.fallback?_of_seen sc.thread.locals.seen_reached

@[simp] theorem own?_reached (sc : Scene) : sc.reached.own? = sc.own? :=
  Thread.own?_of_seen sc.thread.locals.seen_reached sc.process.epoch

@[simp] theorem carried?_dropFallback (sc : Scene) :
    sc.dropFallback.thread.carried? = sc.thread.carried? :=
  sc.thread.locals.carried_emptied

@[simp] theorem fallback?_dropFallback (sc : Scene) : sc.dropFallback.thread.fallback? = none :=
  sc.thread.locals.fallback_emptied

@[simp] theorem carried?_keep (sc : Scene) (id : TableId) :
    (sc.keep id).thread.carried? = sc.thread.carried? :=
  sc.thread.locals.carried_emptied

theorem fallback?_keep (sc : Scene) (id : TableId) :
    (sc.keep id).thread.fallback? = some ⟨sc.process.epoch, id⟩ ∨
      (sc.keep id).thread.fallback? = none :=
  LocalCell.content?_put _ _

theorem carried?_carry (sc : Scene) (id : TableId) :
    (sc.carry id).thread.carried? = some id ∨ (sc.carry id).thread.carried? = none :=
  LocalCell.content?_put _ _

@[simp] theorem fallback?_carry (sc : Scene) (id : TableId) :
    (sc.carry id).thread.fallback? = none :=
  sc.thread.locals.fallback_emptied

@[simp] theorem carried?_released (sc : Scene) : sc.released.thread.carried? = none :=
  LocalCell.content?_put_none _

@[simp] theorem fallback?_released (sc : Scene) :
    sc.released.thread.fallback? = sc.thread.fallback? :=
  congrArg LocalCell.content? sc.thread.locals.fallback_useCarried

theorem own?_of_carried {sc : Scene} {id : TableId} (h : sc.thread.carried? = some id) :
    sc.own? = some id := Thread.own?_of_carried h _

theorem carried?_eq_none {sc : Scene} (h : sc.own? = none) : sc.thread.carried? = none := by
  rcases hc : sc.thread.carried? with _ | id
  · rfl
  · rw [own?_of_carried hc] at h
    cases h

theorem own?_of_fallback {sc : Scene} (h : sc.thread.carried? = none) : sc.own? = sc.fallback? :=
  Thread.own?_of_fallback h _

theorem own?_dropFallback {sc : Scene} (hc : sc.thread.carried? = none) :
    sc.dropFallback.own? = none := by
  rw [own?_of_fallback (by rwa [carried?_dropFallback]), fallback?, Thread.fallbackOf?,
    fallback?_dropFallback]
  rfl

/-- A thread whose thread-locals are all there has the table that it keeps. -/
theorem own?_keep {sc : Scene} (hc : sc.thread.carried? = none) (h : sc.thread.locals.Intact)
    (id : TableId) : (sc.keep id).own? = some id := by
  rw [own?_of_fallback (by rwa [carried?_keep]), fallback?, Thread.fallbackOf?,
    Thread.fallback?_eq_seen]
  have hseen : (sc.keep id).thread.locals.seen.2 = some (some ⟨sc.process.epoch, id⟩) := by
    obtain ⟨f, hf⟩ := Option.isSome_iff_exists.1 ((Locals.intact_iff_seen _).1 h).2
    show (sc.thread.locals.emptied.setFallback _).seen.2 = _
    rw [Locals.seen_emptied_setFallback]
    exact congrArg (Option.map _) hf
  have hepoch : (sc.keep id).process.epoch = sc.process.epoch := rfl
  rw [hseen, hepoch]
  simp [Option.filter]

/-- A thread whose thread-locals are all there carries the table that it is made to carry. -/
theorem carried?_carry_of_intact {sc : Scene} (h : sc.thread.locals.Intact) (id : TableId) :
    (sc.carry id).thread.carried? = some id := by
  obtain ⟨c, hc⟩ := Option.isSome_iff_exists.1 ((Locals.intact_iff_seen _).1 h).1
  rw [Thread.carried?_eq_seen]
  show (sc.thread.locals.emptied.setCarried _).seen.1.join = _
  rw [Locals.seen_emptied_setCarried]
  exact congrArg (fun seen => (Option.map (fun _ => some id) seen).join) hc

theorem fallback?_useCarried (sc : Scene) :
    (sc.setLocals sc.thread.locals.useCarried).fallback? = sc.fallback? := by
  have h : (sc.setLocals sc.thread.locals.useCarried).thread.fallback? = sc.thread.fallback? :=
    congrArg LocalCell.content? sc.thread.locals.fallback_useCarried
  rw [fallback?, Thread.fallbackOf?, h]
  rfl

@[simp] theorem setLocals_setLocals (sc : Scene) (l l' : Locals) :
    (sc.setLocals l).setLocals l' = sc.setLocals l' := rfl

@[simp] theorem process_setLocals (sc : Scene) (l : Locals) :
    (sc.setLocals l).process = sc.process := rfl

@[simp] theorem locals_setLocals (sc : Scene) (l : Locals) : (sc.setLocals l).thread.locals = l :=
  rfl

theorem reached_of_none {sc : Scene} (h : sc.thread.carried? = none) :
    sc.reached = sc.setLocals sc.thread.locals.useCarried.useFallback := by
  rw [reached, Locals.reached, if_neg]
  rw [show sc.thread.locals.carried.content? = none from h]
  exact Bool.false_ne_true

theorem reached_of_carried {sc : Scene} {id : TableId} (h : sc.thread.carried? = some id) :
    sc.reached = sc := by
  have hl : sc.thread.locals.reached = sc.thread.locals := by
    rw [Locals.reached, if_pos]
    rw [show sc.thread.locals.carried.content? = some id from h]
    rfl
  rw [reached, hl]
  rfl

theorem table_makeTable (sc : Scene) (t : SlotTable) (i : TableId) :
    (sc.makeTable t).thread.table i = if i = sc.thread.nextTable then t else sc.thread.table i := by
  rw [← table_setTable]
  rfl

theorem Like.bind {sc sc' : Scene} (h : sc.Like sc') (name : String) (id : TableId) :
    (sc.renamed (sc.thread.bind name id).names).Like
      { sc' with thread := sc'.thread.bind name id } :=
  congrArg (fun s : Scene => s.renamed (s.thread.bind name id).names) h

theorem makeFilled_setTable (sc : Scene) (t u : SlotTable) (marks : List TableId)
    (news : List Arrival) :
    (sc.makeFilled t marks news).setTable sc.thread.nextTable u = sc.makeFilled u marks news := by
  simp only [setTable, makeFilled, makeTable, insert_insert]

namespace Fills

variable {sc : Scene} {t : SlotTable} {marks : List TableId} {news : List Arrival}

theorem of_blank (hg : t.Grown) (h : ∀ slot, t.get? slot = none) : sc.Fills t [] [] :=
  ⟨hg, nofun, fun _ => h, fun slot cell hcell => by simp [h slot] at hcell⟩

theorem live (h : sc.Fills t marks news) : t.live = ∅ := by
  unfold Table.live
  rcases hcell : t.get? reservedSlot with _ | cell
  · rfl
  · obtain ⟨value, rfl, -⟩ := h.arrived _ _ hcell
    rfl

theorem mark (h : sc.Fills t marks news) : sc.Fills t (sc.thread.nextTable :: marks) news :=
  ⟨h.grown, List.forall_mem_cons.2 ⟨rfl, h.marked⟩, nofun, h.arrived⟩

/-- One more value is put into the table. -/
theorem insert (h : sc.Fills t (sc.thread.nextTable :: marks) news) {slot : Nat} {value : Value}
    {stored : Table.Stored Cell} (hi : t.insert slot (.value value) = .ok stored) :
    sc.Fills stored.table (sc.thread.nextTable :: marks)
      (⟨sc.thread.nextTable, slot, value⟩ :: news) := by
  refine ⟨h.grown.insert hi, h.marked, nofun, fun s cell hcell => ?_⟩
  rw [(Table.insert_eq_ok hi).1 s] at hcell
  split at hcell
  · next he =>
    subst he
    cases hcell
    exact ⟨value, rfl, List.mem_cons_self⟩
  · obtain ⟨x, rfl, hmem⟩ := h.arrived s cell hcell
    exact ⟨x, rfl, List.mem_cons_of_mem _ hmem⟩

end Fills

end Scene

namespace Storage

variable (sc : Scene)

theorem runOn_newTable (policy : SentinelPolicy) :
    runOn (newTable policy) sc = (.ok sc.thread.nextTable,
      { sc.makeTable { policy := policy } with process := sc.process.count .tablesCreated }) :=
  rfl

theorem runOn_freshTable : runOn freshTable sc = (.ok sc.thread.nextTable, sc.makeBlank) := by
  rw [freshTable, runOn_bind, runOn_settings]
  exact runOn_newTable _ _

@[simp] theorem runOn_carried? : runOn carried? sc =
    (.ok sc.thread.carried?, sc.setLocals sc.thread.locals.useCarried) := by
  unfold carried?
  simp only [runOn_bind, runOn_modifyLocals, runOn_thread, runOn_pure]
  exact congrArg (fun c => (Except.ok c, _)) sc.thread.locals.carried_useCarried

theorem runOn_fallback? (create : Bool) :
    runOn (fallback? create) sc =
      match sc.fallback? with
      | some id => (.ok (some id), sc.setLocals sc.thread.locals.useFallback)
      | none =>
        if create ∧ sc.thread.locals.useFallback.fallback ≠ .destroyed then
          (.ok (some sc.thread.nextTable),
            sc.makeBlank.setLocals (sc.thread.locals.useFallback.setFallback
              (some ⟨sc.process.epoch, sc.thread.nextTable⟩)))
        else (.ok none, sc.setLocals (sc.thread.locals.useFallback.setFallback none)) := by
  unfold fallback? Scene.fallback? Thread.fallbackOf? Thread.fallback?
  simp only [runOn_bind, runOn_process, runOn_modifyLocals, runOn_thread, Scene.locals_setLocals]
  rcases sc.thread.locals.useFallback_cases with ⟨since, h⟩ | ⟨h, hnone⟩
  · simp only [h]
    rcases sc.thread.locals.fallback.content?.filter _ with _ | f
    · cases create with
      | false => simp
      | true =>
        simp [runOn_freshTable, Scene.makeBlank, Scene.setLocals, Scene.makeTable,
          Scene.blankTable, Locals.setFallback]
    · rfl
  · simp [h, hnone, Locals.setFallback_of_destroyed h]

theorem runOn_current? :
    runOn current? sc =
      (.ok sc.own?, if sc.own?.isSome then sc.reached else sc.dropFallback) := by
  unfold current?
  rw [runOn_bind, runOn_carried?]
  rcases hc : sc.thread.carried? with _ | id
  · dsimp only
    rw [Scene.own?_of_fallback hc, Scene.reached_of_none hc, runOn_fallback?,
      Scene.fallback?_useCarried]
    rcases sc.fallback? with _ | id
    · rw [if_neg fun h => Bool.false_ne_true h.1]
      rfl
    · rfl
  · rw [Scene.own?_of_carried hc, Scene.reached_of_carried hc]
    exact congrArg (fun l => (Except.ok (some id), sc.setLocals l)) (Locals.useCarried_of_some hc)

theorem runOn_current :
    runOn current sc = match sc.own? with
      | some id => (.ok id, sc.reached)
      | none =>
        (.ok sc.thread.nextTable, sc.makeBlank.keep sc.thread.nextTable) := by
  have hkeep : sc.makeBlank.keep sc.thread.nextTable = sc.makeBlank.setLocals
      (sc.thread.locals.emptied.setFallback (some ⟨sc.process.epoch, sc.thread.nextTable⟩)) := rfl
  unfold current
  rw [runOn_bind, runOn_carried?]
  rcases hc : sc.thread.carried? with _ | id
  · dsimp only
    rw [Scene.own?_of_fallback hc, Scene.reached_of_none hc, runOn_bind, runOn_fallback?,
      Scene.fallback?_useCarried]
    rcases sc.fallback? with _ | id
    · dsimp only
      rw [hkeep, Locals.setFallback_emptied, Scene.locals_setLocals]
      by_cases hd : sc.thread.locals.useCarried.useFallback.fallback = .destroyed
      · rw [if_neg fun h => h.2 hd]
        dsimp only
        rw [Locals.setFallback_of_destroyed hd, Locals.setFallback_of_destroyed hd]
        exact runOn_freshTable _
      · rw [if_pos ⟨rfl, hd⟩]
        rfl
    · rfl
  · rw [Scene.own?_of_carried hc, Scene.reached_of_carried hc]
    exact congrArg (fun l => (Except.ok id, sc.setLocals l)) (Locals.useCarried_of_some hc)

theorem runOn_discard :
    runOn discard sc = (.ok (), match sc.thread.carried? with
      | some id =>
        { sc.setTable id sc.blankTable with
          process := (sc.process.count .tablesCreated).settled
          partings := .emptied id :: sc.partings }
      | none => sc.dropFallback) := by
  unfold discard
  rw [runOn_bind, runOn_carried?]
  rcases hc : sc.thread.carried? with _ | id
  · rfl
  · have hl : sc.setLocals sc.thread.locals.useCarried = sc :=
      congrArg sc.setLocals (Locals.useCarried_of_some hc)
    simp only [hl, runOn_bind, runOn_count, runOn_settings, runOn_setTable, runOn_part]
    rfl

theorem runOn_adopt :
    runOn adopt sc = match sc.thread.carried?, sc.own? with
      | some id, _ => (.ok id, sc)
      | none, some id => (.ok id, sc.carry id)
      | none, none => (.ok sc.thread.nextTable, sc.makeBlank.carry sc.thread.nextTable) := by
  unfold adopt
  rw [runOn_bind, runOn_carried?]
  rcases hc : sc.thread.carried? with _ | id
  · simp only [runOn_bind, runOn_process, runOn_modifyLocals, runOn_thread,
      Scene.setLocals_setLocals, Scene.locals_setLocals]
    have hf : (sc.setLocals sc.thread.locals.useCarried.useFallback).thread.fallbackOf?
        (sc.setLocals sc.thread.locals.useCarried.useFallback).process.epoch = sc.fallback? := by
      unfold Scene.fallback? Thread.fallbackOf? Thread.fallback?
      rw [Scene.locals_setLocals, Locals.fallback_useFallback, Locals.fallback_useCarried]
      rfl
    rw [hf, Scene.own?_of_fallback hc]
    rcases sc.fallback? with _ | id
    · dsimp only
      rw [runOn_bind, runOn_freshTable]
      rfl
    · rfl
  · exact congrArg (fun l => (Except.ok id, sc.setLocals l)) (Locals.useCarried_of_some hc)

theorem runOn_release :
    runOn release sc = (.ok sc.thread.carried?, sc.released) := by
  unfold release
  rw [runOn_bind, runOn_carried?]
  rfl

/-- The action ends with the result, in a scene like the second one. -/
def Ends {α : Type} (x : Storage α) (sc : Scene) (a : α) (sc' : Scene) : Prop :=
  ∃ sc'', runOn x sc = (.ok a, sc'') ∧ sc'.Like sc''

namespace Ends

variable {α β : Type} {x : Storage α} {sc sc₁ sc₂ : Scene} {a : α} {b : β}

theorem of_runOn (h : runOn x sc = (.ok a, sc₁)) : Ends x sc a sc₁ := ⟨sc₁, h, .refl sc₁⟩

theorem bind {f : α → Storage β} (hx : Ends x sc a sc₁)
    (hf : ∀ sc', sc₁.Like sc' → Ends (f a) sc' b sc₂) : Ends (x >>= f) sc b sc₂ := by
  obtain ⟨sc', hx, hlike⟩ := hx
  obtain ⟨sc'', hf, hlike'⟩ := hf sc' hlike
  refine ⟨sc'', ?_, hlike'⟩
  rw [runOn_bind, hx]
  exact hf

theorem like (h : Ends x sc a sc₁) (hlike : sc₂.Like sc₁) : Ends x sc a sc₂ := by
  obtain ⟨sc', hx, h⟩ := h
  exact ⟨sc', hx, hlike.trans h⟩

end Ends

/-! ## The death watch -/

theorem ends_trackThread : Ends trackThread sc () sc := by
  unfold Ends trackThread watch
  rw [runOn_bind, runOn_thread]
  simp only [runOn_bind, runOn_process, runOn_ite, runOn_modifyProcess, runOn_count, runOn_thread,
    runOn_pure]
  split
  · rcases hs : sc.thread.sentinel with _ | ⟨since, watchers⟩ | _
    · exact ⟨_, rfl, rfl⟩
    · by_cases hw : watchers.contains deathWatcher
      · simp only [hw]
        exact ⟨_, rfl, rfl⟩
      · simp only [hw]
        exact ⟨_, rfl, rfl⟩
    · exact ⟨_, rfl, rfl⟩
  · exact ⟨sc, rfl, .refl sc⟩

theorem ends_untrackThread : Ends untrackThread sc () sc := by
  unfold Ends untrackThread
  simp only [runOn_bind, runOn_process, runOn_ite, runOn_modifyProcess, runOn_thread, runOn_pure]
  split
  · exact ⟨_, rfl, .of_process rfl⟩
  · exact ⟨sc, rfl, .refl sc⟩

/-! ## Live sets -/

/-- A write, given what it makes of the table unless it is refused. -/
theorem runOn_write {id : TableId}
    {f : SlotTable → Except StorageError (Table.Outcome Cell) × SlotTable}
    {g : SlotTable → Except StorageError (Table.Stored Cell)} (hf : ∀ t, f t = Table.calling t g) :
    runOn (write id f) sc = match g (sc.thread.table id) with
      | .ok stored =>
        (.ok stored.toOutcome,
          if (sc.thread.table id).capacity < stored.table.capacity then
            { sc with process := sc.process.count .tableExpansions }.setTable id stored.table
          else sc.setTable id stored.table)
      | .error e => (.error (.refused e), sc) := by
  unfold write
  rw [runOn_bind]
  rcases hg : g (sc.thread.table id) with e | stored
  · have hcall : f (sc.thread.table id) = (.error e, sc.thread.table id) := by
      rw [hf, Table.calling, hg]
    rw [runOn_updateTable_of_error sc (by rw [hcall])]
  · have hcall : f (sc.thread.table id) = stored.done := by rw [hf, Table.calling, hg]
    rw [runOn_updateTable_of_ok sc (by rw [hcall]; rfl)]
    by_cases hgrown : (sc.thread.table id).capacity < stored.table.capacity
    · simp [hgrown]
      rfl
    · simp [hgrown]

theorem ends_write {id : TableId}
    {f : SlotTable → Except StorageError (Table.Outcome Cell) × SlotTable}
    {g : SlotTable → Except StorageError (Table.Stored Cell)} (hf : ∀ t, f t = Table.calling t g)
    {stored : Table.Stored Cell} (h : g (sc.thread.table id) = .ok stored) :
    Ends (write id f) sc stored.toOutcome (sc.setTable id stored.table) := by
  unfold Ends
  rw [runOn_write sc hf, h]
  dsimp only
  split
  · exact ⟨_, rfl, (Scene.Like.count sc (by decide)).setTable id _⟩
  · exact ⟨_, rfl, .refl _⟩

theorem runOn_store_error {id : TableId} {slot : Nat} {c : Cell} {e : StorageError}
    (h : (sc.thread.table id).insert slot c = .error e) :
    runOn (store id slot c) sc = (.error (.refused e), sc) := by
  unfold store
  rw [runOn_bind, runOn_write sc fun t => t.set_eq slot c, h]

theorem ends_store {id : TableId} {slot : Nat} {c : Cell} {stored : Table.Stored Cell}
    (h : (sc.thread.table id).insert slot c = .ok stored) :
    Ends (store id slot c) sc stored.toOutcome ((sc.setTable id stored.table).arrived id slot c) :=
  (ends_write sc (fun t => t.set_eq slot c) h).bind fun sc' h' =>
    ⟨_, by simp, h'.arrived id slot c⟩

theorem ends_ensureLiveSet {id : TableId} {stored : Table.Stored Cell}
    (hset : ((sc.thread.table id).get? reservedSlot).bind Cell.liveSet? = none)
    (h : (sc.thread.table id).insert reservedSlot (.liveSet ∅) = .ok stored) :
    Ends (ensureLiveSet id) sc () (sc.setTable id stored.table) := by
  unfold ensureLiveSet
  refine (Ends.of_runOn (runOn_liveSet? sc id)).bind fun sc₁ h₁ => ?_
  simp only [hset, Option.isNone_none, if_true]
  rw [← h₁.thread_table] at h
  refine (ends_store sc₁ h).bind fun sc₂ h₂ => ?_
  refine (Ends.of_runOn (runOn_settings sc₂)).bind fun sc₃ h₃ => ?_
  have hlike : (sc.setTable id stored.table).Like sc₃ :=
    (h₁.setTable id _).trans (h₂.trans ((Scene.Like.settled sc₂).trans h₃))
  split
  · exact (ends_trackThread sc₃).like hlike
  · exact ⟨sc₃, rfl, hlike⟩

theorem runOn_ensureLiveSet_error {id : TableId} {e : StorageError}
    (hset : ((sc.thread.table id).get? reservedSlot).bind Cell.liveSet? = none)
    (h : (sc.thread.table id).insert reservedSlot (.liveSet ∅) = .error e) :
    runOn (ensureLiveSet id) sc = (.error (.refused e), sc) := by
  simp [ensureLiveSet, hset, runOn_store_error sc h]

theorem ends_track (id : TableId) (v : Variable) :
    Ends (v.track id) sc () (sc.setTable id
      ((sc.thread.table id).withLive ((sc.thread.table id).live.insert v.slot v))) := by
  unfold Variable.track
  rcases hset : ((sc.thread.table id).get? reservedSlot).bind Cell.liveSet? with _ | set
  · have hlive : (sc.thread.table id).live = ∅ := by simp [Table.live, hset]
    have hinsert : (sc.thread.table id).insert reservedSlot (.liveSet ∅) =
        .ok ((sc.thread.table id).put reservedSlot (.liveSet ∅)) := by
      rw [Table.insert, if_pos (Table.reservedSlot_lt_capacity _)]
    refine (ends_ensureLiveSet sc hset hinsert).bind fun sc₁ h₁ => ?_
    change (sc.setTable id ((sc.thread.table id).withLive ∅)).Like sc₁ at h₁
    have hset₁ : ((sc₁.thread.table id).get? reservedSlot).bind Cell.liveSet? = some ∅ := by
      rw [h₁.thread_table, Scene.table_setTable_self, Table.get?_withLive, if_pos rfl]
      rfl
    refine ⟨sc₁.setTable id ((sc₁.thread.table id).withLive ((∅ : LiveSet).insert v.slot v)), ?_, ?_⟩
    · simp [hset₁]
      rfl
    · have := h₁.setTable id ((sc₁.thread.table id).withLive ((∅ : LiveSet).insert v.slot v))
      rw [Scene.setTable_setTable] at this
      rw [hlive]
      rw [h₁.thread_table, Scene.table_setTable_self, Table.withLive_withLive] at this ⊢
      exact this
  · have hlive : (sc.thread.table id).live = set := by simp [Table.live, hset]
    apply Ends.of_runOn
    simp [ensureLiveSet, hset, hlive]
    rfl

/-- Untracking changes only the table, and what is written to the table next replaces that. -/
theorem exists_runOn_untrack (v : Variable) (id : TableId) :
    ∃ sc', runOn (v.untrack id) sc = (.ok (), sc') ∧
      sc'.thread.table id = (sc.thread.table id).untracked v ∧
      ∀ u, sc'.setTable id u = sc.setTable id u := by
  unfold Variable.untrack Table.untracked
  rcases hset : ((sc.thread.table id).get? reservedSlot).bind Cell.liveSet? with _ | set
  · exact ⟨sc, by simp [hset], rfl, fun _ => rfl⟩
  · refine ⟨sc.setTable id ((sc.thread.table id).withLive (set.erase v.slot)), ?_, ?_, ?_⟩
    · simp [hset]
      rfl
    · exact sc.table_setTable_self id _
    · exact sc.setTable_setTable id _

theorem runOn_untrack_setTable (v : Variable) (id : TableId) (t : SlotTable) :
    runOn (v.untrack id) (sc.setTable id t) = (.ok (), sc.setTable id (t.untracked v)) := by
  unfold Variable.untrack Table.untracked
  rcases hset : (t.get? reservedSlot).bind Cell.liveSet? with _ | set
  · simp [hset]
  · simp [hset]
    rfl

/-! ## One variable in one table -/

theorem runOn_putIn_error {v : Variable} {id : TableId} {value : Value} {fate : Fate}
    {e : StorageError} (h : (sc.thread.table id).insert v.slot (.value value) = .error e) :
    runOn (v.putIn id value fate) sc = (.error (.refused e), sc) := by
  rw [Variable.putIn, runOn_bind, runOn_store_error sc h]

/-- Tracking the variable of a slot that was just written. -/
theorem ends_track_stored {v : Variable} {id : TableId} {value : Value} {fate : Fate}
    {stored : Table.Stored Cell} {sc₁ : Scene} (hnew : stored.newlySet = true)
    (hlike : (((sc.setTable id stored.table).arrived id v.slot (.value value)).parted id v.slot fate
      stored.previous).Like sc₁) :
    Ends (v.track id) sc₁ ()
      (((sc.setTable id (stored.track v)).arrived id v.slot (.value value)).parted id v.slot fate
        stored.previous) := by
  have htable : sc₁.thread.table id = stored.table := by
    rw [hlike.thread_table]
    exact sc.table_setTable_self id _
  refine (ends_track sc₁ id v).like ?_
  rw [htable, Table.Stored.track, if_pos hnew, ← sc.setTable_setTable id stored.table]
  exact hlike.setTable id _

theorem ends_putIn {v : Variable} {id : TableId} {value : Value} (fate : Fate)
    {stored : Table.Stored Cell}
    (h : (sc.thread.table id).insert v.slot (.value value) = .ok stored) :
    Ends (v.putIn id value fate) sc ((sc.thread.table id).get? v.slot)
      (((sc.setTable id (stored.track v)).arrived id v.slot (.value value)).parted id v.slot fate
        ((sc.thread.table id).get? v.slot)) := by
  unfold Variable.putIn
  rw [← (Table.insert_eq_ok h).2.2.1]
  refine (ends_store sc h).bind fun sc₁ h₁ => ?_
  refine (Ends.of_runOn (runOn_partFrom sc₁ id v.slot stored.previous fate)).bind fun sc₂ h₂ => ?_
  have hlike := (h₁.parted id v.slot fate stored.previous).trans h₂
  split
  · next hnew =>
    exact (ends_track_stored sc hnew hlike).bind fun sc₃ h₃ => ⟨sc₃, rfl, h₃⟩
  · next hnew =>
    rw [Table.Stored.track, if_neg hnew]
    exact ⟨sc₂, rfl, hlike⟩

theorem runOn_takeIn {v : Variable} (hv : v.slot ≠ reservedSlot) (id : TableId) :
    runOn (v.takeIn id) sc =
      (.ok (((sc.thread.table id).get? v.slot).bind (·.value? v.kind)),
        (sc.setTable id ((sc.thread.table id).without v)).parted id v.slot .returned
          ((sc.thread.table id).get? v.slot)) := by
  obtain ⟨sc₁, h₁, htable, hset⟩ := exists_runOn_untrack sc v id
  unfold Variable.takeIn
  simp only [runOn_bind, h₁, runOn_unset, runOn_partFrom, runOn_pure, htable, hset,
    Table.get?_untracked_of_ne _ v hv]
  rfl

theorem ends_storeIn_some {v : Variable} {id : TableId} {value : Value} (enter : Enter)
    {stored : Table.Stored Cell}
    (h : (sc.thread.table id).insert v.slot (.value value) = .ok stored) :
    Ends (v.storeIn enter id (some value)) sc ()
      (((sc.setTable id (stored.track v)).arrived id v.slot (.value value)).parted id v.slot
        .overwritten ((sc.thread.table id).get? v.slot)) := by
  unfold Variable.storeIn
  rw [← (Table.insert_eq_ok h).2.2.1]
  refine (ends_store sc h).bind fun sc₁ h₁ => ?_
  simp only [Option.isSome_some, if_true]
  refine (Ends.of_runOn (runOn_partFrom sc₁ id v.slot _ _)).bind fun sc₂ h₂ => ?_
  have hlike := (h₁.parted id v.slot .overwritten stored.previous).trans h₂
  split
  · next hnew => exact ends_track_stored sc hnew hlike
  · next hnew =>
    have hset : runOn (v.isSetIn id) sc₂ = (.ok true, sc₂) := by
      have htable : sc₂.thread.table id = stored.table := by
        rw [hlike.thread_table]
        exact sc.table_setTable_self id _
      simp [Variable.isSetIn, htable, Table.contains, (Table.insert_eq_ok h).1]
    rw [Table.Stored.track, if_neg hnew]
    exact ⟨sc₂, by simp [hset], hlike⟩

theorem runOn_storeIn_error {v : Variable} {id : TableId} {value : Value} (enter : Enter)
    {e : StorageError} (h : (sc.thread.table id).insert v.slot (.value value) = .error e) :
    runOn (v.storeIn enter id (some value)) sc = (.error (.refused e), sc) := by
  unfold Variable.storeIn storeEntry
  rw [runOn_bind, runOn_bind, Option.map_some, runOn_write sc fun t => t.setEntry_eq _ _]
  simp only [Table.store, h]

end Storage

namespace Variable

/-- What the removal hook does with what a slot held, if there is a hook and that is a value for
it. -/
def runHook (enter : Enter) (v : Variable) (cell : Option Cell) : Storage Unit :=
  match v.onRemoval, cell.bind (·.value? v.kind) with
  | some hook, some value => hook.run enter value
  | _, _ => pure ()

end Variable

namespace Storage

variable (sc : Scene) (enter : Enter)

theorem runOn_callHook (v : Variable) (id : TableId) (cell : Option Cell) :
    runOn (v.callHook enter id cell) sc =
      runOn (v.runHook enter cell) (sc.handedOver v id cell) := by
  unfold Variable.callHook Variable.runHook Scene.handedOver
  rcases v.onRemoval with _ | hook
  · exact runOn_partFrom _ _ _ _ _
  · rcases cell.bind (·.value? v.kind) with _ | value
    · exact runOn_partFrom _ _ _ _ _
    · rfl

theorem runOn_clear (v : Variable) (id : TableId) :
    runOn (v.clear enter id) sc =
      runOn (v.runHook enter ((sc.thread.table id).get? v.slot))
        ((sc.setTable id ((sc.thread.table id).erase v.slot).table).handedOver v id
          ((sc.thread.table id).get? v.slot)) := by
  unfold Variable.clear
  rw [runOn_bind, runOn_unset]
  exact runOn_callHook _ enter v id _

/-- A live set in the slot of a variable is no value of it: no hook is called with it. -/
theorem runOn_runHook_liveSet (v : Variable) (id : TableId) (set : LiveSet) :
    runOn (v.runHook enter (some (.liveSet set))) (sc.handedOver v id (some (.liveSet set))) =
      (.ok (), sc) := by
  unfold Variable.runHook Scene.handedOver
  cases v.onRemoval <;> rfl

theorem runOn_removeIn (v : Variable) (id : TableId) :
    runOn (v.removeIn enter id) sc =
      runOn (v.runHook enter ((sc.thread.table id).get? v.slot))
        ((sc.setTable id ((sc.thread.table id).without v)).handedOver v id
          ((sc.thread.table id).get? v.slot)) := by
  obtain ⟨sc₁, h₁, htable, hset⟩ := exists_runOn_untrack sc v id
  unfold Variable.removeIn
  rw [runOn_bind, h₁]
  simp only [runOn_clear, htable, hset]
  rw [← Table.without]
  generalize sc.setTable id ((sc.thread.table id).without v) = start
  by_cases hv : v.slot = reservedSlot
  -- Untracking has changed what is removed from the reserved slot, but only to another live set.
  · unfold Table.untracked
    split
    · next set hlive =>
      obtain ⟨cell, hcell, hcellSet⟩ := Option.bind_eq_some_iff.1 hlive
      cases cell with
      | value x => cases hcellSet
      | liveSet old =>
        rw [hv, Table.get?_withLive, if_pos rfl, hcell, runOn_runHook_liveSet, runOn_runHook_liveSet]
    · rfl
  · rw [Table.get?_untracked_of_ne _ v hv]

theorem runOn_storeEntry_none (id : TableId) (slot : Nat) :
    runOn (storeEntry id slot none) sc =
      if (sc.thread.table id).policy.rejectsSentinel then
        (.error (.refused (.sentinelStored slot)), sc)
      else
        (.ok ((sc.thread.table id).erase slot).toOutcome,
          sc.setTable id ((sc.thread.table id).erase slot).table) := by
  unfold storeEntry
  rw [runOn_bind, runOn_write sc fun t => t.setEntry_eq _ _]
  by_cases hp : (sc.thread.table id).policy.rejectsSentinel
  · simp only [Table.store, hp, if_true]
  · simp [Table.store, hp]

theorem runOn_storeIn_none (v : Variable) (id : TableId) :
    runOn (v.storeIn enter id none) sc =
      if (sc.thread.table id).policy.rejectsSentinel then
        (.error (.refused (.sentinelStored v.slot)), sc)
      else
        runOn (v.runHook enter ((sc.thread.table id).get? v.slot))
          ((sc.setTable id ((sc.thread.table id).without v)).handedOver v id
            ((sc.thread.table id).get? v.slot)) := by
  unfold Variable.storeIn
  rw [runOn_bind, Option.map_none, runOn_storeEntry_none]
  by_cases hp : (sc.thread.table id).policy.rejectsSentinel
  · simp only [hp, if_true]
  · have hunset : ((sc.thread.table id).erase v.slot).table.contains v.slot = false := by
      simp [Table.contains, Table.get?_erase]
    have hnew : ((sc.thread.table id).erase v.slot).newlySet = false := rfl
    simp [hp, hunset, hnew, Variable.isSetIn, runOn_untrack_setTable, Table.untracked_erase,
      runOn_callHook]

end Storage

/-! ## Clearing -/

/-- The variables that a table lists as set, in the order of their slots. -/
def Table.listed (t : SlotTable) : List Variable := t.live.toList.map (·.2)

/-- The scene in which a clearing begins: the thread is not watched any more. -/
def Scene.unwatched (sc : Scene) : Scene :=
  if sc.process.inEffect.deathWatch then
    (Storage.runOn Storage.untrackThread { sc with process := sc.process.settled }).2
  else { sc with process := sc.process.settled }

theorem Scene.like_unwatched (sc : Scene) : sc.Like sc.unwatched := by
  unfold unwatched
  split
  · obtain ⟨sc', hrun, hlike⟩ := Storage.ends_untrackThread { sc with process := sc.process.settled }
    rw [hrun]
    exact (Like.settled sc).trans hlike
  · exact .settled sc

theorem Scene.Like.own? {sc sc' : Scene} (h : sc.Like sc') : sc'.own? = sc.own? :=
  (congrArg Scene.own? h).symm

/-- The scene in which a table loses its live set, to be cleared. -/
def Scene.detached (sc : Scene) (id : TableId) : Scene :=
  sc.unwatched.reached.setTable id ((sc.thread.table id).erase reservedSlot).table

theorem Scene.own?_detached (sc : Scene) (id : TableId) : (sc.detached id).own? = sc.own? :=
  sc.unwatched.own?_reached.trans sc.like_unwatched.own?

/-- The scene with a mark that a panic came out of a clearing. -/
def Scene.interrupt (sc : Scene) : Scene :=
  { sc with thread := { sc.thread with interrupted := true } }

namespace Storage

/-- A clearing takes the live set out of the thread's table and then clears the variables that it
listed. -/
theorem runOn_clearTable (enter : Enter) (sc : Scene) :
    runOn (clearTable enter) sc =
      match sc.own? with
      | none => (.ok false, sc.unwatched.dropFallback)
      | some id =>
        match runOn (clearEach enter id (sc.thread.table id).listed) (sc.detached id) with
        | (.ok _, sc) => (.ok true, { sc with process := sc.process.count .removeAllPasses })
        | (.error stop, sc) => (.error stop, sc.interrupt) := by
  have htable : sc.unwatched.thread.table = sc.thread.table :=
    funext sc.like_unwatched.thread_table
  have hrun : runOn (clearTable enter) sc = runOn (clearCurrent enter) sc.unwatched := by
    unfold clearTable Scene.unwatched
    rw [runOn_bind, runOn_settings]
    cases hd : sc.process.inEffect.deathWatch with
    | true =>
      obtain ⟨sc', hrun, -⟩ := ends_untrackThread { sc with process := sc.process.settled }
      simp only [hd, if_true]
      rw [runOn_bind, hrun]
    | false => simp only [hd, Bool.false_eq_true, if_false]
  rw [hrun, clearCurrent, runOn_bind, runOn_current?, sc.like_unwatched.own?]
  rcases sc.own? with _ | id
  · rfl
  · rcases hset : ((sc.thread.table id).get? reservedSlot).bind Cell.liveSet? with _ | set
    · have hlisted : (sc.thread.table id).listed = [] := by simp [Table.listed, Table.live, hset]
      simp [hlisted, hset, htable, clearEach, Scene.detached]
    · have hlisted : (sc.thread.table id).listed = set.toList.map (·.2) := by
        simp [Table.listed, Table.live, hset]
      simp only [Option.isSome_some, if_true, runOn_bind, runOn_unset, Scene.table_reached, htable,
        hset, hlisted, runOn_tryCatch, runOn_modifyThread, runOn_throw, runOn_count, runOn_pure]
      rw [← Scene.detached]
      generalize runOn (clearEach enter id _) _ = ended
      rcases ended with ⟨stop | _, sc'⟩ <;> rfl

/-! ## Tables that are filled -/

/-- Values that are put into a new table at once might as well have been there from the start. -/
theorem exists_preload (sc : Scene) (raw : List (Nat × Value)) {t : SlotTable}
    {marks : List TableId} {news : List Arrival} (hfills : sc.Fills t marks news) {sc' : Scene}
    (h : (sc.makeFilled t marks news).Like sc') :
    ∃ t' marks' news', sc.Fills t' marks' news' ∧ (sc.makeFilled t' marks' news').Like
      (runOn (preload sc.thread.nextTable raw) sc').2 := by
  induction raw generalizing t marks news sc' with
  | nil => exact ⟨t, marks, news, hfills, h⟩
  | cons entry raw ih =>
    obtain ⟨n, value⟩ := entry
    unfold preload
    rw [runOn_bind, runOn_modifyThread]
    generalize hmark : { sc' with thread := { sc'.thread with
      filled := sc.thread.nextTable :: sc'.thread.filled } } = sc₁
    have h₁ : (sc.makeFilled t (sc.thread.nextTable :: marks) news).Like sc₁ := by
      subst hmark
      exact congrArg (fun sc₂ : Scene => { sc₂ with thread := { sc₂.thread with
        filled := sc.thread.nextTable :: sc₂.thread.filled } }) h
    dsimp only
    rw [runOn_bind]
    rcases SlotSupply.slot n with e | slot
    · exact ⟨t, _, news, hfills.mark, h₁⟩
    · have htable : sc₁.thread.table sc.thread.nextTable = t := by
        rw [h₁.thread_table]
        exact (sc.table_makeTable t _).trans (if_pos rfl)
      rcases hi : (sc₁.thread.table sc.thread.nextTable).insert slot (.value value) with e | stored
      · simp only [runOn_ofExcept, runOn_bind, runOn_store_error sc₁ hi]
        exact ⟨t, _, news, hfills.mark, h₁⟩
      · obtain ⟨sc₂, hrun, hlike⟩ := ends_store sc₁ hi
        rw [htable] at hi
        simp only [runOn_ofExcept, runOn_bind, hrun]
        refine ih (hfills.mark.insert hi) (Scene.Like.trans ?_ hlike)
        have hset := h₁.setTable sc.thread.nextTable stored.table
        rw [sc.makeFilled_setTable] at hset
        exact hset.arrived sc.thread.nextTable slot (.value value)

theorem exists_filled {make : Storage TableId} (sc : Scene) {t : SlotTable}
    (hmake : Ends make sc sc.thread.nextTable (sc.makeTable t)) (hg : t.Grown)
    (hb : ∀ slot, t.get? slot = none) (raw : List (Nat × Value)) (name : String) :
    ∃ t' marks news names, sc.Fills t' marks news ∧
      ((sc.makeFilled t' marks news).renamed names).Like
        (runOn (do
          let id ← make
          preload id raw
          bindTable name id
          return Reply.done) sc).2 := by
  obtain ⟨sc', hrun, hlike⟩ := hmake
  obtain ⟨t', marks, news, hfills, hfilled⟩ := exists_preload sc raw (.of_blank hg hb) hlike
  rw [runOn_bind, hrun]
  dsimp only
  rw [runOn_bind]
  rcases hp : runOn (preload sc.thread.nextTable raw) sc' with ⟨stop | _, sc''⟩
  · rw [hp] at hfilled
    exact ⟨t', marks, news, sc.thread.names, hfills, hfilled⟩
  · rw [hp] at hfilled
    exact ⟨t', marks, news, (name, sc.thread.nextTable) :: sc.thread.names.filter (·.1 != name),
      hfills, hfilled.bind name sc.thread.nextTable⟩

/-- A table is made and filled, and then named. -/
theorem exists_new (sc : Scene) (name : String) (policy : Option SentinelPolicy)
    (raw : List (Nat × Value)) :
    ∃ t marks news names, sc.Fills t marks news ∧
      ((sc.makeFilled t marks news).renamed names).Like
        (runOn (TableCommand.run (.new name policy raw)) sc).2 := by
  cases policy with
  | none =>
    exact exists_filled sc ⟨_, runOn_freshTable sc, sc.like_makeBlank.symm⟩ (Table.grown_mk _)
      (Table.get?_mk _) raw name
  | some policy =>
    exact exists_filled sc ⟨_, runOn_newTable sc policy, .count _ (by decide)⟩ (Table.grown_mk _)
      (Table.get?_mk _) raw name

end Storage

end ThreadSlots
