import ThreadSlots.Proofs.LocalCommands

/-!
# A carried table and a fallback table behave alike

A carrying thread always has its table, which is emptied in place when the thread is cleared. Another
thread gets a fallback table on first use and drops it when it is cleared. `Scene.Alike` relates the
two: the fallback table has what the carried one has, and where there is none the carried one is like
new. Operations on the thread's own table keep that and end alike (`alike_perform`).

While an operation runs, nested code that cannot clear the thread finds both tables in place
(`Scene.Paired`), which is why an operation may go on working with the table that it has resolved.
Only the code that is handed a value by the thread itself may clear it.
-/

namespace ThreadSlots

open Storage

/-- An operation on the thread's own table, short of clearing the thread. -/
def Command.IsAccess : Command → Prop
  | .access _ .ambient _ | .onThread .liveCount => True
  | _ => False

/-- An operation on the thread's own table. -/
def Command.IsAmbient (c : Command) : Prop := c.IsAccess ∨ c = .onThread .clear

/-! ## Scenes -/

/-- The first scene's thread carries the table, the second one's carries none, and their own tables
hold the same. -/
structure Scene.Alike (i : TableId) (sc sc' : Scene) : Prop where
  process : sc'.process.stripped = sc.process.stripped
  events : sc'.events = sc.events
  carried : sc.thread.carried? = some i
  generic : sc'.thread.carried? = none
  intact : sc'.thread.locals.Intact
  table : sc.thread.table i = (sc'.own?.map sc'.thread.table).getD sc'.blankTable
  tracks : (sc.thread.table i).Tracks (·.Only Command.IsAccess)
  callbacks : sc.process.Only Command.IsAccess

/-- The second thread has a table of its own, too. -/
structure Scene.Paired (i j : TableId) (sc sc' : Scene) : Prop extends Scene.Alike i sc sc' where
  own : sc'.own? = some j

theorem Scene.Like.blankTable {sc sc' : Scene} (h : sc.Like sc') :
    sc'.blankTable = sc.blankTable := by
  have hsettings : sc'.process.inEffect = sc.process.inEffect := congrArg (·.inEffect) h.process
  unfold Scene.blankTable
  rw [hsettings]

theorem Scene.erase_blankTable (sc : Scene) (slot : Nat) :
    (sc.blankTable.erase slot).table = sc.blankTable :=
  Table.replace_mk _ slot

namespace Scene

namespace Alike

variable {i j : TableId} {sc sc' s s' : Scene}

theorem inEffect (h : Alike i sc sc') : sc'.process.inEffect = sc.process.inEffect :=
  congrArg (·.inEffect) h.process

theorem own_left (h : Alike i sc sc') : sc.own? = some i := own?_of_carried h.carried

theorem blankTable (h : Alike i sc sc') : sc'.blankTable = sc.blankTable := by
  unfold Scene.blankTable
  rw [h.inEffect]

theorem table_of_none (h : Alike i sc sc') (ho : sc'.own? = none) :
    sc.thread.table i = sc.blankTable := by
  rw [h.table, ho, h.blankTable]
  rfl

theorem paired (h : Alike i sc sc') (ho : sc'.own? = some j) : Paired i j sc sc' := ⟨h, ho⟩

theorem like (h : Alike i sc sc') (hl : sc.Like s) (hr : sc'.Like s') : Alike i s s' := by
  have hcarried : ∀ {a b : Scene}, a.Like b → b.thread.carried? = a.thread.carried? := fun h =>
    congrArg (·.carried?) h.thread
  have hlocals : s'.thread.locals = sc'.thread.locals := congrArg (·.locals) hr.thread
  refine ⟨?_, ?_, (hcarried hl).trans h.carried, (hcarried hr).trans h.generic, ?_, ?_, ?_, ?_⟩
  · rw [hr.process, h.process, hl.process]
  · rw [hr.events, h.events, hl.events]
  · rw [hlocals]
    exact h.intact
  · rw [hl.thread_table, hr.own?, hr.blankTable, funext hr.thread_table]
    exact h.table
  · rw [hl.thread_table]
    exact h.tracks
  · have hslots : s.process.bySlot = sc.process.bySlot := congrArg (·.bySlot) hl.process
    unfold Process.Only
    rw [hslots]
    exact h.callbacks

/-- The second thread has found its table. -/
theorem reached (h : Alike i sc sc') : Alike i sc sc'.reached := by
  refine ⟨h.process, h.events, h.carried, ?_, ?_, ?_, h.tracks, h.callbacks⟩
  · rw [carried?_reached]
    exact h.generic
  · exact h.intact.of_seen sc'.thread.locals.seen_reached
  · rw [own?_reached]
    exact h.table

/-- The second thread has no table, or a stale one, which it drops. -/
theorem dropFallback (h : Alike i sc sc') (ho : sc'.own? = none) : Alike i sc sc'.dropFallback := by
  refine ⟨h.process, h.events, h.carried, ?_, h.intact.emptied, ?_, h.tracks, h.callbacks⟩
  · rw [Scene.carried?_dropFallback]
    exact h.generic
  · rw [Scene.own?_dropFallback h.generic, h.table_of_none ho, ← h.blankTable]
    rfl

/-- Once the second thread has resolved its table both are in place. -/
theorem exists_current (h : Alike i sc sc') :
    ∃ j s', runOn current sc' = (.ok j, s') ∧ Paired i j sc s' := by
  rw [runOn_current]
  cases ho : sc'.own? with
  | some j => exact ⟨j, sc'.reached, rfl, h.reached.paired ((own?_reached sc').trans ho)⟩
  | none =>
    let blank := sc'.makeTable sc'.blankTable
    let made : Scene := blank.keep sc'.thread.nextTable
    have hgeneric : blank.thread.carried? = none := h.generic
    have hown : made.own? = some sc'.thread.nextTable := own?_keep hgeneric h.intact _
    have hmade : Alike i sc made := by
      refine ⟨h.process, h.events, h.carried, ?_, h.intact.emptied.setFallback _, ?_, h.tracks,
        h.callbacks⟩
      · rw [carried?_keep]
        exact h.generic
      · rw [hown, h.table, ho]
        have htable := sc'.table_makeTable sc'.blankTable sc'.thread.nextTable
        rw [if_pos rfl] at htable
        exact htable.symm
    have hlike : made.Like (sc'.makeBlank.keep sc'.thread.nextTable) :=
      congrArg (fun sc : Scene => sc.keep sc'.thread.nextTable) sc'.like_makeBlank.symm
    exact ⟨_, _, rfl, (hmade.like (.refl sc) hlike).paired (hlike.own?.trans hown)⟩

end Alike

namespace Paired

variable {i j : TableId} {sc sc' : Scene}

theorem thread_table (h : Paired i j sc sc') : sc'.thread.table j = sc.thread.table i := by
  rw [h.table, h.own]
  rfl

theorem reached (h : Paired i j sc sc') : Paired i j sc sc'.reached :=
  h.toAlike.reached.paired ((own?_reached sc').trans h.own)

theorem setTable (h : Paired i j sc sc') {t : SlotTable}
    (ht : t.Tracks (·.Only Command.IsAccess)) :
    Paired i j (sc.setTable i t) (sc'.setTable j t) := by
  have hown : (sc'.setTable j t).own? = some j := h.own
  refine ⟨⟨h.process, h.events, h.carried, h.generic, h.intact, ?_, ?_, h.callbacks⟩, hown⟩
  · rw [hown, table_setTable_self]
    exact (table_setTable_self _ _ _).symm
  · rw [table_setTable_self]
    exact ht

theorem detached (h : Paired i j sc sc') : Paired i j (sc.detached i) (sc'.detached j) := by
  have hunwatched : Paired i j sc.unwatched sc'.unwatched :=
    (h.like sc.like_unwatched sc'.like_unwatched).paired (sc'.like_unwatched.own?.trans h.own)
  unfold Scene.detached
  rw [h.thread_table, reached_of_carried hunwatched.carried]
  exact hunwatched.reached.setTable ((Table.Follows.erase reservedSlot).tracks h.tracks)

end Paired

end Scene

/-! ## While both tables are in place -/

section

variable {i j : TableId}

theorem coupled_lookup {R : Scene → Scene → Prop} (handle : Nat)
    (hR : ∀ {sc sc'}, R sc sc' → Scene.Alike i sc sc') :
    Coupled R (fun a b => b = a ∧ ∀ v, a = some v → v.Only Command.IsAccess) (lookup handle)
      (lookup handle) := by
  refine .read (fun _ => rfl) (fun _ => rfl) fun sc sc' hr => ?_
  have h := hR hr
  have hslots : sc'.process.bySlot = sc.process.bySlot := congrArg (·.bySlot) h.process
  have hhandles : sc'.process.byHandle = sc.process.byHandle := congrArg (·.byHandle) h.process
  rw [hslots, hhandles]
  refine ⟨rfl, fun v hv => ?_⟩
  obtain ⟨slot, -, hv⟩ := Option.bind_eq_some_iff.1 hv
  exact h.callbacks slot v hv

/-- What the operations are made of works alike on the two tables. -/
theorem paired_bond (i j : TableId) :
    Bond (·.Only Command.IsAccess) (Scene.Paired i j) (fun a b => a = i ∧ b = j) where
  table := by
    rintro sc sc' _ _ h ⟨rfl, rfl⟩
    exact ⟨h.thread_table, h.tracks⟩
  setTable := by
    rintro sc sc' _ _ h ⟨rfl, rfl⟩ t ht
    exact h.setTable (ht.tracks h.tracks)
  emit := by
    intro sc sc' h e
    exact ⟨⟨h.process, congrArg (e :: ·) h.events, h.carried, h.generic, h.intact, h.table, h.tracks,
      h.callbacks⟩, h.own⟩
  part := by
    intro sc sc' _ _ h _ slot value fate
    exact ⟨⟨h.process, h.events, h.carried, h.generic, h.intact, h.table, h.tracks, h.callbacks⟩,
      h.own⟩
  arrive := by
    intro sc sc' _ _ h _ slot value
    exact ⟨⟨h.process, h.events, h.carried, h.generic, h.intact, h.table, h.tracks, h.callbacks⟩,
      h.own⟩
  count := by
    intro sc sc' h c hc
    exact (h.like (.count sc hc) (.count sc' hc)).paired h.own
  ensureLiveSet := by
    rintro _ _ ⟨rfl, rfl⟩
    exact coupled_ensureLiveSet (·.thread_table) (fun h _ => h.setTable)
      fun h hl hr => (h.like hl hr).paired (hr.own?.trans h.own)
  draw := by
    intro v _ sc sc' h
    have hdraws : sc'.process.draws = sc.process.draws := congrArg (·.draws) h.process
    unfold Variable.draw
    simp only [runOn_bind, runOn_process, runOn_modifyProcess, runOn_pure, hdraws]
    refine ⟨.ok rfl, ⟨?_, h.events, h.carried, h.generic, h.intact, h.table, h.tracks, h.callbacks⟩,
      h.own⟩
    exact congrArg (fun p : Process =>
      { p with draws := sc.process.draws.insert v.slot (sc.process.draws.getD v.slot 0 + 1) }) h.process
  lookup handle := coupled_lookup handle (·.toAlike)
  current := by
    intro sc sc' h
    rw [runOn_current, runOn_current, h.own_left, h.own]
    dsimp only
    rw [Scene.reached_of_carried h.carried]
    exact ⟨.ok ⟨rfl, rfl⟩, h.reached⟩
  current? := by
    intro sc sc' h
    rw [runOn_current?, runOn_current?, h.own_left, h.own]
    simp only [Option.isSome_some, if_true]
    rw [Scene.reached_of_carried h.carried]
    exact ⟨.ok (.some ⟨rfl, rfl⟩), h.reached⟩

/-- Nested code that cannot clear the thread. -/
theorem paired_enter (i j : TableId) (depth : Nat) (s : Script) (hs : s.Only Command.IsAccess) :
    Coupled (Scene.Paired i j) Eq (enter depth s) (enter depth s) := by
  have hbond := paired_bond i j
  refine coupled_enter hbond.emit_event (fun enter henter c hc => ?_) depth hs
  cases c with
  | access handle place op =>
    cases place with
    | table name => exact hc.holds.elim
    | ambient =>
      refine hbond.accessHandle henter (fun _ hv => hv) handle hbond.resolve_ambient hbond.current? ?_
      intro nested hop value
      subst hop
      exact hc.nested (.body handle .ambient nested value)
  | onThread op =>
    cases op with
    | liveCount => exact .bind hbond.liveCount fun _ _ hn => .pure (by rw [hn])
    | _ => exact hc.holds.elim
  | _ => exact hc.holds.elim

end

/-! ## Resolving the table -/

namespace Scene.Alike

variable {i : TableId} {sc sc' : Scene}

theorem setTable_blank (h : Alike i sc sc') (hb : sc.thread.table i = sc.blankTable) :
    Alike i (sc.setTable i sc.blankTable) sc' := by
  have htable : (sc.setTable i sc.blankTable).thread.table i = sc.thread.table i := by
    rw [table_setTable_self, hb]
  refine ⟨h.process, h.events, h.carried, h.generic, h.intact, htable.trans h.table, ?_, h.callbacks⟩
  rw [htable]
  exact h.tracks

end Scene.Alike

section

variable {i : TableId} {γ : Type} {V : γ → γ → Prop} {sc : Scene}

theorem runOn_untrack_blank (hb : sc.thread.table i = sc.blankTable) (v : Variable) :
    runOn (v.untrack i) sc = (.ok (), sc) := by
  unfold Variable.untrack
  simp [hb, Scene.blankTable]

theorem runOn_unset_blank (hb : sc.thread.table i = sc.blankTable) (slot : Nat) :
    runOn (unset i slot) sc = (.ok none, sc.setTable i sc.blankTable) := by
  rw [runOn_unset, hb, sc.erase_blankTable, Scene.blankTable, Table.get?_mk]

/-- What is done in the thread's table, which is made on first use. -/
theorem alike_resolve {g : Option TableId → Storage γ}
    (hg : ∀ j sc sc', Scene.Paired i j sc sc' →
      Outcomes V (runOn (g (some i)) sc).1 (runOn (g (some j)) sc').1 ∧
        Scene.Alike i (runOn (g (some i)) sc).2 (runOn (g (some j)) sc').2) :
    Coupled (Scene.Alike i) V (Place.ambient.resolve >>= g) (Place.ambient.resolve >>= g) := by
  intro sc sc' h
  obtain ⟨j, s', hrun, hp⟩ := h.exists_current
  have hleft : runOn current sc = (.ok i, sc) := by
    simpa only [h.own_left, Scene.reached_of_carried h.carried] using runOn_current sc
  have hdone := hg j sc s' hp
  simpa only [Place.resolve, runOn_bind, runOn_map, hleft, hrun] using hdone

/-- What is done in the thread's table if there is one. Where the second thread has none, the first
one's table is blank. -/
theorem alike_current? {g : Option TableId → Storage γ}
    (hg : ∀ j, Coupled (Scene.Paired i j) V (g (some i)) (g (some j)))
    (hnone : ∀ sc sc', Scene.Alike i sc sc' → sc.thread.table i = sc.blankTable →
      Outcomes V (runOn (g (some i)) sc).1 (runOn (g none) sc').1 ∧
        Scene.Alike i (runOn (g (some i)) sc).2 (runOn (g none) sc').2) :
    Coupled (Scene.Alike i) V (current? >>= g) (current? >>= g) := by
  intro sc sc' h
  have hleft : runOn current? sc = (.ok (some i), sc) := by
    simpa [h.own_left, Scene.reached_of_carried h.carried] using runOn_current? sc
  rw [runOn_bind, runOn_bind, hleft, runOn_current?]
  cases ho : sc'.own? with
  | some j => exact (hg j sc _ (h.paired ho).reached).imp id (·.toAlike)
  | none => exact hnone sc _ (h.dropFallback ho) (h.table_of_none ho)

/-! ## Operations on variables -/

variable {enter : Enter} {v : Variable}
  (henter : ∀ j s, s.Only Command.IsAccess →
    Coupled (Scene.Paired i j) Eq (enter s) (enter s))
  (hambient : ∀ s, s.Only Command.IsAmbient →
    Coupled (Scene.Alike i) Eq (enter s) (enter s))

include henter hambient

theorem alike_access (hv : v.Only Command.IsAccess) {op : Access}
    (hbody : ∀ nested, op = .withValue (some nested) → ∀ value,
      (nested value).Only Command.IsAmbient) :
    Coupled (Scene.Alike i) Eq (op.run enter v .ambient) (op.run enter v .ambient) := by
  have hQ : ∀ v : Variable, v.Only Command.IsAccess → v.Only Command.IsAccess := fun _ hv => hv
  have hbond := paired_bond i
  have hweaker : ∀ {x y : Storage Reply} {j : TableId}, Coupled (Scene.Paired i j) Eq x y →
      ∀ sc sc', Scene.Paired i j sc sc' →
        Outcomes Eq (runOn x sc).1 (runOn y sc').1 ∧ Scene.Alike i (runOn x sc).2 (runOn y sc').2 :=
    fun h sc sc' hp => (h sc sc' hp).imp id (·.toAlike)
  cases op with
  | get =>
    exact alike_resolve fun j => hweaker <|
      .bind ((hbond j).getIn (henter j) hQ ⟨rfl, rfl⟩ hv) fun _ _ hr => .pure (by rw [hr])
  | withValue body =>
    refine alike_resolve fun j sc sc' hp => ?_
    unfold Variable.withIn
    simp only [bind_assoc]
    -- the code that is handed the value may clear the thread, so the tables part here
    refine ((hbond j).getIn (henter j) hQ ⟨rfl, rfl⟩ hv).bind_weaker (·.toAlike)
      (fun value _ hvalue => ?_) hp
    subst hvalue
    cases body with
    | none => exact .pure rfl
    | some nested =>
      refine .bind (V := Eq) (.bind (hambient _ (hbody nested rfl value)) fun _ _ _ => .pure rfl) ?_
      exact fun _ _ hr => .pure (by rw [hr])
  | set value =>
    exact alike_resolve fun j => hweaker <|
      .bind ((hbond j).setIn ⟨rfl, rfl⟩ hv _) fun _ _ _ => .pure rfl
  | replace value =>
    exact alike_resolve fun j => hweaker <|
      .bind ((hbond j).replaceIn ⟨rfl, rfl⟩ hv _) fun _ _ hr => .pure (by rw [hr])
  | store entry =>
    exact alike_resolve fun j => hweaker <|
      .bind ((hbond j).storeIn (henter j) hQ ⟨rfl, rfl⟩ hv _) fun _ _ _ => .pure rfl
  | take =>
    refine alike_current? (fun j => ?_) fun sc sc' h hb => ?_
    · exact .bind ((hbond j).takeIn ⟨rfl, rfl⟩ v) fun _ _ hr => .pure (by rw [hr])
    · simp only [Variable.takeIn, runOn_bind, runOn_untrack_blank hb, runOn_unset_blank hb,
        runOn_partFrom, runOn_pure]
      exact ⟨.ok rfl, h.setTable_blank hb⟩
  | remove =>
    refine alike_current? (fun j => ?_) fun sc sc' h hb => ?_
    · exact .bind ((hbond j).removeIn (henter j) hQ ⟨rfl, rfl⟩ hv) fun _ _ _ => .pure rfl
    · have hhook : ∀ sc : Scene, runOn (v.callHook enter i none) sc = (.ok (), sc) := by
        intro sc
        rw [runOn_callHook]
        simp [Variable.runHook, Scene.handedOver, Scene.parted, Scene.departure]
      simp only [Variable.removeIn, Variable.clear, runOn_bind, runOn_untrack_blank hb,
        runOn_unset_blank hb, hhook, runOn_pure]
      exact ⟨.ok rfl, h.setTable_blank hb⟩
  | isSet =>
    refine alike_current? (fun j => ?_) fun sc sc' h hb => ?_
    · exact .bind ((hbond j).isSetIn ⟨rfl, rfl⟩ v) fun _ _ hr => .pure (by rw [hr])
    · have hunset : sc.blankTable.contains v.slot = false := by
        simp [Scene.blankTable, Table.contains]
      simp only [Variable.isSetIn, runOn_bind, runOn_table, hb, hunset, runOn_pure]
      exact ⟨.ok rfl, h⟩

end

/-! ## Clearing -/

namespace Scene

variable {i j : TableId} {sc sc' : Scene}

/-- The first thread empties its table and the second one drops its own, if it has one. -/
theorem Alike.discard (h : Alike i sc sc') :
    ∃ s, runOn discard sc = (.ok (), s) ∧ Alike i s sc'.dropFallback := by
  rw [runOn_discard, h.carried]
  refine ⟨_, rfl, ?_⟩
  have htable : (sc.setTable i sc.blankTable).thread.table i = sc.blankTable :=
    table_setTable_self _ _ _
  refine ⟨?_, h.events, h.carried, ?_, ?_, ?_, ?_, h.callbacks⟩
  · rw [Process.stripped_settled, Process.stripped_count _ (by decide)]
    exact h.process
  · rw [Scene.carried?_dropFallback]
    exact h.generic
  · exact h.intact.emptied
  · rw [Scene.own?_dropFallback h.generic]
    exact htable.trans h.blankTable.symm
  · intro slot v hv
    have hblank : (sc.setTable i sc.blankTable).thread.table i = sc.blankTable := htable
    exact Table.Tracks.blank _ slot v (hblank ▸ hv)

end Scene

section

variable {i : TableId} {enter : Enter}
  (henter : ∀ j s, s.Only Command.IsAccess →
    Coupled (Scene.Paired i j) Eq (enter s) (enter s))

include henter

/-- A thread that has no table is cleared like one whose table is blank. -/
theorem alike_clearThread :
    Coupled (Scene.Alike i) (fun _ _ => True) (clearThread enter) (clearThread enter) := by
  intro sc sc' h
  have hcount : ∀ sc : Scene, sc.Like { sc with process := sc.process.count .removeAllPasses } :=
    fun sc => .count sc (by decide)
  unfold clearThread
  rw [runOn_bind, runOn_bind, runOn_clearTable, runOn_clearTable, h.own_left]
  cases ho : sc'.own? with
  | none =>
    -- the blank table lists nothing, so the pass over it calls no hook
    have hb := h.table_of_none ho
    have hlisted : (sc.thread.table i).listed = [] := by
      rw [hb]
      rfl
    have hdetached : Scene.Alike i (sc.detached i) sc'.unwatched := by
      refine (h.setTable_blank hb).like ?_ sc'.like_unwatched
      unfold Scene.detached
      rw [hb, sc.erase_blankTable,
        Scene.reached_of_carried (h.like sc.like_unwatched (.refl sc')).carried]
      exact sc.like_unwatched.setTable i _
    obtain ⟨s, hs, halike⟩ := (hdetached.like (hcount _) (.refl _)).discard
    simp only [hlisted, clearEach, runOn_pure, if_true, Bool.false_eq_true, if_false]
    rw [hs]
    exact ⟨.ok trivial, halike⟩
  | some j =>
    -- the hooks find both tables in place; these part only when they are discarded
    have hp := h.paired ho
    have hbond := paired_bond i j
    obtain ⟨houtcome, hs⟩ := hbond.clearEach (henter j) (fun _ hv => hv) ⟨rfl, rfl⟩
      (sc.thread.table i).listed (fun _ hv => h.tracks.mem_toList hv) _ _ hp.detached
    simp only [hp.thread_table]
    generalize runOn (clearEach enter i _) (sc.detached i) = ended at houtcome hs
    generalize runOn (clearEach enter j _) (sc'.detached j) = ended' at houtcome hs
    obtain ⟨a, s⟩ := ended
    obtain ⟨b, s'⟩ := ended'
    cases houtcome with
    | ok =>
      have hcounted := hs.toAlike.like (hcount s) (hcount s')
      obtain ⟨t, ht, halike⟩ := hcounted.discard
      simp only [if_true]
      rw [ht, runOn_discard, hcounted.generic]
      exact ⟨.ok trivial, halike⟩
    | error stop =>
      exact ⟨.error stop, hs.process, hs.events, hs.carried, hs.generic, hs.intact, hs.table,
        hs.tracks, hs.callbacks⟩

end

/-! ## Commands and scripts -/

theorem alike_liveCount {i : TableId} :
    Coupled (Scene.Alike i) Eq liveCount liveCount := by
  refine alike_current? (fun j => ?_) fun sc sc' h hb => ?_
  · have hlive : Coupled (Scene.Paired i j) Eq (liveSet? i) (liveSet? j) := by
      refine .read (runOn_liveSet? · i) (runOn_liveSet? · j) fun sc sc' h => ?_
      rw [h.thread_table]
    exact .bind hlive fun _ _ hset => .pure (by rw [hset])
  · have hlive : runOn (liveSet? i) sc = (.ok none, sc) := by
      simp [hb, Scene.blankTable]
    simp only [runOn_bind, hlive, runOn_pure]
    exact ⟨.ok rfl, h⟩

theorem alike_command {i : TableId} {enter : Enter}
    (henter : ∀ j s, s.Only Command.IsAccess →
      Coupled (Scene.Paired i j) Eq (enter s) (enter s))
    (hambient : ∀ s, s.Only Command.IsAmbient →
      Coupled (Scene.Alike i) Eq (enter s) (enter s))
    {c : Command} (hc : Command.Only Command.IsAmbient c) :
    Coupled (Scene.Alike i) Eq (c.run enter) (c.run enter) := by
  rcases hc.holds with haccess | rfl
  · cases c with
    | access handle place op =>
      cases place with
      | table name => exact haccess.elim
      | ambient =>
        refine .bind (coupled_lookup handle id) fun v _ hv => ?_
        rw [hv.1]
        cases v with
        | none => exact .pure rfl
        | some v =>
          refine alike_access henter hambient (hv.2 v rfl) ?_
          intro nested hop value
          subst hop
          exact hc.nested (.body handle .ambient nested value)
    | onThread op =>
      cases op with
      | liveCount => exact .bind alike_liveCount fun _ _ hn => .pure (by rw [hn])
      | _ => exact haccess.elim
    | _ => exact haccess.elim
  · exact .bind (alike_clearThread henter) fun _ _ _ => .pure rfl

theorem alike_emit {i : TableId} (e : Event) :
    Coupled (Scene.Alike i) (fun _ _ => True) (emit e) (emit e) :=
  .of_runOn fun _ _ h => ⟨_, _, _, _, rfl, rfl, trivial,
    ⟨h.process, congrArg (e :: ·) h.events, h.carried, h.generic, h.intact, h.table, h.tracks,
      h.callbacks⟩⟩

/-- Nested code of an operation that the thread does itself. -/
theorem alike_enter (i : TableId) (depth : Nat) {s : Script} (hs : s.Only Command.IsAmbient) :
    Coupled (Scene.Alike i) Eq (enter depth s) (enter depth s) := by
  -- only what is handed a value gets here: callbacks run by `paired_enter`
  induction depth generalizing s with
  | zero => exact .bind (alike_emit _) fun _ _ _ => .pure rfl
  | succ depth ih =>
    refine coupled_script alike_emit (fun c hc => coupled_perform ?_) s hs
    exact alike_command (fun j => paired_enter i j depth) (fun _ => ih) hc

/-- Every operation that a thread does on its own table ends alike for a thread that carries its
table and for one that does not. -/
theorem alike_perform (i : TableId) (depth : Nat) {c : Command}
    (hc : Command.Only Command.IsAmbient c) :
    Coupled (Scene.Alike i) Eq (perform (enter depth) c) (perform (enter depth) c) :=
  coupled_perform (alike_command (fun j => paired_enter i j depth) (fun _ => alike_enter i depth) hc)

/-- As many variables are set on both threads. -/
theorem Scene.Alike.tracked_glance {i : TableId} {sc sc' : Scene} (h : Scene.Alike i sc sc') :
    (sc'.thread.glance sc'.process.epoch).tracked = (sc.thread.glance sc.process.epoch).tracked := by
  have hleft : sc.thread.own? sc.process.epoch = some i := h.own_left
  have htable := h.table
  unfold Scene.own? at htable
  unfold Thread.glance
  rw [hleft]
  simp only [Option.map_some, Option.bind_some, htable]
  cases sc'.thread.own? sc'.process.epoch with
  | some j => rfl
  | none => simp [Scene.blankTable]

end ThreadSlots
