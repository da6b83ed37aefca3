import ThreadSlots.Proofs.Quiet

/-!
# Every operation takes a course

From a sound scene every command, with whatever nested code it runs, takes a `Course`
(`walks_perform`), to whatever end it comes. The operations on a variable do so if the process knows
the variable, as it does every variable that a handle stands for.
-/

namespace ThreadSlots

open Storage

/-- From every sound scene whose process knows the variables the action takes a course. -/
def Walks {α : Type} (known : List Variable) (x : Storage α) : Prop :=
  ∀ busy sc, sc.Sound → (∀ v ∈ known, sc.process.Knows v) → Course busy sc (runOn x sc).2

theorem Course.like {busy : List TableId} {sc sc' sc'' : Scene} (h : Course busy sc sc')
    (hlike : sc'.Like sc'') : Course busy sc sc'' :=
  .move h (.aside hlike.aside)

namespace Walks

variable {α β : Type} {known : List Variable}

theorem of_quiet {x : Storage α} (h : Quiet x) : Walks known x := fun _ sc _ _ => .of_aside (h sc)

theorem of_known {v : Variable} {x : Storage α}
    (h : ∀ busy sc, sc.Sound → sc.process.Knows v → Course busy sc (runOn x sc).2)
    (hv : v ∈ known) : Walks known x :=
  fun busy sc hs hknown => h busy sc hs (hknown v hv)

theorem weaken {x : Storage α} (h : Walks [] x) : Walks known x :=
  fun busy sc hs _ => h busy sc hs (by simp)

/-- An action that depends on no variable takes a course from every sound scene. -/
theorem course {x : Storage α} (h : Walks [] x) (busy : List TableId) {sc : Scene}
    (hs : sc.Sound) : Course busy sc (runOn x sc).2 :=
  h busy sc hs (by simp)

theorem modular : Modular (Walks known) where
  bind_of {_ _ P x f} hx hP hf := by
    intro busy sc hs hknown
    have h := hx busy sc hs hknown
    rw [runOn_bind]
    rcases hr : runOn x sc with ⟨stop | a, sc'⟩
    · rw [hr] at h
      exact h
    · rw [hr] at h
      exact h.trans (hf a (hP _ _ _ hr) busy sc' (h.sound hs) fun v hv => h.knows hs (hknown v hv))
  like h := of_quiet (Quiet.modular.like h)
  initialized := of_quiet Quiet.modular.initialized
  initializerPanicked := of_quiet Quiet.modular.initializerPanicked
  modifyProcess h := of_quiet (Quiet.modular.modifyProcess h)
  modifyThread h := of_quiet (Quiet.modular.modifyThread h)

theorem pure (a : α) : Walks known (Pure.pure a : Storage α) := modular.pure a

theorem bind {x : Storage α} {f : α → Storage β} (hx : Walks known x)
    (hf : ∀ a, Walks known (f a)) : Walks known (x >>= f) :=
  modular.bind hx hf

theorem ite {c : Prop} [Decidable c] {x y : Storage α} (hx : Walks known x) (hy : Walks known y) :
    Walks known (if c then x else y) := by
  split
  · exact hx
  · exact hy

/-- A handle stands for a variable that the process knows. -/
theorem lookup_bind {handle : Nat} {f : Option Variable → Storage β} (hnone : Walks known (f none))
    (hsome : ∀ v, Walks (v :: known) (f (some v))) : Walks known (lookup handle >>= f) := by
  intro busy sc hs hknown
  have hr : runOn (lookup handle) sc =
      (.ok (sc.process.byHandle[handle]?.bind (sc.process.bySlot[·]?)), sc) := rfl
  rw [runOn_bind, hr]
  rcases hv : sc.process.byHandle[handle]?.bind (sc.process.bySlot[·]?) with _ | v
  · exact hnone busy sc hs hknown
  · obtain ⟨slot, -, hv⟩ := Option.bind_eq_some_iff.1 hv
    have hslot : v.slot = slot := (hs.process.bySlot slot v hv).1
    subst hslot
    exact hsome v busy sc hs (List.forall_mem_cons.2 ⟨hv, hknown⟩)

/-! ## The thread's own table -/

theorem makeBlank (busy : List TableId) (sc : Scene) : Course busy sc sc.makeBlank :=
  (Course.of_move (.make sc.blankTable [] []
    (.of_blank (Table.grown_mk _) (Table.get?_mk _)))).like
    sc.like_makeBlank.symm

theorem reached (busy : List TableId) (sc : Scene) : Course busy sc sc.reached :=
  .of_aside (.of_seen sc.thread.locals.seen_reached)

/-- The thread gives up tables that it holds. -/
theorem giveUp (busy : List TableId) {sc : Scene} (hs : sc.Sound) {l : Locals}
    (hcarried : (sc.setLocals l).thread.carried? = none ∨
      (sc.setLocals l).thread.carried? = sc.thread.carried?)
    (hfallback : (sc.setLocals l).thread.fallback? = none ∨
      (sc.setLocals l).thread.fallback? = sc.thread.fallback?) :
    Course busy sc (sc.setLocals l) := by
  have hexclusive := hs.thread.exclusive
  refine .of_move (.relocate l (fun id hid => .inl (Scene.holds_of_giveUp hcarried hfallback hid)) ?_)
  grind

/-- An empty table becomes the fallback table. -/
theorem keep (busy : List TableId) {sc : Scene} {id : TableId} (hc : sc.thread.carried? = none)
    (hid : sc.thread.Unused id) : Course busy sc (sc.keep id) := by
  have hcarried : (sc.keep id).thread.carried? = none := by rwa [Scene.carried?_keep]
  refine .of_move (.relocate _ (fun i hi => .inr ?_) (.inl hcarried))
  rwa [Scene.eq_of_holds_keep hc hi]

/-- The fallback table or an empty table is carried from now on. -/
theorem carry (busy : List TableId) {sc : Scene} {id : TableId}
    (hid : sc.thread.Holds id ∨ sc.thread.Unused id) : Course busy sc (sc.carry id) := by
  refine .of_move (.relocate _ (fun i hi => ?_) (.inr (sc.fallback?_carry id)))
  rwa [Scene.eq_of_holds_carry hi]

theorem dropFallback (busy : List TableId) {sc : Scene} (hs : sc.Sound) :
    Course busy sc sc.dropFallback :=
  giveUp busy hs (.inr sc.carried?_dropFallback) (.inl sc.fallback?_dropFallback)

theorem current? : Walks known Storage.current? := by
  intro busy sc hs _
  rw [runOn_current?]
  dsimp only
  split
  · exact reached busy sc
  · exact dropFallback busy hs

theorem unused_makeBlank {sc : Scene} (hs : sc.Sound) :
    sc.makeBlank.thread.Unused sc.thread.nextTable := by
  refine ⟨Nat.lt_succ_self _, fun hid => Nat.lt_irrefl _ (hs.thread.filled _ hid).1, ?_⟩
  rw [sc.like_makeBlank.symm.thread_table, Scene.table_makeTable, if_pos rfl]
  exact Table.get?_mk _

theorem current : Walks known Storage.current := by
  intro busy sc hs _
  rw [runOn_current]
  rcases ho : sc.own? with _ | id
  · exact (makeBlank busy sc).trans (keep busy (Scene.carried?_eq_none ho) (unused_makeBlank hs))
  · exact reached busy sc

theorem discard : Walks known Storage.discard := by
  intro busy sc hs _
  rw [runOn_discard]
  rcases hc : sc.thread.carried? with _ | id
  · exact dropFallback busy hs
  · refine (Course.of_move (.empty id sc.process.inEffect.sentinelPolicy hc)).like ?_
    exact .of_process (sc.process.stripped_count (by decide))

theorem adopt : Walks known Storage.adopt := by
  intro busy sc hs _
  rw [runOn_adopt]
  rcases hc : sc.thread.carried? with _ | id
  · rcases ho : sc.own? with _ | id
    · exact (makeBlank busy sc).trans (carry busy (.inr (unused_makeBlank hs)))
    · exact carry busy (.inl (Thread.holds_of_own? ho))
  · exact .rest

theorem release : Walks known Storage.release := by
  intro busy sc hs _
  rw [runOn_release]
  exact giveUp busy hs (.inl sc.carried?_released) (.inr sc.fallback?_released)

theorem releaseOrDiscard :
    Walks known (do if (← Storage.release).isNone then Storage.discard) :=
  bind release fun _ => ite discard (pure _)

/-! ## One variable -/

section

variable {v : Variable} (hv : v ∈ known)

include hv in
theorem putIn (id : TableId) {value : Value} (hkind : value.kind = v.kind) {fate : Fate}
    (hfate : fate = .returned ∨ fate = .overwritten) : Walks known (v.putIn id value fate) := by
  refine of_known (fun busy sc _ hv => ?_) hv
  rcases h : (sc.thread.table id).insert v.slot (.value value) with e | stored
  · rw [runOn_putIn_error sc h]
    exact .rest
  · obtain ⟨sc', hrun, hlike⟩ := ends_putIn sc fate h
    rw [hrun]
    exact (Course.of_move (.put hv id value hkind fate hfate h)).like hlike

include hv in
theorem takeIn (id : TableId) : Walks known (v.takeIn id) := by
  refine of_known (fun busy sc hs hv => ?_) hv
  rw [runOn_takeIn sc (hs.process.slot_ne hv) id]
  exact .of_move (.take hv id)

variable {enter : Enter} (henter : ∀ script, Walks [] (enter script))

include henter in
theorem runHook (cell : Option Cell) : Walks known (v.runHook enter cell) :=
  modular.runHook (fun _ _ _ _ _ => weaken (henter _)) cell

include hv henter in
theorem removeIn (id : TableId) : Walks known (v.removeIn enter id) := by
  refine of_known (fun busy sc hs hv => ?_) hv
  rw [runOn_removeIn sc enter v id]
  have hmove : Course busy sc _ := .of_move (.remove hv id)
  exact hmove.trans ((runHook henter _).course _ (hmove.sound hs))

include hv henter in
theorem storeIn (id : TableId) {entry : Option Value}
    (hkind : ∀ value ∈ entry, value.kind = v.kind) : Walks known (v.storeIn enter id entry) := by
  refine of_known (fun busy sc hs hv => ?_) hv
  rcases entry with _ | value
  · rw [runOn_storeIn_none sc enter v id]
    split
    · exact .rest
    · have hmove : Course busy sc _ := .of_move (.remove hv id)
      exact hmove.trans ((runHook henter _).course _ (hmove.sound hs))
  · rcases h : (sc.thread.table id).insert v.slot (.value value) with e | stored
    · rw [runOn_storeIn_error sc enter h]
      exact .rest
    · obtain ⟨sc', hrun, hlike⟩ := ends_storeIn_some sc enter h
      rw [hrun]
      exact (Course.of_move (.put hv id value (hkind value rfl) .overwritten (.inr rfl) h)).like hlike

include henter in
theorem makeInitial : Walks known (v.makeInitial enter) :=
  modular.makeInitial (fun _ _ => weaken (henter _)) (of_quiet fun _ => .of_process (.of_eq rfl))

include hv henter in
theorem operates : Operates (Walks known) enter v :=
  ⟨putIn hv, takeIn hv, removeIn hv henter, storeIn hv henter, makeInitial henter⟩

end

/-! ## Access -/

theorem accessHandle {enter : Enter} (henter : ∀ script, Walks [] (enter script)) (handle : Nat)
    (place : Place) (op : Access) : Walks known (accessHandle enter handle place op) :=
  lookup_bind (pure _) fun _ =>
    modular.access (operates List.mem_cons_self henter) current current? place fun _ _ _ =>
      weaken (henter _)

end Walks

/-! ## Clearing -/

section

variable {enter : Enter} (henter : ∀ script, Walks [] (enter script)) {busy : List TableId}
  {sc : Scene}

include henter in
/-- A hook is called after the slot was unset. -/
theorem course_runHook {id : TableId} (hid : id ∈ busy) {v : Variable} (hs : sc.Sound)
    (hv : sc.process.Knows v) :
    Course busy
      ((sc.setTable id ((sc.thread.table id).erase v.slot).table).handedOver v id
        ((sc.thread.table id).get? v.slot))
      (runOn (v.clear enter id) sc).2 := by
  have hmove : Course busy sc _ := .of_move (.clear hv hid)
  rw [runOn_clear]
  exact (Walks.runHook henter _).course _ (hmove.sound hs)

include henter in
theorem course_clear {id : TableId} (hid : id ∈ busy) {v : Variable} (hs : sc.Sound)
    (hv : sc.process.Knows v) : Course busy sc (runOn (v.clear enter id) sc).2 :=
  (Course.of_move (.clear hv hid)).trans (course_runHook henter hid hs hv)

include henter in
/-- Clearing variables one by one is a course of a clearing. -/
theorem course_clearEach {id : TableId} (hid : id ∈ busy) {vs : List Variable} (hs : sc.Sound)
    (hvs : ∀ v ∈ vs, sc.process.Knows v) : Course busy sc (runOn (clearEach enter id vs) sc).2 := by
  induction vs generalizing sc with
  | nil => exact .rest
  | cons v vs ih =>
    obtain ⟨hv, hvs⟩ := List.forall_mem_cons.1 hvs
    have hclear := course_clear henter hid hs hv
    unfold clearEach
    rw [runOn_bind]
    rcases hr : runOn (v.clear enter id) sc with ⟨stop | a, sc'⟩
    · rw [hr] at hclear
      exact hclear
    · rw [hr] at hclear
      exact hclear.trans (ih (hclear.sound hs) fun u hu => hclear.knows hs (hvs u hu))

/-- After its table was discarded the thread holds no value. -/
theorem blank_discard (hs : sc.Sound) {id : TableId}
    (hid : (runOn discard sc).2.thread.Holds id) :
    ((runOn discard sc).2.thread.table id).Blank := by
  rw [runOn_discard] at *
  rcases hc : sc.thread.carried? with _ | i
  · rw [hc] at hid
    have hcarried : sc.dropFallback.thread.carried? = none := by rwa [Scene.carried?_dropFallback]
    exact absurd hid (Thread.not_holds hcarried sc.fallback?_dropFallback id)
  · rw [hc] at hid
    obtain rfl := hs.thread.eq_of_carried hc hid
    show ((sc.setTable id sc.blankTable).thread.table id).Blank
    rw [Scene.table_setTable_self]
    exact Table.get?_mk _

/-- A thread that has released a table holds none. -/
theorem not_holds_release (hs : sc.Sound) {i : TableId} (hc : sc.thread.carried? = some i)
    (id : TableId) : ¬ (runOn release sc).2.thread.Holds id := by
  rw [runOn_release]
  refine Thread.not_holds sc.carried?_released ?_ id
  rw [Scene.fallback?_released]
  exact hs.thread.exclusive.resolve_left (by simp [hc])

theorem course_detached (busy : List TableId) (sc : Scene) (id : TableId) :
    Course (id :: busy) sc (sc.detached id) := by
  have htable : sc.unwatched.reached.thread.table id = sc.thread.table id :=
    sc.like_unwatched.thread_table id
  unfold Scene.detached
  rw [← htable]
  exact .move ((Course.like .rest sc.like_unwatched).trans (Walks.reached _ _))
    (.detach List.mem_cons_self)

/-- The listed variables are known when they are about to be cleared. -/
theorem knows_detached (hs : sc.Sound) (id : TableId) :
    ∀ v ∈ (sc.thread.table id).listed, (sc.detached id).process.Knows v :=
  fun _ hv => (course_detached [] sc id).knows hs ((hs.thread.lists id).of_mem_listed hv).2

include henter in
/-- What is done after the pass over the variables completes the clearing, if it leaves the thread
without a value. -/
theorem walks_clearTable_then {x : Storage Unit} (hx : Walks [] x)
    (hblank : ∀ sc, sc.Sound → ∀ id, (runOn x sc).2.thread.Holds id →
      ((runOn x sc).2.thread.table id).Blank) :
    Walks [] (do if ← clearTable enter then x) := by
  intro busy sc hs _
  rw [runOn_bind, runOn_clearTable]
  rcases sc.own? with _ | id
  · have hunwatched : Course busy sc sc.unwatched := .like .rest sc.like_unwatched
    exact hunwatched.trans (Walks.dropFallback busy (hunwatched.sound hs))
  · have hdetach := course_detached busy sc id
    have hclear := hdetach.trans
      (course_clearEach henter List.mem_cons_self (hdetach.sound hs) (knows_detached hs id))
    dsimp only
    rcases hr : runOn (clearEach enter id (sc.thread.table id).listed) (sc.detached id)
      with ⟨stop | _, sc'⟩
    · rw [hr] at hclear
      exact .interrupt .rest id hclear
    · rw [hr] at hclear
      have hcounted : Course (id :: busy) sc
          { sc' with process := sc'.process.count .removeAllPasses } :=
        hclear.like (.count _ (by decide))
      have hs' := hcounted.sound hs
      exact .pass .rest id (hcounted.trans (hx.course _ hs')) (hblank _ hs')

namespace Walks

include henter in
theorem clearThread : Walks [] (ThreadSlots.clearThread enter) :=
  walks_clearTable_then henter discard fun _ hs _ => blank_discard hs

include henter in
theorem clearAndRelease : Walks [] (ThreadSlots.clearAndRelease enter) := by
  refine walks_clearTable_then henter releaseOrDiscard fun sc hs id => ?_
  · have hrelease : Course [] sc (runOn Storage.release sc).2 := release.course _ hs
    rcases hc : sc.thread.carried? with _ | i
    · have hrun : runOn (do if (← Storage.release).isNone then Storage.discard) sc =
          runOn Storage.discard (runOn Storage.release sc).2 := by
        rw [runOn_bind, runOn_release, hc]
        rfl
      rw [hrun]
      exact blank_discard (hrelease.sound hs)
    · have hrun : (runOn (do if (← Storage.release).isNone then Storage.discard) sc).2 =
          (runOn Storage.release sc).2 := by
        rw [runOn_bind, runOn_release, hc]
        rfl
      rw [hrun]
      exact fun hid => absurd hid (not_holds_release hs hc id)

include henter in
theorem upkeep (op : Upkeep) : Walks [] (op.run enter) := by
  cases op with
  | clear => exact bind (clearThread henter) fun _ => pure _
  | destroy => exact bind (of_quiet .destroyFallbacks) fun _ => pure _
  | discard => exact bind discard fun _ => pure _
  | isCarrying => exact bind modular.isCarrying fun _ => pure _
  | liveCount => exact bind (modular.liveCount current?) fun _ => pure _
  | hasTable => exact bind current? fun _ => pure _
  | threadName => exact bind modular.thread fun _ => pure _
  | adopt name =>
    exact bind adopt fun id => bind (modular.bindTable name id) fun _ =>
      bind modular.isCarrying fun _ => bind (modular.table id) fun _ => pure _
  | adoptSize =>
    exact bind adopt fun id => bind modular.isCarrying fun _ =>
      bind (modular.table id) fun _ => pure _
  | release name =>
    refine bind release fun id => ?_
    split
    · exact bind (modular.bindTable name _) fun _ => pure _
    · exact pure _

/-- A table is made, filled at once and named. -/
theorem newTable (name : String) (policy : Option SentinelPolicy) (raw : List (Nat × Value)) :
    Walks known (TableCommand.run (.new name policy raw)) := by
  intro busy sc hs _
  obtain ⟨t, marks, news, names, hfills, hlike⟩ := exists_new sc name policy raw
  have hrenamed : Aside (sc.makeFilled t marks news) ((sc.makeFilled t marks news).renamed names) :=
    ⟨.refl _, rfl, rfl, rfl, rfl, rfl, rfl, rfl, rfl⟩
  exact ((Course.of_move (.make t marks news hfills)).move (.aside hrenamed)).like hlike

include henter in
theorem command (c : Command) : Walks [] (c.run enter) := by
  cases c with
  | declare kind initial hook =>
    exact bind (of_quiet (.declare kind initial hook)) fun _ => pure _
  | declareRow n kind initial hook =>
    cases n with
    | zero => exact pure _
    | succ n =>
      exact bind (modular.declareRow (of_quiet (.declare kind initial hook)) n) fun _ => pure _
  | access handle place op => exact accessHandle henter handle place op
  | setRow first last factor =>
    exact modular.setRow first _ (fun handle _ _ op _ => accessHandle henter handle _ op) factor
  | getRow first last =>
    exact bind (modular.getRow first _ fun handle _ _ op _ => accessHandle henter handle _ op)
      fun _ => pure _
  | slotOf handle => exact modular.slotOf enter handle
  | describe handle => exact modular.describe enter handle
  | duplicate handle => exact of_quiet (.duplicate enter handle)
  | drop handle => exact of_quiet (.drop enter handle)
  | compare a b => exact modular.compare enter a b
  | onThread op => exact upkeep henter op
  | onTables op => exact modular.tableCommand current current? newTable op
  | onProcess op => exact modular.processCommand (fun n => of_quiet (.burn n)) op
  | onWatchers op => exact modular.watchCommand op

include henter in
theorem perform (c : Command) : Walks [] (ThreadSlots.perform enter c) := by
  intro busy sc hs hknown
  have h := command henter c busy sc hs hknown
  unfold ThreadSlots.perform
  rw [runOn_tryCatch]
  rcases hr : runOn (c.run enter) sc with ⟨stop | a, sc'⟩
  · rw [hr] at h
    cases stop <;> exact h
  · rw [hr] at h
    exact h

theorem caught {α : Type} {x : Storage α} (h : Walks [] x) : Walks [] (Storage.caught x) := by
  intro busy sc hs hknown
  have hx := h busy sc hs hknown
  rwa [← scene_caught sc x] at hx

theorem reportStep (name : String) (answer : Except String Reply) :
    Walks [] (ThreadSlots.reportStep name answer) := by
  cases answer with
  | ok reply => exact of_quiet (.emit rfl)
  | error message => exact pure _

include henter in
theorem script : ∀ s : Script, Walks [] (s.run enter)
  | .done _ => pure _
  | .panic message => modular.panicWith message
  | .step name c next =>
    bind (caught (perform henter c)) fun answer =>
      bind (reportStep name answer) fun _ => script (next answer)

end Walks

end

theorem walks_enter (depth : Nat) (s : Script) : Walks [] (enter depth s) := by
  induction depth generalizing s with
  | zero => exact .bind (.of_quiet (.emit rfl)) fun _ => .pure _
  | succ depth ih => exact Walks.script ih s

/-- Every command takes a course. -/
theorem walks_perform (depth : Nat) (c : Command) : Walks [] (perform (enter depth) c) :=
  Walks.perform (walks_enter depth) c

end ThreadSlots
