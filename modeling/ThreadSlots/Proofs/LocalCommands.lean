import ThreadSlots.Proofs.Coupling

/-!
# What a thread does with its own storage

The commands that are about variables, the thread's own table and its explicit tables, all but the
one that invalidates the fallback tables of other threads, are `Command.IsLocal`. An `OwnBond` is a
relation on scenes that the primitive steps of these commands keep; then the commands keep it too
(`OwnBond.command`), and so do the clearings of a thread and a glance at it.
-/

namespace ThreadSlots

open Storage

/-- The command concerns the storage of the calling thread alone. -/
def Command.IsLocal : Command → Prop
  | .access .. | .setRow .. | .getRow .. | .slotOf _ | .describe _ | .compare .. => True
  | .onThread op => op ≠ .destroy
  | .onTables _ => True
  | .declare .. | .declareRow .. | .duplicate _ | .drop _ | .onProcess _ | .onWatchers _ => False

/-- A relation on scenes that the primitive steps of local commands keep. -/
structure OwnBond (Q : Variable → Prop) (R : Scene → Scene → Prop) : Prop extends Bond Q R Eq where
  thread : ∀ {sc sc'}, R sc sc' → sc'.thread.carried? = sc.thread.carried? ∧
    sc'.thread.names = sc.thread.names ∧ sc'.thread.label = sc.thread.label
  carried? : Coupled R Eq carried? carried?
  rename : ∀ {sc sc'}, R sc sc' → ∀ f : List (String × TableId) → List (String × TableId),
    R { sc with thread := { sc.thread with names := f sc.thread.names } }
      { sc' with thread := { sc'.thread with names := f sc'.thread.names } }
  fill : ∀ {sc sc'}, R sc sc' → ∀ id,
    R { sc with thread := { sc.thread with filled := id :: sc.thread.filled } }
      { sc' with thread := { sc'.thread with filled := id :: sc'.thread.filled } }
  settings : Coupled R Eq settings settings
  newTable : ∀ policy, Coupled R Eq (newTable policy) (newTable policy)
  adopt : Coupled R Eq adopt adopt
  release : Coupled R Eq release release
  discard : Coupled R (fun _ _ => True) discard discard
  interrupt : ∀ {sc sc'}, R sc sc' → R sc.interrupt sc'.interrupt
  /-- a clearing begins -/
  detach : ∀ {sc sc'}, R sc sc' → sc'.own? = sc.own? ∧
    (sc.own? = none → R sc.unwatched.dropFallback sc'.unwatched.dropFallback) ∧
    ∀ id, sc.own? = some id → R (sc.detached id) (sc'.detached id)

namespace OwnBond

variable {Q : Variable → Prop} {R : Scene → Scene → Prop} {P : Command → Prop} {enter : Enter}

/-! ## Reading the thread -/

theorem named? (h : OwnBond Q R) (name : String) :
    Coupled R Eq (return (← Storage.thread).named? name) (return (← Storage.thread).named? name) := by
  refine .of_runOn fun sc sc' hr => ⟨_, _, sc, sc', rfl, rfl, ?_, hr⟩
  unfold Thread.named?
  rw [(h.thread hr).2.1]

theorem bindTable (h : OwnBond Q R) (name : String) (id : TableId) :
    Coupled R (fun _ _ => True) (ThreadSlots.bindTable name id) (ThreadSlots.bindTable name id) := by
  refine .of_runOn fun sc sc' hr => ⟨_, _, _, _, rfl, rfl, trivial, ?_⟩
  exact h.rename hr fun names => (name, id) :: names.filter (·.1 != name)

theorem isCarrying (h : OwnBond Q R) :
    Coupled R Eq ThreadSlots.isCarrying ThreadSlots.isCarrying := by
  refine .bind h.carried? fun id _ hid => ?_
  subst hid
  exact .pure rfl

theorem current?_eq (h : OwnBond Q R) : Coupled R Eq Storage.current? Storage.current? := by
  refine h.current?.mono fun a b hab => ?_
  cases hab with
  | none => rfl
  | some hij => rw [hij]

theorem freshTable (h : OwnBond Q R) : Coupled R Eq Storage.freshTable Storage.freshTable := by
  refine .bind h.settings fun c _ hc => ?_
  subst hc
  exact h.newTable _

theorem read_table_eq (h : OwnBond Q R) (id : TableId) :
    Coupled R Eq (Storage.table id) (Storage.table id) :=
  (h.read_table rfl).mono fun _ _ ht => ht.1.symm

theorem optionRel (a : Option TableId) : Option.Rel Eq a a := by
  cases a with
  | none => exact .none
  | some id => exact .some rfl

theorem resolve (h : OwnBond Q R) (place : Place) :
    Coupled R (Option.Rel Eq) place.resolve place.resolve := by
  cases place with
  | ambient => exact h.resolve_ambient
  | table name => exact (h.named? name).mono fun a _ hab => hab ▸ optionRel a

theorem resolve? (h : OwnBond Q R) (place : Place) :
    Coupled R (Option.Rel Eq) place.resolve? place.resolve? := by
  cases place with
  | ambient => exact h.current?
  | table name => exact (h.named? name).mono fun a _ hab => hab ▸ optionRel a

/-- What is done with an explicit table, if there is one of that name. -/
theorem bind_named {α : Type} (h : OwnBond Q R) (name : String) (none : α)
    {f : TableId → Storage α} (hf : ∀ id, Coupled R Eq (f id) (f id)) :
    Coupled R Eq
      (do
        let some id := (← Storage.thread).named? name | return none
        f id)
      (do
        let some id := (← Storage.thread).named? name | return none
        f id) := by
  intro sc sc' hr
  have hnamed : sc'.thread.named? name = sc.thread.named? name := by
    unfold Thread.named?
    rw [(h.thread hr).2.1]
  simp only [runOn_bind, runOn_thread, hnamed]
  cases sc.thread.named? name with
  | none => exact ⟨.ok rfl, hr⟩
  | some id => exact hf id sc sc' hr

theorem bind_lookup (h : OwnBond Q R) (handle : Nat) {f : Option Variable → Storage Reply}
    (hf : ∀ v, Coupled R Eq (f v) (f v)) :
    Coupled R Eq (lookup handle >>= f) (lookup handle >>= f) :=
  .bind (h.lookup handle) fun v _ hv => by
    rw [hv.1]
    exact hf v

/-! ## Tables -/

theorem preload (h : OwnBond Q R) (id : TableId) (raw : List (Nat × Value)) :
    Coupled R (fun _ _ => True) (ThreadSlots.preload id raw) (ThreadSlots.preload id raw) := by
  induction raw with
  | nil => exact .pure trivial
  | cons entry raw ih =>
    obtain ⟨n, value⟩ := entry
    refine .bind (.of_runOn fun _ _ hr => ⟨_, _, _, _, rfl, rfl, trivial, h.fill hr id⟩)
      fun _ _ (_ : True) => .bind (.ofExcept _) fun slot _ hs => ?_
    subst hs
    exact .bind (h.store_value rfl slot value) fun _ _ _ => ih

theorem tableCommand (h : OwnBond Q R) (op : TableCommand) : Coupled R Eq op.run op.run := by
  cases op with
  | new name policy raw =>
    have htail : ∀ id, Coupled R Eq
        (do ThreadSlots.preload id raw; ThreadSlots.bindTable name id; return Reply.done)
        (do ThreadSlots.preload id raw; ThreadSlots.bindTable name id; return Reply.done) :=
      fun id => .bind (h.preload id raw) fun _ _ _ => .bind (h.bindTable name id) fun _ _ _ =>
        .pure rfl
    cases policy with
    | none =>
      refine .bind h.freshTable fun id _ hid => ?_
      subst hid
      exact htail id
    | some policy =>
      refine .bind (h.newTable policy) fun id _ hid => ?_
      subst hid
      exact htail id
  | current name =>
    refine .bind h.current fun id _ hid => ?_
    subst hid
    exact .bind (h.bindTable name id) fun _ _ _ => .pure rfl
  | currentIfSet name =>
    refine .bind_some h.current? rfl fun id _ hid => ?_
    subst hid
    exact .bind (h.bindTable name id) fun _ _ _ => .pure rfl
  | copy source name =>
    exact h.bind_named source _ fun id => .bind (h.bindTable name id) fun _ _ _ => .pure rfl
  | drop name =>
    refine .of_runOn fun sc sc' hr => ⟨_, _, _, _, rfl, rfl, ?_, ?_⟩
    · unfold Thread.named?
      rw [(h.thread hr).2.1]
    · exact h.rename hr (·.filter (·.1 != name))
  | same a b => exact h.bind_named a _ fun x => h.bind_named b _ fun y => .pure rfl
  | info name =>
    refine h.bind_named name _ fun id => .bind (h.read_table_eq id) fun t _ ht => ?_
    subst ht
    exact .pure rfl
  | peek name n =>
    refine h.bind_named name _ fun id => .bind (.ofExcept _) fun slot _ hs => ?_
    subst hs
    refine .bind (h.read_table_eq id) fun t _ ht => ?_
    subst ht
    exact .pure rfl

/-! ## Clearing -/

section Callbacks

variable (henter : ∀ s, s.Only P → Coupled R Eq (enter s) (enter s))
  (hQ : ∀ v, Q v → v.Only P)

include henter hQ

theorem clearTable (h : OwnBond Q R) :
    Coupled R Eq (ThreadSlots.clearTable enter) (ThreadSlots.clearTable enter) := by
  intro sc sc' hr
  obtain ⟨hown, hnone, hsome⟩ := h.detach hr
  rw [runOn_clearTable, runOn_clearTable, hown]
  cases ho : sc.own? with
  | none => exact ⟨.ok rfl, hnone ho⟩
  | some id =>
    obtain ⟨htable, htracks⟩ := h.table hr (rfl : id = id)
    have heach := h.toBond.clearEach henter hQ (rfl : id = id) (sc.thread.table id).listed
      (fun _ hv => htracks.mem_toList hv) _ _ (hsome id ho)
    simp only [htable]
    generalize runOn (ThreadSlots.clearEach enter id _) (sc.detached id) = ended at heach
    generalize runOn (ThreadSlots.clearEach enter id _) (sc'.detached id) = ended' at heach
    obtain ⟨a, s⟩ := ended
    obtain ⟨b, s'⟩ := ended'
    obtain ⟨houtcome, hs⟩ := heach
    cases houtcome with
    | ok => exact ⟨.ok rfl, h.count hs _ (by decide)⟩
    | error stop => exact ⟨.error stop, h.interrupt hs⟩

theorem clearThread (h : OwnBond Q R) :
    Coupled R (fun _ _ => True) (ThreadSlots.clearThread enter) (ThreadSlots.clearThread enter) := by
  refine .bind (clearTable henter hQ h) fun cleared _ hc => ?_
  subst hc
  exact .ite h.discard (.pure trivial)

theorem clearAndRelease (h : OwnBond Q R) :
    Coupled R (fun _ _ => True) (ThreadSlots.clearAndRelease enter)
      (ThreadSlots.clearAndRelease enter) := by
  refine .bind (clearTable henter hQ h) fun cleared _ hc => ?_
  subst hc
  refine .ite (.bind h.release fun id _ hid => ?_) (.pure trivial)
  subst hid
  exact .ite h.discard (.pure trivial)

theorem upkeep (h : OwnBond Q R) {op : Upkeep} (hop : op ≠ .destroy) :
    Coupled R Eq (op.run enter) (op.run enter) := by
  cases op with
  | clear => exact .bind (clearThread henter hQ h) fun _ _ _ => .pure rfl
  | destroy => exact absurd rfl hop
  | discard => exact .bind h.discard fun _ _ _ => .pure rfl
  | isCarrying => exact .bind h.isCarrying fun _ _ hb => .pure (by rw [hb])
  | liveCount => exact .bind h.liveCount fun _ _ hn => .pure (by rw [hn])
  | hasTable => exact .bind h.current?_eq fun _ _ hid => .pure (by rw [hid])
  | threadName =>
    exact .of_runOn fun sc sc' hr => ⟨_, _, sc, sc', rfl, rfl, by rw [(h.thread hr).2.2], hr⟩
  | adopt name =>
    refine .bind h.adopt fun id _ hid => ?_
    subst hid
    refine .bind (h.bindTable name id) fun _ _ _ => .bind h.isCarrying fun carrying _ hc => ?_
    subst hc
    exact .bind (h.read_table_eq id) fun _ _ ht => .pure (by rw [ht])
  | adoptSize =>
    refine .bind h.adopt fun id _ hid => ?_
    subst hid
    refine .bind h.isCarrying fun carrying _ hc => ?_
    subst hc
    exact .bind (h.read_table_eq id) fun _ _ ht => .pure (by rw [ht])
  | release name =>
    refine .bind h.release fun id _ hid => ?_
    subst hid
    cases id with
    | none => exact .pure rfl
    | some id => exact .bind (h.bindTable name id) fun _ _ _ => .pure rfl

/-! ## Commands -/

theorem setRow (h : OwnBond Q R) (factor : Int) (handle n : Nat) :
    Coupled R Eq (ThreadSlots.setRow enter factor handle n)
      (ThreadSlots.setRow enter factor handle n) := by
  induction n generalizing handle with
  | zero => exact .pure rfl
  | succ n ih =>
    refine .bind (h.toBond.accessHandle henter hQ handle (h.resolve .ambient) (h.resolve? .ambient)
      nofun) fun reply _ hreply => ?_
    subst hreply
    split
    · exact ih (handle + 1)
    · exact ih (handle + 1)
    · exact .pure rfl

theorem getRow (h : OwnBond Q R) (handle n : Nat) :
    Coupled R Eq (ThreadSlots.getRow enter handle n) (ThreadSlots.getRow enter handle n) := by
  induction n generalizing handle with
  | zero => exact .pure rfl
  | succ n ih =>
    refine .bind (h.toBond.accessHandle henter hQ handle (h.resolve .ambient) (h.resolve? .ambient)
      nofun) fun reply _ hreply => ?_
    exact .bind (ih (handle + 1)) fun replies _ hreplies => .pure (by rw [hreply, hreplies])

/-- Every local command is coupled to itself. -/
theorem command (h : OwnBond Q R) {c : Command} (hlocal : c.IsLocal) (hc : Command.Only P c) :
    Coupled R Eq (c.run enter) (c.run enter) := by
  cases c with
  | access handle place op =>
    refine h.toBond.accessHandle henter hQ handle (h.resolve place) (h.resolve? place) ?_
    intro nested hop value
    subst hop
    exact hc.nested (.body handle place nested value)
  | setRow first last factor => exact setRow henter hQ h factor first _
  | getRow first last =>
    exact .bind (getRow henter hQ h first _) fun _ _ hreplies => .pure (by rw [hreplies])
  | slotOf handle =>
    exact h.bind_lookup handle fun v => by cases v <;> exact .pure rfl
  | describe handle =>
    exact h.bind_lookup handle fun v => by cases v <;> exact .pure rfl
  | compare a b =>
    refine h.bind_lookup a fun x => ?_
    cases x with
    | none => exact .pure rfl
    | some x => exact h.bind_lookup b fun y => by cases y <;> exact .pure rfl
  | onThread op => exact upkeep henter hQ h hlocal
  | onTables op => exact h.tableCommand op
  | declare | declareRow | duplicate | drop | onProcess | onWatchers => exact hlocal.elim

end Callbacks

/-- A glance at the thread shows the same. -/
theorem glance_eq (h : OwnBond Q R) {sc sc' : Scene} (hr : R sc sc') :
    sc'.thread.glance sc'.process.epoch = sc.thread.glance sc.process.epoch := by
  have hown : sc'.thread.own? sc'.process.epoch = sc.thread.own? sc.process.epoch := (h.detach hr).1
  have htable : ∀ id, sc'.thread.table id = sc.thread.table id := fun id => (h.table hr rfl).1
  unfold Thread.glance
  rw [hown, (h.thread hr).1, funext htable]

/-- A new thread comes up alike. -/
theorem prepare (h : OwnBond Q R) (kind : ThreadKind) :
    Coupled R Eq (ThreadSlots.prepare kind) (ThreadSlots.prepare kind) := by
  have htail := h.isCarrying
  unfold ThreadSlots.prepare
  refine .ite (.bind h.adopt fun id _ hid => ?_) htail
  subst hid
  exact .ite (.bind (h.bindTable _ id) fun _ _ _ => htail) htail

end OwnBond

/-! ## Destructors -/

section Destructors

variable {R : Scene → Scene → Prop} {sc sc' : Scene}

theorem coupled_runLate (depth : Nat) {cs : List Command}
    (hcs : ∀ c ∈ cs, Coupled R Eq (perform (enter depth) c) (perform (enter depth) c))
    (h : R sc sc') :
    (Session.runLate depth sc' cs).1 = (Session.runLate depth sc cs).1 ∧
      R (Session.runLate depth sc cs).2 (Session.runLate depth sc' cs).2 := by
  induction cs generalizing sc sc' with
  | nil => exact ⟨rfl, h⟩
  | cons c cs ih =>
    obtain ⟨hc, hcs⟩ := List.forall_mem_cons.1 hcs
    obtain ⟨ho, hs⟩ := hc sc sc' h
    obtain ⟨hrest, hs'⟩ := ih hcs hs
    exact ⟨List.cons_eq_cons.2 ⟨congrArg answer ho.eq, hrest⟩, hs'⟩

/-- The destructors of the thread's own code answer alike, if they find the same thread-locals
destroyed. -/
theorem coupled_runDestructors (depth : Nat) {late : List Late}
    (hlate : ∀ code ∈ late, ∀ c ∈ code.commands,
      Coupled R Eq (perform (enter depth) c) (perform (enter depth) c))
    (hunwind : ∀ {sc sc'}, R sc sc' → ∀ n, R (sc.unwind n) (sc'.unwind n)) (h : R sc sc') :
    (Session.runDestructors depth sc' late).1 = (Session.runDestructors depth sc late).1 ∧
      R (Session.runDestructors depth sc late).2 (Session.runDestructors depth sc' late).2 := by
  induction late generalizing sc sc' with
  | nil => exact ⟨rfl, h⟩
  | cons code late ih =>
    obtain ⟨hcode, hlate⟩ := List.forall_mem_cons.1 hlate
    obtain ⟨hanswers, hs⟩ := coupled_runLate depth hcode (hunwind h (code.since + 1))
    obtain ⟨hrest, hs'⟩ := ih hlate hs
    exact ⟨congrArg₂ (· ++ ·) hanswers hrest, hs'⟩

end Destructors

end ThreadSlots
