import ThreadSlots.Proofs.Context.Operations

/-!
# Commands on the thread of a context

Every command that stays does the same as its ambient form, and leaves the thread carrying the table
that its context names: also one that clears the thread, empties its table in place or asks for it to be
carried again, and whatever nested code runs meanwhile (`Context.command`, `Context.enter`).
-/

namespace ThreadSlots

open Std (ExtTreeMap)
open Storage

namespace Thread

/-- Giving up a name leaves the other names. -/
theorem lookup_filter_ne {name n : String} (hn : n ≠ name) (names : List (String × TableId)) :
    (names.filter (·.1 != name)).lookup n = names.lookup n := by
  induction names with
  | nil => rfl
  | cons entry names ih =>
    obtain ⟨m, i⟩ := entry
    rw [List.filter_cons, List.lookup_cons]
    by_cases hm : m = name
    · have hne : (n == m) = false := beq_eq_false_iff_ne.2 (hm ▸ hn)
      rw [if_neg (by simpa using hm), ih, hne]
    · rw [if_pos (by simpa using hm), List.lookup_cons, ih]

theorem named?_bind (t : Thread) (name : String) (i : TableId) (n : String) :
    (t.bind name i).named? n = if n = name then some i else t.named? n := by
  unfold named? bind
  rw [List.lookup_cons]
  by_cases hn : n = name
  · rw [beq_iff_eq.2 hn, if_pos hn]
  · rw [beq_eq_false_iff_ne.2 hn, if_neg hn]
    exact lookup_filter_ne hn t.names

end Thread

namespace Context

open Scene (Recast)

variable {id : TableId} {α : Type}

/-! ## Handles -/

theorem lookup (handle : Nat) : Coupled (Recast id)
    (fun a b => b = a.map Variable.ambientForm ∧ ∀ v, a = some v → v.Only Command.Stays)
    (ThreadSlots.lookup handle) (ThreadSlots.lookup handle) := by
  refine .bind process fun p _ ⟨hp, hcode⟩ => .pure ?_
  subst hp
  have hhandle : p.ambientForm.byHandle[handle]? = p.byHandle[handle]? := rfl
  rw [hhandle]
  cases p.byHandle[handle]? with
  | none => exact ⟨rfl, nofun⟩
  | some slot =>
    exact ⟨ExtTreeMap.getElem?_map, fun v hv => hcode slot v hv⟩

theorem enroll {variableAt : Nat → Variable} (hv : ∀ slot, (variableAt slot).Only Command.Stays) :
    Coupled (Recast id) (fun v w => w = v.ambientForm) (ThreadSlots.enroll variableAt)
      (ThreadSlots.enroll fun slot => (variableAt slot).ambientForm) := by
  refine .bind shared.takeSlot fun slot _ hs => ?_
  subst hs
  refine .bind (modifyProcess (fun p => ?_) fun p h s v hget => ?_) fun _ _ _ => .pure rfl
  · unfold Process.ambientForm
    rw [map_insert]
  · rw [ExtTreeMap.getElem?_insert] at hget
    split at hget
    · cases hget
      exact hv slot
    · exact h s v hget

theorem declare (kind : Kind) {initial : Initializer} {hook : Option Hook}
    (hcalled : ∀ s, CalledBack initial hook s → s.Only Command.Stays) :
    Coupled (Recast id) Eq (ThreadSlots.declare kind initial hook)
      (ThreadSlots.declare kind initial.ambientForm (hook.map Hook.ambientForm)) := by
  have hmade (handle slot : Nat) :
      Variable.Only Command.Stays ⟨slot, handle, kind, initial, hook⟩ := hcalled
  refine coupled_declare shared.takeHandle (fun handle => (enroll (hmade handle)).mono ?_)
    shared.bindHandle
  rintro v _ rfl
  rfl

/-- What is done with the variable of a handle. -/
theorem bind_lookup (handle : Nat) {f g : Option Variable → Storage Reply}
    (hf : ∀ v, (∀ w, v = some w → w.Only Command.Stays) →
      Coupled (Recast id) Eq (f v) (g (v.map Variable.ambientForm))) :
    Coupled (Recast id) Eq (ThreadSlots.lookup handle >>= f) (ThreadSlots.lookup handle >>= g) :=
  .bind (lookup handle) fun v _ ⟨hv, hcode⟩ => by
    rw [hv]
    exact hf v hcode

/-! ## Looking at the thread -/

theorem isCarrying : Coupled (Recast id) Eq ThreadSlots.isCarrying ThreadSlots.isCarrying :=
  .bind carried? fun _ _ ⟨ha, hb⟩ => .pure (by rw [ha, hb])

theorem liveCount : Coupled (Recast id) Eq ThreadSlots.liveCount ThreadSlots.liveCount := by
  refine .bind current? fun a b ⟨ha, hb⟩ => ?_
  subst ha hb
  refine .bind (liveSet? id) fun set _ ⟨hset, _⟩ => .pure ?_
  subst hset
  cases set with
  | none => rfl
  | some set => exact set.size_ambientForm.symm

/-! ## Explicit tables -/

theorem bindTable {name : String} {i : TableId} (hname : name = contextName → i = id) :
    Coupled (Recast id) (fun _ _ => True) (ThreadSlots.bindTable name i)
      (ThreadSlots.bindTable name i) := by
  refine modifyThread (fun _ => rfl) (fun _ h => h) (fun t h => ?_) fun _ => rfl
  rw [t.named?_bind]
  split
  · next hcontext => rw [hname hcontext.symm]
  · exact h

/-- What is done with an explicit table, if there is one of that name. -/
theorem bind_named {β : Type} (name : String) (none : β) {f : TableId → Storage β}
    (hf : ∀ i, Coupled (Recast id) Eq (f i) (f i)) :
    Coupled (Recast id) Eq
      (do
        let some i := (← Storage.thread).named? name | return none
        f i)
      (do
        let some i := (← Storage.thread).named? name | return none
        f i) := by
  refine .bind thread fun t _ ⟨ht, _⟩ => ?_
  have hnamed : t.ambientForm.named? name = t.named? name := rfl
  rw [ht, hnamed]
  cases t.named? name with
  | none => exact .pure rfl
  | some i => exact hf i

theorem newTable (policy : SentinelPolicy) :
    Coupled (Recast id) Eq (Storage.newTable policy) (Storage.newTable policy) := by
  refine .bind (count _) fun _ _ _ => .bind thread fun t _ ⟨ht, _⟩ => ?_
  subst ht
  refine .bind (V := fun _ _ => True) (.of_runOn fun sc sc' ⟨hsc, h⟩ =>
    ⟨_, _, _, _, rfl, rfl, trivial, ?_, h.carried, h.named, h.callbacks, fun i => ?_⟩)
    fun _ _ _ => .pure rfl
  · rw [hsc]
    unfold Scene.ambientForm Thread.ambientForm
    simp only [map_insert, Table.blank_ambientForm]
  · show (Thread.table { sc.thread with
      tables := sc.thread.tables.insert t.nextTable { policy := policy } } i).Tracks _
    rw [Thread.table_insert]
    split
    · exact .blank _
    · exact h.tracks i

theorem freshTable : Coupled (Recast id) Eq Storage.freshTable Storage.freshTable := by
  refine .bind settings fun c _ hc => ?_
  subst hc
  exact newTable _

theorem preload (i : TableId) (raw : List (Nat × Value)) :
    Coupled (Recast id) (fun _ _ => True) (ThreadSlots.preload i raw)
      (ThreadSlots.preload i raw) := by
  induction raw with
  | nil => exact .pure trivial
  | cons entry raw ih =>
    obtain ⟨n, value⟩ := entry
    refine .bind (modifyThread (fun _ => rfl) (fun _ h => h) (fun _ h => h) fun _ => rfl)
      fun _ _ _ => .bind (.ofExcept _) fun slot _ hs => ?_
    subst hs
    exact .bind (store_value i slot value) fun _ _ _ => ih

theorem tableCommand {op : TableCommand} (hop : Command.Stays (.onTables op)) :
    Coupled (Recast id) Eq op.run op.run := by
  cases op with
  | new name policy raw =>
    have htail : ∀ i, Coupled (Recast id) Eq
        (do ThreadSlots.preload i raw; ThreadSlots.bindTable name i; return Reply.done)
        (do ThreadSlots.preload i raw; ThreadSlots.bindTable name i; return Reply.done) :=
      fun i => .bind (preload i raw) fun _ _ _ =>
        .bind (bindTable fun hname => absurd hname hop) fun _ _ _ => .pure rfl
    cases policy with
    | none =>
      refine .bind freshTable fun i _ hi => ?_
      subst hi
      exact htail i
    | some policy =>
      refine .bind (newTable policy) fun i _ hi => ?_
      subst hi
      exact htail i
  | current name =>
    refine .bind current fun i j ⟨hi, hj⟩ => ?_
    subst hj hi
    exact .bind (bindTable fun _ => rfl) fun _ _ _ => .pure rfl
  | currentIfSet name =>
    refine .bind current? fun a b ⟨ha, hb⟩ => ?_
    subst ha hb
    exact .bind (bindTable fun _ => rfl) fun _ _ _ => .pure rfl
  | copy source name =>
    exact bind_named source _ fun i =>
      .bind (bindTable fun hname => absurd hname hop) fun _ _ _ => .pure rfl
  | drop name =>
    refine .bind thread fun t _ ⟨ht, _⟩ => ?_
    subst ht
    refine .bind (modifyThread (fun _ => rfl) (fun _ h => h) (fun u h => ?_) fun _ => rfl)
      fun _ _ _ => .pure rfl
    exact (Thread.lookup_filter_ne (Ne.symm hop) u.names).trans h
  | same a b => exact bind_named a _ fun x => bind_named b _ fun y => .pure rfl
  | info name =>
    refine bind_named name _ fun i => .bind (table i) fun t _ ⟨ht, _⟩ => .pure ?_
    rw [ht, Table.capacity_ambientForm, Table.size_ambientForm, Table.slots_ambientForm,
      Table.describeTable_ambientForm]
    rfl
  | peek name n =>
    refine bind_named name _ fun i => .bind (.ofExcept _) fun slot _ hs => ?_
    subst hs
    refine .bind (table i) fun t _ ⟨ht, _⟩ => .pure ?_
    rw [ht, Table.contains_ambientForm, Table.get?_ambientForm, Option.map_map]
    cases Table.get? t slot with
    | none => rfl
    | some c => exact congrArg (Reply.slot _ <| some ·) c.content_ambientForm.symm

/-! ## Clearing the thread -/

section Callbacks

variable {enter enter' : Enter}
  (henter : ∀ s : Script, s.Only Command.Stays →
    Coupled (Recast id) Eq (enter s) (enter' s.ambientForm))

include henter

/-- A pass over the thread's table. The thread carries the table during it, also where a hook clears
the thread once more, and after it, also where a hook panics. -/
theorem clearCurrent :
    Coupled (Recast id) (fun a b => a = true ∧ b = true) (ThreadSlots.clearCurrent enter)
      (ThreadSlots.clearCurrent enter') := by
  refine .bind current? fun a b ⟨ha, hb⟩ => ?_
  subst ha hb
  refine .bind (unset_liveSet id) fun c _ ⟨hc, hset⟩ => ?_
  subst hc
  rw [bind_liveSet?_ambientForm]
  cases hlive : c.bind Cell.liveSet? with
  | none => exact .bind (count _) fun _ _ _ => .pure ⟨rfl, rfl⟩
  | some set =>
    rw [Option.map_some]
    dsimp only
    rw [set.variables_ambientForm]
    refine .bind (.tryCatch (clearEach henter id _ (hset set hlive)) fun stop => ?_) fun _ _ _ =>
      .bind (count _) fun _ _ _ => .pure ⟨rfl, rfl⟩
    exact .bind (modifyThread (fun _ => rfl) (fun _ h => h) (fun _ h => h) fun _ => rfl) fun _ _ _ =>
      .throw stop

theorem clearTable :
    Coupled (Recast id) (fun a b => a = true ∧ b = true) (ThreadSlots.clearTable enter)
      (ThreadSlots.clearTable enter') := by
  refine .bind settings fun c _ hc => ?_
  subst hc
  exact .ite (.bind shared.untrackThread fun _ _ _ => clearCurrent henter) (clearCurrent henter)

theorem clearThread :
    Coupled (Recast id) (fun _ _ => True) (ThreadSlots.clearThread enter)
      (ThreadSlots.clearThread enter') := by
  refine .bind (clearTable henter) fun a b ⟨ha, hb⟩ => ?_
  subst ha hb
  exact discard

/-- The last clearing, which gives the carried table up once it is through. -/
theorem clearAndRelease {sc : Scene} (h : sc.OnContext id) :
    runOn (ThreadSlots.clearAndRelease enter') sc.ambientForm =
      ((runOn (ThreadSlots.clearAndRelease enter) sc).1,
        (runOn (ThreadSlots.clearAndRelease enter) sc).2.ambientForm) := by
  have hclear := clearTable henter sc sc.ambientForm ⟨rfl, h⟩
  unfold ThreadSlots.clearAndRelease
  rw [runOn_bind, runOn_bind]
  generalize runOn (ThreadSlots.clearTable enter) sc = ended at hclear
  generalize runOn (ThreadSlots.clearTable enter') sc.ambientForm = ended' at hclear
  obtain ⟨a, s⟩ := ended
  obtain ⟨b, s'⟩ := ended'
  obtain ⟨ho, hform, hs⟩ := hclear
  dsimp only at hform hs
  subst hform
  cases ho with
  | error stop => rfl
  | ok hab =>
    obtain ⟨rfl, rfl⟩ := hab
    have hcarried : s.ambientForm.thread.carried? = some id := hs.carried
    dsimp only
    rw [if_pos rfl, runOn_bind, runOn_bind, runOn_release, runOn_release, hs.carried, hcarried]
    rfl

theorem upkeep {op : Upkeep} (hop : Command.Stays (.onThread op)) :
    Coupled (Recast id) Eq (op.run enter) (op.run enter') := by
  cases op with
  | clear => exact .bind (clearThread henter) fun _ _ _ => .pure rfl
  | destroy => exact .bind shared.destroyFallbacks fun _ _ _ => .pure rfl
  | discard => exact .bind discard fun _ _ _ => .pure rfl
  | isCarrying => exact .bind isCarrying fun _ _ hb => .pure (by rw [hb])
  | liveCount => exact .bind liveCount fun _ _ hn => .pure (by rw [hn])
  | hasTable => exact .bind current? fun _ _ ⟨ha, hb⟩ => .pure (by rw [ha, hb])
  | threadName => exact .bind thread fun _ _ ⟨ht, _⟩ => .pure (by rw [ht]; rfl)
  | adopt name =>
    refine .bind adopt fun i j ⟨hi, hj⟩ => ?_
    subst hj hi
    refine .bind (bindTable fun _ => rfl) fun _ _ _ => .bind isCarrying fun carrying _ hc => ?_
    subst hc
    refine .bind (table i) fun t _ ⟨ht, _⟩ => .pure ?_
    rw [ht, Table.describeContext_ambientForm]
  | adoptSize =>
    refine .bind adopt fun i j ⟨hi, hj⟩ => ?_
    subst hj hi
    refine .bind isCarrying fun carrying _ hc => ?_
    subst hc
    exact .bind (table i) fun _ _ ⟨ht, _⟩ => .pure (by rw [ht, Table.size_ambientForm])
  | release name => exact hop.elim

/-! ## Commands and scripts -/

theorem accessHandle (handle : Nat) (place : Place) {op : Access}
    (hbody : ∀ nested, op = .withValue (some nested) → ∀ value, (nested value).Only Command.Stays) :
    Coupled (Recast id) Eq (ThreadSlots.accessHandle enter handle place op)
      (ThreadSlots.accessHandle enter' handle place.ambientForm op.ambientForm) := by
  refine bind_lookup handle fun v hv => ?_
  cases v with
  | none => exact .pure rfl
  | some v => exact access henter (hv v rfl) place hbody

theorem setRow (factor : Int) (handle n : Nat) :
    Coupled (Recast id) Eq (ThreadSlots.setRow enter factor handle n)
      (ThreadSlots.setRow enter' factor handle n) := by
  induction n generalizing handle with
  | zero => exact .pure rfl
  | succ n ih =>
    refine .bind (accessHandle henter handle .ambient nofun) fun reply _ hreply => ?_
    subst hreply
    split
    · exact ih (handle + 1)
    · exact ih (handle + 1)
    · exact .pure rfl

theorem getRow (handle n : Nat) :
    Coupled (Recast id) Eq (ThreadSlots.getRow enter handle n)
      (ThreadSlots.getRow enter' handle n) := by
  induction n generalizing handle with
  | zero => exact .pure rfl
  | succ n ih =>
    refine .bind (accessHandle henter handle .ambient nofun) fun reply _ hreply => ?_
    exact .bind (ih (handle + 1)) fun replies _ hreplies => .pure (by rw [hreply, hreplies])

/-- A command that stays does the same as its ambient form. -/
theorem command {c : Command} (hc : Command.Only Command.Stays c) :
    Coupled (Recast id) Eq (c.run enter) (c.ambientForm.run enter') := by
  cases c with
  | declare kind initial hook =>
    rw [Command.declare_ambientForm]
    exact .bind (declare kind fun s hs => hc.nested (.declare kind hs)) fun _ _ hm =>
      .pure (by rw [hm])
  | declareRow n kind initial hook =>
    rw [Command.declareRow_ambientForm]
    cases n with
    | zero => exact .pure rfl
    | succ m =>
      exact .bind (coupled_declareRow (declare kind fun s hs =>
        hc.nested (.declareRow (m + 1) kind hs)) m) fun _ _ hm => .pure (by rw [hm])
  | access handle place op =>
    refine accessHandle henter handle place ?_
    intro nested hop value
    subst hop
    exact hc.nested (.body handle place nested value)
  | setRow first last factor => exact setRow henter factor first _
  | getRow first last =>
    exact .bind (getRow henter first _) fun _ _ hreplies => .pure (by rw [hreplies])
  | slotOf handle =>
    exact bind_lookup handle fun v _ => by cases v <;> exact .pure rfl
  | describe handle =>
    refine bind_lookup handle fun v _ => ?_
    cases v with
    | none => exact .pure rfl
    | some v => exact .pure (by rw [v.describe_ambientForm])
  | duplicate handle =>
    refine bind_lookup handle fun v _ => ?_
    cases v with
    | none => exact .pure rfl
    | some v =>
      refine .bind shared.takeHandle fun copy _ hcopy => ?_
      subst hcopy
      exact .bind (shared.bindHandle copy v.slot) fun _ _ _ => .pure rfl
  | drop handle =>
    refine bind_lookup handle fun v _ => ?_
    rw [Option.isSome_map]
    exact .bind (change ⟨fun _ _ => rfl, fun _ _ => rfl⟩) fun _ _ _ => .pure rfl
  | compare a b =>
    refine bind_lookup a fun x _ => ?_
    cases x with
    | none => exact .pure rfl
    | some x => exact bind_lookup b fun y _ => by cases y <;> exact .pure rfl
  | onThread op => exact upkeep henter hc.holds
  | onTables op => exact tableCommand hc.holds
  | onProcess op => exact shared.processCommand op
  | onWatchers op => exact shared.watchCommand op

theorem perform {c : Command} (hc : Command.Only Command.Stays c) :
    Coupled (Recast id) Eq (ThreadSlots.perform enter c)
      (ThreadSlots.perform enter' c.ambientForm) := by
  refine .tryCatch (command henter hc) fun stop => ?_
  cases stop with
  | refused e => exact .pure rfl
  | panicked message => exact .throw _

theorem script : ∀ s : Script, s.Only Command.Stays →
    Coupled (Recast id) Eq (s.run enter) (s.ambientForm.run enter')
  | .done _, _ => .pure rfl
  | .panic _, _ => .throw _
  | .step name _ next, hs => by
    cases hs with
    | step _ hc hnext =>
      refine .bind (coupled_caught (perform henter hc)) fun answer _ hanswer => ?_
      subst hanswer
      exact .bind (coupled_reportStep emit name answer) fun _ _ _ =>
        script (next answer) (hnext answer)

end Callbacks

/-- Nested code that stays does the same as its ambient form, however deep it nests. -/
theorem enter (depth : Nat) {s : Script} (hs : s.Only Command.Stays) :
    Coupled (Recast id) Eq (ThreadSlots.enter depth s)
      (ThreadSlots.enter depth s.ambientForm) := by
  induction depth generalizing s with
  | zero => exact .bind (emit _) fun _ _ _ => .pure rfl
  | succ depth ih => exact script (fun _ => ih) s hs

end Context

end ThreadSlots
