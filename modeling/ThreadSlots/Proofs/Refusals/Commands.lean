import ThreadSlots.Proofs.Refusals.Writes

/-!
# Commands that are refused

Three things can be refused to a thread: an index when the supply has no more of them, a slot by a
number that no supply hands out, and storing the unset sentinel under the strict policy
(`Command.Refused`). Commands that do none of these never are (`Scene.Able.refused`).
-/

namespace ThreadSlots

open Storage

/-! ## Commands -/

/-- Why a command is refused, in which scene it then ends. -/
inductive Command.Refused (sc : Scene) : Command → StorageError → Scene → Prop where
  /-- A variable is made, and no index is left. -/
  | declare {kind : Kind} {initial : Initializer} {hook : Option Hook} {sc' : Scene}
    (hnext : maxSlot < sc'.process.supply.next) :
    Refused sc (.declare kind initial hook) SlotSupply.exhausted sc'
  | declareRow {n : Nat} {kind : Kind} {initial : Initializer} {hook : Option Hook} {sc' : Scene}
    (hnext : maxSlot < sc'.process.supply.next) :
    Refused sc (.declareRow n kind initial hook) SlotSupply.exhausted sc'
  /-- The supply is asked for an index directly, and none is left. -/
  | burn {n : Nat} {sc' : Scene} (hnext : maxSlot < sc'.process.supply.next) :
    Refused sc (.onProcess (.burn n)) SlotSupply.exhausted sc'
  /-- A supply is asked for a slot that none hands out. -/
  | new {name : String} {policy : Option SentinelPolicy} {raw : List (Nat × Value)} {n : Nat}
    {x : Value} {sc' : Scene} (hmem : (n, x) ∈ raw) (hn : maxSlot < n) :
    Refused sc (.onTables (.new name policy raw)) SlotSupply.exhausted sc'
  | peek {name : String} {n : Nat} {sc' : Scene} (hn : maxSlot < n) :
    Refused sc (.onTables (.peek name n)) SlotSupply.exhausted sc'
  /-- The unset sentinel is stored under the strict policy. -/
  | sentinel {handle : Nat} {place : Place} {v : Variable} {id : TableId} {sc' : Scene}
    (hv : sc.process.resolve? handle = some v) (hid : runOn place.resolve sc = (.ok (some id), sc'))
    (hpolicy : (sc'.thread.table id).policy = .strict) :
    Refused sc (.access handle place (.store none)) (.sentinelStored v.slot) sc'

theorem refused_declare {kind : Kind} {initial : Initializer} {hook : Option Hook} {sc sc' : Scene}
    {e : StorageError} (h : runOn (declare kind initial hook) sc = (.error (.refused e), sc')) :
    e = SlotSupply.exhausted ∧ maxSlot < sc'.process.supply.next := by
  rw [runOn_declare] at h
  split at h
  · cases h
  · next hnext =>
    cases h
    exact ⟨rfl, Nat.lt_of_not_le hnext⟩

theorem refused_declareRow {kind : Kind} {initial : Initializer} {hook : Option Hook} {n : Nat}
    {sc sc' : Scene} {e : StorageError}
    (h : runOn (declareRow kind initial hook n) sc = (.error (.refused e), sc')) :
    e = SlotSupply.exhausted ∧ maxSlot < sc'.process.supply.next := by
  induction n generalizing sc' with
  | zero =>
    obtain hrun | ⟨made, sc₁, -, hend⟩ := runOn_bind_eq_error.1 h
    · exact refused_declare hrun
    · cases hend
  | succ n ih =>
    obtain hrow | ⟨made, sc₁, -, hlast⟩ := runOn_bind_eq_error.1 h
    · exact ih hrow
    · obtain hrun | ⟨last, sc₂, -, hend⟩ := runOn_bind_eq_error.1 hlast
      · exact refused_declare hrun
      · cases hend

/-- Values are put into a table that can take them, at slots that may not exist. -/
theorem refused_preload {id : TableId} {raw : List (Nat × Value)} {sc sc' : Scene} {e : StorageError}
    (hg : (sc.thread.table id).Grown) (h : runOn (preload id raw) sc = (.error (.refused e), sc')) :
    e = SlotSupply.exhausted ∧ ∃ n x, (n, x) ∈ raw ∧ maxSlot < n := by
  induction raw generalizing sc with
  | nil => cases h
  | cons entry raw ih =>
    obtain ⟨n, x⟩ := entry
    unfold preload at h
    rw [runOn_bind, runOn_modifyThread] at h
    dsimp only at h
    rw [runOn_bind] at h
    rcases SlotSupply.slot_cases n with ⟨hle, hslot⟩ | ⟨hlt, hslot⟩
    · obtain ⟨stored, hstored, hgrown⟩ := Table.exists_insert hg hle (.value x)
      obtain ⟨sc₁, hrun, hlike⟩ := ends_store
        { sc with thread := { sc.thread with filled := id :: sc.thread.filled } } hstored
      rw [hslot, runOn_ofExcept] at h
      dsimp only at h
      rw [runOn_bind, hrun] at h
      have htable : (sc₁.thread.table id).Grown := by
        rw [hlike.thread_table]
        show ((Scene.setTable _ id stored.table).thread.table id).Grown
        rw [Scene.table_setTable_self]
        exact hgrown
      obtain ⟨he, m, y, hmem, hm⟩ := ih htable h
      exact ⟨he, m, y, List.mem_cons_of_mem _ hmem, hm⟩
    · rw [hslot, runOn_ofExcept] at h
      cases h
      exact ⟨rfl, n, x, List.mem_cons_self, hlt⟩

theorem refused_filled {make : Storage TableId} {name : String} {raw : List (Nat × Value)}
    {sc sc₁ : Scene} {id : TableId} (hmake : runOn make sc = (.ok id, sc₁))
    (hg : (sc₁.thread.table id).Grown) {e : StorageError}
    (he : refusal? (runOn (do
      let id ← make
      preload id raw
      bindTable name id
      return Reply.done) sc).1 = some e) :
    e = SlotSupply.exhausted ∧ ∃ n x, (n, x) ∈ raw ∧ maxSlot < n := by
  obtain ⟨sc₂, hrun⟩ | ⟨id', sc₂, hrun, hrest⟩ := refusal?_bind_eq_some he
  all_goals cases hmake.symm.trans hrun
  obtain ⟨sc₃, hfill⟩ | ⟨_, sc₃, -, hend⟩ := refusal?_bind_eq_some hrest
  · exact refused_preload hg hfill
  · cases hend

theorem refused_new {name : String} {policy : Option SentinelPolicy} {raw : List (Nat × Value)}
    {sc : Scene} {e : StorageError}
    (he : refusal? (runOn (TableCommand.run (.new name policy raw)) sc).1 = some e) :
    e = SlotSupply.exhausted ∧ ∃ n x, (n, x) ∈ raw ∧ maxSlot < n := by
  cases policy with
  | none =>
    refine refused_filled (runOn_freshTable sc) ?_ he
    rw [sc.like_makeBlank.symm.thread_table, Scene.table_makeTable, if_pos rfl]
    exact Table.grown_mk _
  | some policy =>
    refine refused_filled (runOn_newTable sc policy) ?_ he
    show ((sc.makeTable { policy := policy }).thread.table _).Grown
    rw [Scene.table_makeTable, if_pos rfl]
    exact Table.grown_mk _

theorem refused_peek {name : String} {n : Nat} {sc : Scene} {e : StorageError}
    (he : refusal? (runOn (TableCommand.run (.peek name n)) sc).1 = some e) :
    e = SlotSupply.exhausted ∧ maxSlot < n := by
  unfold TableCommand.run at he
  rw [runOn_bind, runOn_thread] at he
  dsimp only at he
  split at he
  · rw [runOn_bind] at he
    rcases SlotSupply.slot_cases n with ⟨-, hslot⟩ | ⟨hn, hslot⟩
    · rw [hslot, runOn_ofExcept] at he
      cases he
    · rw [hslot, runOn_ofExcept] at he
      cases he
      exact ⟨rfl, hn⟩
  · cases he

theorem runOn_burn (n : Nat) (sc : Scene) :
    runOn (ProcessCommand.run (.burn n)) sc =
      runOn (match (sc.process.supply.takeLast n).1 with
        | none => return .done
        | some answer => return .number (← ofExcept answer))
      { sc with
        process :=
          { sc.process with
            supply := (sc.process.supply.takeLast n).2
            burned := sc.process.burned +
              ((sc.process.supply.takeLast n).2.taken - sc.process.supply.taken) } } := rfl

theorem refused_burn {n : Nat} {sc : Scene} {e : StorageError}
    (he : refusal? (runOn (ProcessCommand.run (.burn n)) sc).1 = some e) :
    e = SlotSupply.exhausted ∧
      maxSlot < (runOn (ProcessCommand.run (.burn n)) sc).2.process.supply.next := by
  rw [runOn_burn] at he ⊢
  rcases hlast : (sc.process.supply.takeLast n).1 with _ | e' | slot
  all_goals
    rw [hlast] at he
    cases he
  exact SlotSupply.takeLast_eq_error hlast

/-- Storing the sentinel is refused under the strict policy and by no other. -/
theorem refused_sentinel {limit handle : Nat} {place : Place} {sc : Scene} {e : StorageError}
    (he : refusal? (runOn (accessHandle (enter limit) handle place (.store none)) sc).1 =
      some e) :
    Command.Refused sc (.access handle place (.store none)) e
      (runOn (accessHandle (enter limit) handle place (.store none)) sc).2 := by
  unfold accessHandle at he ⊢
  rw [runOn_bind, runOn_lookup] at he ⊢
  rcases hv : sc.process.resolve? handle with _ | v
  · rw [hv] at he
    cases he
  · rw [hv] at he
    dsimp only [Access.run, Option.map_none] at he ⊢
    obtain ⟨sc₁, hstop⟩ | ⟨id, sc₁, hresolve, hrest⟩ := refusal?_bind_eq_some he
    · obtain ⟨message, hpanic⟩ := Panics.resolve place _ _ _ hstop
      cases hpanic
    · cases id with
      | none => cases hrest
      | some id =>
        obtain ⟨sc₂, hstore⟩ | ⟨_, sc₂, -, hend⟩ := refusal?_bind_eq_some hrest
        · obtain ⟨hpolicy, rfl, rfl⟩ := storeIn_none_refused (Panics.enter limit) hstore
          rw [runOn_bind, hresolve]
          dsimp only
          rw [runOn_bind, hstore]
          exact .sentinel hv hresolve hpolicy
        · cases hend

theorem refused_of_strict (limit : Nat) {handle : Nat} {place : Place} {v : Variable} {id : TableId}
    {sc sc' : Scene} (hv : sc.process.resolve? handle = some v)
    (hid : runOn place.resolve sc = (.ok (some id), sc'))
    (hpolicy : (sc'.thread.table id).policy = .strict) :
    runOn (perform (enter limit) (.access handle place (.store none))) sc =
      (.ok (.refused (.sentinelStored v.slot)), sc') := by
  have hrun : runOn (accessHandle (enter limit) handle place (.store none)) sc =
      (.error (.refused (.sentinelStored v.slot)), sc') := by
    unfold accessHandle
    rw [runOn_bind, runOn_lookup, hv]
    dsimp only [Access.run, Option.map_none]
    rw [runOn_bind, hid]
    dsimp only
    rw [runOn_bind, runOn_storeIn_strict (enter limit) hpolicy]
  unfold perform Command.run
  rw [runOn_tryCatch, hrun]
  rfl

theorem refused_of_exhausted (enter : Enter) (kind : Kind) (initial : Initializer)
    (hook : Option Hook) {sc : Scene} (hnext : maxSlot < sc.process.supply.next) :
    (runOn (perform enter (.declare kind initial hook)) sc).1 =
      .ok (.refused SlotSupply.exhausted) := by
  unfold perform Command.run
  rw [runOn_tryCatch, runOn_bind, runOn_declare, if_neg (Nat.not_le.2 hnext)]
  rfl

/-! ## Commands of every kind -/

/-- What is never refused is not. -/
theorem Frank.elim {x : Storage Reply} (hx : Frank x) {sc : Scene} {e : StorageError} {p : Prop}
    (he : refusal? (runOn x sc).1 = some e) : p :=
  absurd (he.symm.trans (hx sc)) (by simp)

/-- Of the commands on tables those are refused that name a slot by its number. -/
theorem refused_tableCommand {op : TableCommand} {sc : Scene} {e : StorageError}
    (he : refusal? (runOn op.run sc).1 = some e) :
    Command.Refused sc (.onTables op) e (runOn op.run sc).2 := by
  cases op with
  | new name policy raw =>
    obtain ⟨rfl, n, x, hmem, hn⟩ := refused_new he
    exact .new hmem hn
  | peek name n =>
    obtain ⟨rfl, hn⟩ := refused_peek he
    exact .peek hn
  | current name =>
    have hfrank : Frank (TableCommand.run (.current name)) :=
      .bind .current fun id => .bind (.bindTable name id) fun _ => .pure rfl
    exact hfrank.elim he
  | currentIfSet name =>
    have hfrank : Frank (TableCommand.run (.currentIfSet name)) := by
      refine .bind .current? fun id => ?_
      split
      · exact .bind (.bindTable name _) fun _ => .pure rfl
      · exact .pure rfl
    exact hfrank.elim he
  | copy source name =>
    have hfrank : Frank (TableCommand.run (.copy source name)) := by
      refine .bind .thread fun t => ?_
      split
      · exact .bind (.bindTable name _) fun _ => .pure rfl
      · exact .pure rfl
    exact hfrank.elim he
  | drop name =>
    have hfrank : Frank (TableCommand.run (.drop name)) :=
      .bind .thread fun _ => .bind (.modifyThread _) fun _ => .pure rfl
    exact hfrank.elim he
  | same a b =>
    have hfrank : Frank (TableCommand.run (.same a b)) := by
      refine .bind .thread fun t => ?_
      split
      · refine .bind .thread fun t => ?_
        split <;> exact .pure rfl
      · exact .pure rfl
    exact hfrank.elim he
  | info name =>
    have hfrank : Frank (TableCommand.run (.info name)) := by
      refine .bind .thread fun t => ?_
      split
      · exact .bind (.table _) fun _ => .pure rfl
      · exact .pure rfl
    exact hfrank.elim he

theorem refused_processCommand {op : ProcessCommand} {sc : Scene} {e : StorageError}
    (he : refusal? (runOn op.run sc).1 = some e) :
    Command.Refused sc (.onProcess op) e (runOn op.run sc).2 := by
  cases op with
  | burn n =>
    obtain ⟨rfl, hnext⟩ := refused_burn he
    exact .burn hnext
  | tally | supply | environmentSettings => cases he
  | settings | policy => exact Frank.elim (.bind .settings fun _ => .pure rfl) he
  | install c =>
    have hfrank : Frank (ProcessCommand.run (.install c)) := by
      refine .bind .process fun p => ?_
      split
      · exact .pure rfl
      · exact .bind (.modifyProcess _) fun _ => .pure rfl
    exact hfrank.elim he

section

variable (enter : Enter) (c : Command) (sc : Scene)

/-- A command that is refused replies that. -/
theorem refusal?_perform :
    refusal? (runOn (perform enter c) sc).1 = refusal? (runOn (c.run enter) sc).1 := by
  unfold perform
  rw [runOn_tryCatch]
  rcases runOn (c.run enter) sc with ⟨(e | message) | reply, sc₁⟩ <;> rfl

theorem scene_perform : (runOn (perform enter c) sc).2 = (runOn (c.run enter) sc).2 := by
  unfold perform
  rw [runOn_tryCatch]
  rcases runOn (c.run enter) sc with ⟨(e | message) | reply, sc₁⟩ <;> rfl

end

namespace Scene.Able

variable {sc : Scene} (h : sc.Able)

include h

/-- What is done to the variable of a handle is refused only if it stores the sentinel. -/
theorem accessHandle (limit handle : Nat) (place : Place) {op : Access} (hop : op ≠ .store none) :
    refusal? (runOn (accessHandle (enter limit) handle place op) sc).1 = none := by
  refine Granted.reply (.of_panics (.lookup handle)) fun v sc₁ hrun => ?_
  rw [runOn_lookup] at hrun
  cases hrun
  rcases hv : sc.process.resolve? handle with _ | v
  · rfl
  · exact h.access (h.slot_le hv) limit place hop

theorem setRow (limit : Nat) (factor : Int) (handle n : Nat) :
    refusal? (runOn (setRow (enter limit) factor handle n) sc).1 = none := by
  induction n generalizing handle sc with
  | zero => rfl
  | succ n ih =>
    have haccess : ∀ value, refusal? (runOn
        (ThreadSlots.accessHandle (enter limit) handle .ambient (.set value)) sc).1 = none :=
      fun value => h.accessHandle limit handle .ambient (by simp)
    refine Granted.reply (.of_reply (haccess _)) fun reply sc₁ hrun => ?_
    have h₁ : sc₁.Able := h.walk (.accessHandle (walks_enter limit) handle _ _) hrun
    have hreply := haccess (.int (wrap (handle * factor)))
    rw [hrun] at hreply
    split
    · exact ih h₁ _
    · exact ih h₁ _
    · exact hreply

theorem getRow (limit handle n : Nat) :
    refusal? ((runOn (getRow (enter limit) handle n) sc).1.map .several) = none := by
  induction n generalizing handle sc with
  | zero => rfl
  | succ n ih =>
    have haccess : refusal? (runOn
        (ThreadSlots.accessHandle (enter limit) handle .ambient .get) sc).1 = none :=
      h.accessHandle limit handle .ambient (by simp)
    unfold ThreadSlots.getRow
    rw [runOn_bind]
    rcases hrun : runOn (ThreadSlots.accessHandle (enter limit) handle .ambient .get) sc
      with ⟨(e | message) | reply, sc₁⟩
    all_goals rw [hrun] at haccess
    · cases haccess
    · rfl
    · have h₁ : sc₁.Able := h.walk (.accessHandle (walks_enter limit) handle _ _) hrun
      have hrest := ih h₁ (handle + 1)
      dsimp only
      rw [runOn_bind]
      rcases hrow : runOn (ThreadSlots.getRow (enter limit) (handle + 1) n) sc₁
        with ⟨(e | message) | replies, sc₂⟩
      all_goals rw [hrow] at hrest
      · cases hrest
      · rfl
      · have hreply : reply.refusal? = none := haccess
        have hreplies : firstRefusal? replies = none := hrest
        show reply.refusal?.or (firstRefusal? replies) = none
        rw [hreply, hreplies]
        rfl

/-- What is refused is one of a few commands, for one of a few reasons. -/
theorem refused (limit : Nat) (c : Command) {e : StorageError}
    (he : refusal? (runOn (perform (enter limit) c) sc).1 = some e) :
    c.Refused sc e (runOn (perform (enter limit) c) sc).2 := by
  rw [refusal?_perform] at he
  rw [scene_perform]
  cases c with
  | declare kind initial hook =>
    obtain ⟨sc₁, hrun⟩ | ⟨made, sc₁, -, hend⟩ := refusal?_bind_eq_some he
    · obtain ⟨rfl, hnext⟩ := refused_declare hrun
      unfold Command.run
      rw [runOn_bind, hrun]
      exact .declare hnext
    · cases hend
  | declareRow n kind initial hook =>
    cases n with
    | zero => cases he
    | succ n =>
      obtain ⟨sc₁, hrun⟩ | ⟨made, sc₁, -, hend⟩ := refusal?_bind_eq_some he
      · obtain ⟨rfl, hnext⟩ := refused_declareRow hrun
        unfold Command.run
        dsimp only
        rw [runOn_bind, hrun]
        exact .declareRow hnext
      · cases hend
  | access handle place op =>
    by_cases hop : op = .store none
    · subst hop
      exact refused_sentinel he
    · exact absurd (he.symm.trans (h.accessHandle limit handle place hop)) (by simp)
  | setRow first last factor =>
    exact absurd (he.symm.trans (h.setRow limit factor first (last - first))) (by simp)
  | getRow first last =>
    have hrow := h.getRow limit first (last - first)
    obtain ⟨sc₁, hrun⟩ | ⟨replies, sc₁, hrun, hreplies⟩ := refusal?_bind_eq_some he
    all_goals rw [hrun] at hrow
    · cases hrow
    · exact absurd (hreplies.symm.trans hrow) (by simp)
  | slotOf handle => exact (Frank.slotOf _ handle).elim he
  | describe handle => exact (Frank.describe _ handle).elim he
  | duplicate handle => exact (Frank.duplicate _ handle).elim he
  | drop handle => exact (Frank.drop _ handle).elim he
  | compare a b => exact (Frank.compare _ a b).elim he
  | onThread op => exact (Frank.upkeep (Panics.enter limit) op).elim he
  | onTables op => exact refused_tableCommand he
  | onProcess op => exact refused_processCommand he
  | onWatchers op => exact (Frank.watchCommand op).elim he

end Scene.Able

end ThreadSlots
