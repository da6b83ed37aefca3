import ThreadSlots.Proofs.Panics
import ThreadSlots.Proofs.Readiness
import ThreadSlots.Proofs.Registration
import ThreadSlots.Proofs.Tables.Contents

/-!
# Writes that are not refused

A variable that has a slot can take a value in every table of every thread, at every point of every
session: the largest slot that a supply hands out is below the largest capacity, and each table is one
that grew from a new one. So what a thread does with a variable is refused only where it stores the
unset sentinel (`Scene.Able.access`). Only who grows a table by hand can be told that its capacity is
exhausted (`TableStep.Refused`).

A write has two steps that could be refused, of which the second one registers the variable in the
table's live set. It never is: the reserved slot lies below the capacity of every table
(`exists_track`). So a refused write has left everything as it was.
-/

namespace ThreadSlots

open Storage

/-! ## Indices -/

namespace SlotSupply

theorem slot_cases (n : Nat) :
    (n ≤ maxSlot ∧ slot n = .ok n) ∨ (maxSlot < n ∧ slot n = .error exhausted) := by
  have hslot : slot n = answerAt n := congrArg Prod.fst (take_eq (startingAt n))
  rw [hslot, answerAt]
  by_cases h : n ≤ maxSlot
  · exact .inl ⟨h, if_pos h⟩
  · exact .inr ⟨Nat.lt_of_not_le h, if_neg h⟩

/-- The last of several requests is refused only if no index is left after them. -/
theorem takeLast_eq_error {s : SlotSupply} {n : Nat} {e : StorageError}
    (h : (s.takeLast n).1 = some (.error e)) :
    e = exhausted ∧ maxSlot < (s.takeLast n).2.next := by
  unfold takeLast at h ⊢
  rw [takeMany_eq] at h ⊢
  cases n with
  | zero => cases h
  | succ n =>
    dsimp only at h ⊢
    rw [List.range'_concat, List.map_append, List.map_singleton, List.getLast?_concat, answerAt] at h
    split at h
    · cases h
    · cases h
      exact ⟨rfl, by omega⟩

end SlotSupply

/-- A supply has handed out the variable's slot. -/
def Variable.HandedOut (v : Variable) : Prop := ∃ supply : SlotSupply, supply.take.1 = .ok v.slot

theorem Variable.HandedOut.slot_le {v : Variable} (h : v.HandedOut) : v.slot ≤ maxSlot := by
  obtain ⟨supply, h⟩ := h
  rw [SlotSupply.take_eq, SlotSupply.answerAt] at h
  split at h
  · next hle =>
    rw [← Except.ok.inj h]
    exact hle
  · cases h

theorem Variable.handedOut {v : Variable} (h : v.slot ≤ maxSlot) : v.HandedOut := by
  refine ⟨.startingAt v.slot, ?_⟩
  rcases SlotSupply.slot_cases v.slot with ⟨-, hslot⟩ | ⟨hlt, -⟩
  · exact hslot
  · omega

/-! ## A table that is grown by hand -/

/-- The slots that a step names by their numbers. -/
def TableStep.Names : TableStep → Nat → Prop
  | .insert slot _ | .store slot _ | .get slot | .erase slot | .contains slot
  | .describeEntry slot => (· = slot)
  | .fill slot count => fun n => slot ≤ n ∧ n < slot + count
  | .growTo _ | .policy | .describe => fun _ => False

/-- What a table of the given policy can refuse to do. -/
inductive TableStep.Refused (policy : SentinelPolicy) : TableStep → StorageError → Prop where
  /-- No supply hands out the slot. -/
  | index {s : TableStep} {n : Nat} (hnames : s.Names n) (hn : maxSlot < n) :
    Refused policy s SlotSupply.exhausted
  | sentinel {slot : Nat} (hpolicy : policy = .strict) :
    Refused policy (.store slot none) (.sentinelStored slot)
  /-- No table can grow so far. -/
  | growTo {index : Nat} (hindex : maxCapacity ≤ index) :
    Refused policy (.growTo index) Table.outOfCapacity

namespace TableTrial

variable {trial : TableTrial}

/-- What a table does under observation. -/
theorem update_of_eq {β : Type} {f : Table Value → β × Table Value} {b : β} {u : Table Value}
    (h : f trial.table = (b, u)) :
    ∃ expansions, trial.update f = (b, { table := u, expansions := expansions }) := by
  have hupdate : trial.update f = ((f trial.table).1, { table := (f trial.table).2, expansions :=
      trial.expansions + if trial.table.capacity < (f trial.table).2.capacity then 1 else 0 }) := rfl
  rw [h] at hupdate
  exact ⟨_, hupdate⟩

/-- A value is stored into a slot that exists. -/
theorem exists_update_set (ht : trial.table.Grown) {slot : Nat} (hs : slot ≤ maxSlot)
    (value : Value) :
    ∃ outcome after, trial.update (·.set slot value) = (.ok outcome, after) ∧ after.table.Grown := by
  obtain ⟨stored, hstored, hgrown⟩ := Table.exists_insert ht hs value
  have hset : trial.table.set slot value = stored.done := by
    rw [Table.set_eq, Table.calling, hstored]
  obtain ⟨expansions, h⟩ := update_of_eq (f := (·.set slot value)) hset
  exact ⟨_, _, h, hgrown⟩

/-- A write of a value to a slot that exists is not refused. -/
theorem write_set_ne (ht : trial.table.Grown) {slot : Nat} (hs : slot ≤ maxSlot) (value : Value)
    (e : StorageError) : (trial.write (·.set slot value)).1 ≠ .refused e := by
  obtain ⟨outcome, after, h, -⟩ := exists_update_set ht hs value
  rw [write, h]
  exact fun h => by cases h

/-- A step at a slot is refused because the slot does not exist, or where it is done. -/
theorem refused_at? {slot : Nat} {f : Nat → TableReply × TableTrial} {e : StorageError}
    (h : (trial.at? slot f).1 = .refused e) :
    (maxSlot < slot ∧ e = SlotSupply.exhausted) ∨ (slot ≤ maxSlot ∧ (f slot).1 = .refused e) := by
  unfold at? at h
  rcases SlotSupply.slot_cases slot with ⟨hle, hslot⟩ | ⟨hlt, hslot⟩
  · rw [hslot] at h
    exact .inr ⟨hle, h⟩
  · rw [hslot] at h
    cases h
    exact .inl ⟨hlt, rfl⟩

theorem refused_fill (ht : trial.table.Grown) {slot i n : Nat} {e : StorageError}
    (h : (trial.fill slot i n).1 = .refused e) :
    e = SlotSupply.exhausted ∧ ∃ k, maxSlot < k ∧ slot ≤ k ∧ k < slot + n := by
  induction n generalizing trial slot i with
  | zero => cases h
  | succ n ih =>
    unfold fill at h
    rcases SlotSupply.slot_cases slot with ⟨hle, hslot⟩ | ⟨hlt, hslot⟩
    · obtain ⟨outcome, after, hset, hnext⟩ := exists_update_set ht hle (.int i)
      simp only [hslot, hset] at h
      obtain ⟨he, k, hk, hle, hlt⟩ := ih hnext h
      exact ⟨he, k, hk, by omega, by omega⟩
    · simp only [hslot] at h
      cases h
      exact ⟨rfl, slot, hlt, Nat.le_refl _, by omega⟩

theorem step_growTo_of_le (ht : trial.table.Grown) {index : Nat} (hi : maxCapacity ≤ index) :
    (trial.step (.growTo index)).1 = .refused Table.outOfCapacity := by
  obtain ⟨expansions, h⟩ := update_of_eq (f := (·.expand index))
    (show trial.table.expand index = (.error Table.outOfCapacity, trial.table) by
      rw [ht.expand_eq, if_neg (Nat.not_lt.2 hi)])
  simp only [step, h]

/-- The refusals of a table that grew from a new one. -/
theorem refused_step (ht : trial.table.Grown) {s : TableStep} {e : StorageError}
    (h : (trial.step s).1 = .refused e) : s.Refused trial.table.policy e := by
  cases s with
  | insert slot value =>
    rcases refused_at? h with ⟨hn, rfl⟩ | ⟨hs, hwrite⟩
    · exact .index rfl hn
    · exact absurd hwrite (write_set_ne ht hs value e)
  | store slot entry =>
    rcases refused_at? h with ⟨hn, rfl⟩ | ⟨hs, hwrite⟩
    · exact .index rfl hn
    · cases entry with
      | some value => exact absurd hwrite (write_set_ne ht hs value e)
      | none =>
        cases hp : trial.table.policy with
        | strict =>
          obtain ⟨expansions, hset⟩ := update_of_eq (f := (·.setEntry slot none))
            (show trial.table.setEntry slot none = (.error (.sentinelStored slot), trial.table) by
              rw [Table.setEntry, hp]; rfl)
          simp only [write, hset] at hwrite
          cases hwrite
          exact .sentinel rfl
        | lenient =>
          obtain ⟨expansions, hset⟩ := update_of_eq (f := (·.setEntry slot none))
            (show trial.table.setEntry slot none = (trial.table.erase slot).done by
              rw [Table.setEntry, hp]; rfl)
          simp only [write, hset] at hwrite
          cases hwrite
  | fill slot n =>
    obtain ⟨rfl, k, hk, hnames⟩ := refused_fill ht h
    exact .index hnames hk
  | growTo index =>
    by_cases hi : index < maxCapacity
    · obtain ⟨expansions, hgrow⟩ := update_of_eq (f := (·.expand index))
        (show trial.table.expand index = (.ok (), trial.table.resize (Table.capacityAbove index)) by
          rw [ht.expand_eq, if_pos hi])
      simp only [step, hgrow] at h
      cases h
    · have hle := Nat.le_of_not_lt hi
      rw [step_growTo_of_le ht hle] at h
      cases h
      exact .growTo hle
  | get slot | erase slot | contains slot | describeEntry slot =>
    rcases refused_at? h with ⟨hn, rfl⟩ | ⟨-, hanswer⟩
    · exact .index rfl hn
    · cases hanswer
  | policy | describe => cases h

end TableTrial

/-! ## Writes -/

/-- The table holds the value, and lists the variable if that was not set before. -/
structure Scene.Stored (sc : Scene) (v : Variable) (id : TableId) (x : Value) (sc' : Scene) :
    Prop where
  get? : (sc'.thread.table id).get? v.slot = some (.value x)
  listed : (sc.thread.table id).contains v.slot = false →
    (sc'.thread.table id).live[v.slot]? = some v

namespace Storage

variable {sc sc' : Scene} {v : Variable} {id : TableId}

theorem stored_of_like {x : Value} {stored : Table.Stored Cell} {fate : Fate} {old : Option Cell}
    (hi : (sc.thread.table id).insert v.slot (.value x) = .ok stored)
    (hlike : (((sc.setTable id (stored.track v)).arrived id v.slot (.value x)).parted id v.slot fate
      old).Like sc') (hv : v.slot ≠ reservedSlot) : sc.Stored v id x sc' := by
  have htable : sc'.thread.table id = stored.track v := by
    have hthread : (((sc.setTable id (stored.track v)).arrived id v.slot (.value x)).parted id v.slot
        fate old).thread = (sc.setTable id (stored.track v)).thread := rfl
    rw [hlike.thread_table, hthread, Scene.table_setTable_self]
  refine ⟨?_, fun hunset => ?_⟩
  · rw [htable, Table.get?_track hi hv, if_pos rfl]
  · rw [htable, Table.live_track hi hv, hunset]
    simp

section

variable (hg : (sc.thread.table id).Grown) (hv : v.slot ≤ maxSlot)

include hg hv

theorem exists_putIn (x : Value) (fate : Fate) :
    ∃ old sc', runOn (v.putIn id x fate) sc = (.ok old, sc') ∧
      (v.slot ≠ reservedSlot → sc.Stored v id x sc') := by
  obtain ⟨stored, hstored, -⟩ := Table.exists_insert hg hv (.value x)
  obtain ⟨sc', hrun, hlike⟩ := ends_putIn sc fate hstored
  exact ⟨_, sc', hrun, stored_of_like hstored hlike⟩

theorem exists_setIn (x : Value) :
    ∃ sc', runOn (v.setIn id x) sc = (.ok (), sc') ∧
      (v.slot ≠ reservedSlot → sc.Stored v id x sc') := by
  obtain ⟨old, sc', hput, hstored⟩ := exists_putIn hg hv x .overwritten
  refine ⟨sc', ?_, hstored⟩
  unfold Variable.setIn
  rw [runOn_bind, hput]
  rfl

theorem exists_replaceIn (x : Value) :
    ∃ old sc', runOn (v.replaceIn id x) sc = (.ok old, sc') ∧
      (v.slot ≠ reservedSlot → sc.Stored v id x sc') := by
  obtain ⟨old, sc', hput, hstored⟩ := exists_putIn hg hv x .returned
  refine ⟨old.bind (·.value? v.kind), sc', ?_, hstored⟩
  unfold Variable.replaceIn
  rw [runOn_bind, hput]
  rfl

theorem exists_storeIn (enter : Enter) (x : Value) :
    ∃ sc', runOn (v.storeIn enter id (some x)) sc = (.ok (), sc') ∧
      (v.slot ≠ reservedSlot → sc.Stored v id x sc') := by
  obtain ⟨stored, hstored, -⟩ := Table.exists_insert hg hv (.value x)
  obtain ⟨sc', hrun, hlike⟩ := ends_storeIn_some sc enter hstored
  exact ⟨sc', hrun, stored_of_like hstored hlike⟩

end

/-- The slot of the live set can be addressed in every table. -/
theorem exists_track (sc : Scene) (v : Variable) (id : TableId) :
    ∃ sc', runOn (v.track id) sc = (.ok (), sc') := by
  obtain ⟨sc', htrack, -⟩ := ends_track sc id v
  exact ⟨sc', htrack⟩

theorem putIn_refused {x : Value} {fate : Fate} {e : StorageError}
    (h : runOn (v.putIn id x fate) sc = (.error (.refused e), sc')) : sc' = sc := by
  rcases hi : (sc.thread.table id).insert v.slot (.value x) with e' | stored
  · rw [runOn_putIn_error sc hi] at h
    cases h
    rfl
  · obtain ⟨sc₁, hrun, -⟩ := ends_putIn sc fate hi
    rw [hrun] at h
    cases h

/-- The sentinel is not stored under the strict policy. -/
theorem runOn_storeIn_strict (enter : Enter) (hpolicy : (sc.thread.table id).policy = .strict) :
    runOn (v.storeIn enter id none) sc = (.error (.refused (.sentinelStored v.slot)), sc) := by
  unfold Variable.storeIn
  rw [runOn_bind, Option.map_none, runOn_storeEntry_none, hpolicy]
  rfl

/-- Storing the sentinel is refused by a table of the strict policy alone. What another one accepts is
unset, and only the hook can stop that. -/
theorem storeIn_none_refused {enter : Enter} (henter : ∀ s, Panics (enter s)) {e : StorageError}
    (h : runOn (v.storeIn enter id none) sc = (.error (.refused e), sc')) :
    (sc.thread.table id).policy = .strict ∧ e = .sentinelStored v.slot ∧ sc' = sc := by
  cases hp : (sc.thread.table id).policy with
  | strict =>
    rw [runOn_storeIn_strict enter hp] at h
    cases h
    exact ⟨rfl, rfl, rfl⟩
  | lenient =>
    unfold Variable.storeIn at h
    rw [runOn_bind, Option.map_none, runOn_storeEntry_none, hp] at h
    have hunset : Panics (do
        if !(← v.isSetIn id) then
          v.untrack id
          v.callHook enter id ((sc.thread.table id).get? v.slot)) :=
      .bind (.isSetIn v id) fun _ =>
        .ite (.bind (.untrack v id) fun _ => .callHook henter v id _) (.pure _)
    obtain ⟨message, hpanic⟩ := hunset _ _ _ h
    cases hpanic

theorem storeIn_refused {enter : Enter} (henter : ∀ s, Panics (enter s)) {entry : Option Value}
    {e : StorageError} (h : runOn (v.storeIn enter id entry) sc = (.error (.refused e), sc')) :
    sc' = sc := by
  cases entry with
  | none => exact (storeIn_none_refused henter h).2.2
  | some x =>
    rcases hi : (sc.thread.table id).insert v.slot (.value x) with e' | stored
    · rw [runOn_storeIn_error sc enter hi] at h
      cases h
      rfl
    · obtain ⟨sc₁, hrun, -⟩ := ends_storeIn_some sc enter hi
      rw [hrun] at h
      cases h

end Storage

/-! ## Scenes of a session -/

/-- A scene in which a thread of the session may do something, be it in nested code or in a
destructor. -/
inductive Session.Sees (s : Session) : Scene → Prop where
  | running {a : Actor} {busy : List TableId} {sc : Scene} (ha : a ∈ s.actors)
    (h : Course busy { process := s.process, thread := a.thread } sc) : s.Sees sc

/-- Every table of the thread can grow until it takes the value of any variable. -/
structure Scene.Able (sc : Scene) : Prop where
  sound : sc.Sound
  ready : sc.thread.Ready

theorem Scene.Able.course {busy : List TableId} {sc sc' : Scene} (h : sc.Able)
    (hcourse : Course busy sc sc') : sc'.Able :=
  ⟨hcourse.sound h.sound, keeps_ready.course hcourse h.sound h.ready⟩

namespace Session

/-- Every thread of the session can store the value of any variable. -/
structure Able (s : Session) : Prop where
  sound : s.Sound
  ready : ∀ a ∈ s.actors, a.thread.Ready

variable {s : Session}

theorem able_start (environment : Environment) (depth : Nat) : (start environment depth).Able :=
  ⟨sound_start environment depth, keeps_ready.of_run environment depth []⟩

theorem Able.step (h : s.Able) (x : Step) : (s.step x).2.Able :=
  ⟨(h.sound.step x).2, keeps_ready.step h.sound h.ready x⟩

theorem Able.run (h : s.Able) (steps : List Step) : (s.run steps).2.Able :=
  ⟨h.sound.run steps, keeps_ready.run h.sound h.ready steps⟩

theorem Able.scene (h : s.Able) {a : Actor} (ha : a ∈ s.actors) :
    Scene.Able { process := s.process, thread := a.thread } :=
  ⟨⟨h.sound.process, h.sound.threads a ha⟩, h.ready a ha⟩

theorem Able.sees (h : s.Able) {sc : Scene} (hsc : s.Sees sc) : sc.Able := by
  cases hsc with
  | running ha hcourse => exact (h.scene ha).course hcourse

end Session

/-! ## Granted actions -/

/-- The action is not refused in the scene. -/
def Storage.Granted {α : Type} (x : Storage α) (sc : Scene) : Prop :=
  ∀ e, (runOn x sc).1 ≠ .error (.refused e)

namespace Storage.Granted

variable {α β : Type} {sc : Scene}

theorem of_panics {x : Storage α} (hx : Panics x) : Granted x sc := by
  intro e he
  obtain ⟨message, hpanic⟩ := hx sc _ _ (Prod.ext he rfl)
  cases hpanic

theorem of_ok {x : Storage α} {a : α} {sc' : Scene} (h : runOn x sc = (.ok a, sc')) :
    Granted x sc := by
  intro e he
  rw [h] at he
  cases he

theorem bind {x : Storage α} {f : α → Storage β} (hx : Granted x sc)
    (hf : ∀ a sc₁, runOn x sc = (.ok a, sc₁) → Granted (f a) sc₁) : Granted (x >>= f) sc := by
  intro e he
  obtain hrun | ⟨a, sc₁, hrun, hrest⟩ := runOn_bind_eq_error.1 (Prod.ext he rfl)
  · exact hx e (congrArg Prod.fst hrun)
  · exact hf a sc₁ hrun e (congrArg Prod.fst hrest)

/-- The same of an action that replies. -/
theorem reply {x : Storage α} {f : α → Storage Reply} (hx : Granted x sc)
    (hf : ∀ a sc₁, runOn x sc = (.ok a, sc₁) → refusal? (runOn (f a) sc₁).1 = none) :
    refusal? (runOn (x >>= f) sc).1 = none := by
  by_contra hne
  obtain ⟨e, he⟩ := Option.ne_none_iff_exists'.1 hne
  obtain ⟨sc₁, hrun⟩ | ⟨a, sc₁, hrun, hrest⟩ := refusal?_bind_eq_some he
  · exact hx e (congrArg Prod.fst hrun)
  · cases (hf a sc₁ hrun).symm.trans hrest

theorem of_reply {x : Storage Reply} (h : refusal? (runOn x sc).1 = none) : Granted x sc := by
  intro e he
  rw [he] at h
  cases h

end Storage.Granted

namespace Scene.Able

variable {sc : Scene} (h : sc.Able) {v : Variable}

include h

theorem walk {α : Type} {x : Storage α} (hx : Walks [] x) {a : Except Stop α} {sc' : Scene}
    (hrun : runOn x sc = (a, sc')) : sc'.Able := by
  have hcourse := hx.course [] h.sound
  rw [hrun] at hcourse
  exact h.course hcourse

theorem slot_le {handle : Nat} (hv : sc.process.resolve? handle = some v) : v.slot ≤ maxSlot :=
  (h.sound.process.bySlot _ v (h.sound.process.resolve?_eq_some.1 hv).2).2.2.1

/-- A table is found, or made if the thread has none. -/
theorem bind_resolve (place : Place) {reply : Reply} {f : TableId → Storage Reply}
    (hreply : reply.refusal? = none)
    (hf : ∀ id (sc₁ : Scene), sc₁.Able → refusal? (runOn (f id) sc₁).1 = none) :
    refusal? (runOn (do
      let some id ← place.resolve | return reply
      f id) sc).1 = none := by
  refine Granted.reply (.of_panics (.resolve place)) fun id sc₁ hrun => ?_
  cases id with
  | none => exact hreply
  | some id => exact hf id sc₁ (h.walk (Walks.modular.resolve .current place) hrun)

variable (hv : v.slot ≤ maxSlot)

include hv

/-- Reading may call the initializer, which may panic; what it makes can be stored. -/
theorem getIn (limit : Nat) (id : TableId) : Granted (v.getIn (enter limit) id) sc := by
  refine .bind (.of_panics (.table id)) fun t sc₀ hrun => ?_
  obtain ⟨rfl, rfl⟩ : sc.thread.table id = t ∧ sc = sc₀ := by simpa using hrun
  split
  · exact .of_panics (.pure _)
  · refine .bind (.of_panics (.count _)) fun _ sc₁ hrun => ?_
    have h₁ : sc₁.Able := h.walk (Walks.modular.count (by decide)) hrun
    refine .bind (.of_panics (.makeInitial (.enter limit) v)) fun x sc₂ hrun => ?_
    have h₂ : sc₂.Able := h₁.walk (.makeInitial (walks_enter limit)) hrun
    obtain ⟨old, sc₃, hput, -⟩ := exists_putIn (h₂.ready id).grown hv x .overwritten
    exact .bind (.of_ok hput) fun _ _ _ => .of_panics (.pure _)

theorem withIn (limit : Nat) (id : TableId) (body : Option (Value → Script)) :
    Granted (v.withIn (enter limit) id body) sc := by
  refine .bind (h.getIn hv limit id) fun x _ _ => .of_panics ?_
  cases body with
  | none => exact .pure _
  | some nested => exact .bind (.enter limit _) fun _ => .pure _

/-- Only storing the sentinel can be refused. -/
theorem access (limit : Nat) (place : Place) {op : Access} (hop : op ≠ .store none) :
    refusal? (runOn (op.run (enter limit) v place) sc).1 = none := by
  cases op with
  | get =>
    exact h.bind_resolve place rfl fun id sc₁ h₁ => (h₁.getIn hv limit id).reply fun _ _ _ => rfl
  | withValue body =>
    exact h.bind_resolve place rfl fun id sc₁ h₁ => (h₁.withIn hv limit id body).reply fun _ _ _ => rfl
  | set value =>
    refine h.bind_resolve place rfl fun id sc₁ h₁ => ?_
    obtain ⟨sc₂, hrun, -⟩ := exists_setIn (h₁.ready id).grown hv (v.kind.read value)
    exact (Granted.of_ok hrun).reply fun _ _ _ => rfl
  | replace value =>
    refine h.bind_resolve place rfl fun id sc₁ h₁ => ?_
    obtain ⟨old, sc₂, hrun, -⟩ := exists_replaceIn (h₁.ready id).grown hv (v.kind.read value)
    exact (Granted.of_ok hrun).reply fun _ _ _ => rfl
  | store entry =>
    cases entry with
    | none => exact absurd rfl hop
    | some value =>
      refine h.bind_resolve place rfl fun id sc₁ h₁ => ?_
      obtain ⟨sc₂, hrun, -⟩ := exists_storeIn (h₁.ready id).grown hv (enter limit) (v.kind.read value)
      exact (Granted.of_ok hrun).reply fun _ _ _ => rfl
  | take =>
    exact Frank.bind_resolve? (by rfl) (fun id => .bind (.takeIn v id) fun _ => .pure rfl) sc
  | remove =>
    refine Frank.bind_resolve? (by rfl) (fun id => ?_) sc
    exact .bind (.removeIn (.enter limit) v id) fun _ => .pure rfl
  | isSet =>
    exact Frank.bind_resolve? (by rfl) (fun id => .bind (.isSetIn v id) fun _ => .pure rfl) sc

end Scene.Able

end ThreadSlots
