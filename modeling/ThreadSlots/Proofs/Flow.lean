import ThreadSlots.Proofs.Threads
import ThreadSlots.Proofs.Accounting

/-!
# Where values come from and where they go

The history of a scene notes each value that came into a table and each one that left its slot. A
move (`Move.exists_flow`) changes the values in the tables only by what it notes: a value in a table
was there before, or has come in, and it is not one that has left.
-/

namespace ThreadSlots

open Storage

/-- The slot of the thread's table holds the value. -/
def Thread.Has (t : Thread) (id : TableId) (slot : Nat) (value : Value) : Prop :=
  (t.table id).get? slot = some (.value value)

/-- The values in the thread's tables have changed by the values that came in and the values that
left, and only the hook of the slot's variable was called. -/
structure Flow (sc sc' : Scene) (news : List Arrival) (parted : List Parting) : Prop where
  arrivals : sc'.arrivals = news ++ sc.arrivals
  partings : sc'.partings = parted ++ sc.partings
  once : parted.length ≤ 1
  has : ∀ id slot x, sc'.thread.Has id slot x →
    (sc.thread.Has id slot x ∧ ∀ fate, .left id slot x fate ∉ parted) ∨ ⟨id, slot, x⟩ ∈ news
  left : ∀ id slot x fate, .left id slot x fate ∈ parted → sc.thread.Has id slot x
  hooked : ∀ id slot x handle, .left id slot x (.hooked handle) ∈ parted →
    ∃ v, sc.process.Knows v ∧ v.slot = slot ∧ v.handle = handle ∧ v.onRemoval.isSome

namespace Flow

variable {sc sc' : Scene}

/-- No value has left. -/
theorem of_arrivals {news : List Arrival} (harrivals : sc'.arrivals = news ++ sc.arrivals)
    (hpartings : sc'.partings = sc.partings)
    (has : ∀ id slot x, sc'.thread.Has id slot x →
      sc.thread.Has id slot x ∨ ⟨id, slot, x⟩ ∈ news) : Flow sc sc' news [] where
  arrivals := harrivals
  partings := hpartings
  once := Nat.zero_le _
  has id slot x h := (has id slot x h).imp_left fun h => ⟨h, by simp⟩
  left _ _ _ _ h := by cases h
  hooked _ _ _ _ h := by cases h

theorem of_tables (htables : sc'.thread.tables = sc.thread.tables)
    (harrivals : sc'.arrivals = sc.arrivals) (hpartings : sc'.partings = sc.partings) :
    Flow sc sc' [] [] := by
  refine of_arrivals harrivals hpartings fun id slot x h => .inl ?_
  unfold Thread.Has Thread.table at *
  rwa [htables] at h

/-- The slot of a variable is written: it loses what it held, and may receive a value. -/
theorem of_write {v : Variable} (hv : sc.process.Knows v) {id : TableId} (t : SlotTable)
    (hthread : sc'.thread = (sc.setTable id t).thread) {news : List Arrival}
    (harrivals : sc'.arrivals = news ++ sc.arrivals)
    (ht : ∀ slot x, t.get? slot = some (.value x) →
      (slot ≠ v.slot ∧ (sc.thread.table id).get? slot = some (.value x)) ∨ ⟨id, slot, x⟩ ∈ news)
    {parted : List Parting} (hpartings : sc'.partings = parted ++ sc.partings)
    (honce : parted.length ≤ 1)
    (hparted : ∀ p ∈ parted, ∃ x fate, p = .left id v.slot x fate ∧ sc.thread.Has id v.slot x ∧
      ∀ handle, fate = .hooked handle → handle = v.handle ∧ v.onRemoval.isSome) :
    Flow sc sc' news parted where
  arrivals := harrivals
  partings := hpartings
  once := honce
  has i slot x h := by
    unfold Thread.Has at h ⊢
    rw [hthread, Scene.table_setTable] at h
    split at h
    · next hi =>
      subst hi
      refine (ht slot x h).imp_left fun ⟨hne, hget⟩ => ⟨hget, fun fate hmem => ?_⟩
      obtain ⟨_, _, he, -⟩ := hparted _ hmem
      cases he
      exact hne rfl
    · next hi =>
      refine .inl ⟨h, fun fate hmem => ?_⟩
      obtain ⟨_, _, he, -⟩ := hparted _ hmem
      cases he
      exact hi rfl
  left i slot x fate hmem := by
    obtain ⟨y, f, he, hhas, -⟩ := hparted _ hmem
    cases he
    exact hhas
  hooked i slot x handle hmem := by
    obtain ⟨y, f, he, -, hhook⟩ := hparted _ hmem
    cases he
    obtain ⟨rfl, hsome⟩ := hhook handle rfl
    exact ⟨v, hv, rfl, rfl, hsome⟩

end Flow

namespace Scene

/-- What leaves when a slot's contents are noted to have left. -/
theorem departure_of_get? (sc : Scene) (id : TableId) (slot : Nat) {fate : Fate}
    (hfate : ∀ handle, fate ≠ .hooked handle) (P : Nat → Prop) :
    (departure id slot fate ((sc.thread.table id).get? slot)).length ≤ 1 ∧
      ∀ p ∈ departure id slot fate ((sc.thread.table id).get? slot),
        ∃ x f, p = .left id slot x f ∧ sc.thread.Has id slot x ∧
          ∀ handle, f = .hooked handle → P handle := by
  unfold departure Thread.Has
  split
  · next x hx =>
    refine ⟨Nat.le_refl _, fun p hp => ?_⟩
    obtain rfl := List.mem_singleton.1 hp
    exact ⟨x, fate, rfl, hx, fun handle he => absurd he (hfate handle)⟩
  · exact ⟨Nat.zero_le _, by simp⟩

/-- What leaves when a slot's contents are handed over: at most one value, and only to the hook of
the variable. -/
theorem handedOver_of_get? (sc sc₁ : Scene) (v : Variable) (id : TableId) :
    ∃ parted, (sc₁.handedOver v id ((sc.thread.table id).get? v.slot)).partings =
        parted ++ sc₁.partings ∧ parted.length ≤ 1 ∧
      ∀ p ∈ parted, ∃ x fate, p = .left id v.slot x fate ∧ sc.thread.Has id v.slot x ∧
        ∀ handle, fate = .hooked handle → handle = v.handle ∧ v.onRemoval.isSome := by
  unfold handedOver
  split
  · next hook x hhook hx =>
    refine ⟨[.left id v.slot x (.hooked v.handle)], rfl, Nat.le_refl _, fun p hp => ?_⟩
    obtain rfl := List.mem_singleton.1 hp
    obtain ⟨cell, hcell, hvalue⟩ := Option.bind_eq_some_iff.1 hx
    obtain ⟨rfl, -⟩ := Cell.value?_eq_some.1 hvalue
    refine ⟨x, _, rfl, hcell, fun handle he => ?_⟩
    cases he
    exact ⟨rfl, by rw [hhook]; rfl⟩
  · have hremoved : ∀ handle, Fate.removed ≠ .hooked handle := by simp
    obtain ⟨honce, hparted⟩ := sc.departure_of_get? id v.slot hremoved
      fun handle => handle = v.handle ∧ v.onRemoval.isSome
    exact ⟨_, rfl, honce, hparted⟩

@[simp] theorem arrivals_handedOver (sc : Scene) (v : Variable) (id : TableId)
    (cell : Option Cell) : (sc.handedOver v id cell).arrivals = sc.arrivals := by
  unfold handedOver
  split <;> rfl

end Scene

/-- What a move does to the values in the thread's tables. -/
theorem Move.exists_flow {busy : List TableId} {sc sc' : Scene} (h : Move busy sc sc') :
    ∃ news parted, Flow sc sc' news parted := by
  cases h with
  | aside h => exact ⟨[], [], .of_tables h.tables h.arrivals h.partings⟩
  | make t marks news hfills =>
    refine ⟨news, [], .of_arrivals rfl rfl fun id slot x h => ?_⟩
    have htable := sc.table_makeTable t id
    unfold Thread.Has at h
    change ((sc.makeTable t).thread.table id).get? slot = _ at h
    rw [htable] at h
    split at h
    · next hid =>
      obtain ⟨y, he, hmem⟩ := hfills.arrived slot _ h
      cases he
      rw [hid]
      exact .inr hmem
    · exact .inl h
  | relocate => exact ⟨[], [], .of_tables rfl rfl rfl⟩
  | empty i policy =>
    refine ⟨[], [.emptied i], ⟨rfl, rfl, Nat.le_refl _, fun id slot x h => .inl ⟨?_, by simp⟩,
      by simp, by simp⟩⟩
    unfold Thread.Has at *
    change ((sc.setTable i { policy := policy }).thread.table id).get? slot = _ at h
    rw [Scene.table_setTable] at h
    split at h
    · simp at h
    · exact h
  | @put v hv id x _ fate hfate stored h =>
    have hkept : ∀ handle, fate ≠ .hooked handle := by rcases hfate with rfl | rfl <;> simp
    obtain ⟨honce, hparted⟩ := sc.departure_of_get? id v.slot hkept
      fun handle => handle = v.handle ∧ v.onRemoval.isSome
    refine ⟨[⟨id, v.slot, x⟩],
      Scene.departure id v.slot fate ((sc.thread.table id).get? v.slot), ?_⟩
    refine .of_write hv (stored.track v) ?_ ?_ (fun slot y hy => ?_) ?_ honce hparted
    case refine_3 =>
      rcases Table.value_of_track h hy with ⟨rfl, he⟩ | hold
      · cases he
        exact .inr List.mem_cons_self
      · exact .inl hold
    all_goals rfl
  | @take v hv id =>
    have hkept : ∀ handle, Fate.returned ≠ .hooked handle := by simp
    obtain ⟨honce, hparted⟩ := sc.departure_of_get? id v.slot hkept
      fun handle => handle = v.handle ∧ v.onRemoval.isSome
    refine ⟨[], Scene.departure id v.slot .returned ((sc.thread.table id).get? v.slot), ?_⟩
    refine .of_write hv ((sc.thread.table id).without v) ?_ ?_
      (fun slot y hy => .inl (Table.value_of_without hy)) ?_ honce hparted
    all_goals rfl
  | @remove v hv id =>
    obtain ⟨parted, hpartings, honce, hparted⟩ := sc.handedOver_of_get?
      (sc.setTable id ((sc.thread.table id).without v)) v id
    exact ⟨[], parted, .of_write hv _ (Scene.thread_handedOver ..) (Scene.arrivals_handedOver ..)
      (fun slot y hy => .inl (Table.value_of_without hy)) hpartings honce hparted⟩
  | @clear v hv id hid =>
    obtain ⟨parted, hpartings, honce, hparted⟩ := sc.handedOver_of_get?
      (sc.setTable id ((sc.thread.table id).erase v.slot).table) v id
    exact ⟨[], parted, .of_write hv _ (Scene.thread_handedOver ..) (Scene.arrivals_handedOver ..)
      (fun slot y hy => .inl (Table.value_of_erase hy)) hpartings honce hparted⟩
  | @detach id hid =>
    refine ⟨[], [], .of_arrivals rfl rfl fun i slot x h => .inl ?_⟩
    unfold Thread.Has at *
    rw [Scene.table_setTable] at h
    split at h
    · next hi =>
      subst hi
      exact (Table.value_of_erase h).2
    · exact h

end ThreadSlots
