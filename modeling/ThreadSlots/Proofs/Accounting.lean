import ThreadSlots.Proofs.Agreement

/-!
# What becomes of the values of a thread that is cleared

A clearing visits the variables that its table lists, but by then nested code may have taken a value
out of the table in other ways. The history of partings says what became of each value: the first
entry that concerns its slot does (`firstParting`). While nested code runs, the value of a hooked
variable stays where it is or leaves in a way that is noted (`Course.fares`); and when its
turn in the clearing is over it has left (`leaves_of_clearEach`).

So a value is accounted for, by a hook, by being handed back or by being overwritten, unless the
table was emptied in place while it was there (`Session.accounted_of_clear`). Nested code that clears
a carrying thread again does that to the table being cleared, and then hooks are not called.
-/

namespace ThreadSlots

open Storage

/-! ## The history of partings -/

namespace Parting

/-- The parting says what became of what the slot of the table held. -/
def concerns (id : TableId) (slot : Nat) : Parting → Bool
  | .left i s _ _ => decide (i = id ∧ s = slot)
  | .emptied i => decide (i = id)

/-- The call of a removal hook that the parting stands for. -/
def hookCall? : Parting → Option (Nat × Value)
  | .left _ _ value (.hooked handle) => some (handle, value)
  | _ => none

end Parting

/-- What first became of what the slot of the table held, given the partings since then, the latest
first. -/
def firstParting (news : List Parting) (id : TableId) (slot : Nat) : Option Parting :=
  news.reverse.find? (·.concerns id slot)

theorem firstParting_append (later earlier : List Parting) (id : TableId) (slot : Nat) :
    firstParting (later ++ earlier) id slot =
      (firstParting earlier id slot).or (firstParting later id slot) := by
  unfold firstParting
  rw [List.reverse_append, List.find?_append]

/-- The value of the variable was handed to its hook, was handed back, or was overwritten, before
anything else became of it. -/
def Accounted (news : List Parting) (id : TableId) (v : Variable) (value : Value) : Prop :=
  ∃ fate, (fate = .hooked v.handle ∨ fate = .returned ∨ fate = .overwritten) ∧
    firstParting news id v.slot = some (.left id v.slot value fate)

/-! ## Staying and leaving -/

/-- Nothing became of the value of the variable, which is where it was. -/
def Stays (v : Variable) (id : TableId) (value : Value) (sc sc' : Scene) : Prop :=
  (sc'.thread.table id).get? v.slot = some (.value value) ∧
    ∃ news, sc'.partings = news ++ sc.partings ∧ firstParting news id v.slot = none

/-- The value of the variable is accounted for, or its table was emptied. -/
def Leaves (v : Variable) (id : TableId) (value : Value) (sc sc' : Scene) : Prop :=
  ∃ news, sc'.partings = news ++ sc.partings ∧
    (Accounted news id v value ∨ firstParting news id v.slot = some (.emptied id))

/-- The value stays where it is, or it is noted what becomes of it. -/
def Fares (v : Variable) (id : TableId) (value : Value) (sc sc' : Scene) : Prop :=
  Stays v id value sc sc' ∨ Leaves v id value sc sc'

section

variable {v : Variable} {id : TableId} {value : Value} {sc sc' sc'' : Scene}

theorem Stays.trans (h : Stays v id value sc sc') (h' : Stays v id value sc' sc'') :
    Stays v id value sc sc'' := by
  obtain ⟨-, news, hnews, hfirst⟩ := h
  obtain ⟨hget, news', hnews', hfirst'⟩ := h'
  refine ⟨hget, news' ++ news, by rw [hnews', hnews, List.append_assoc], ?_⟩
  rw [firstParting_append, hfirst, hfirst']
  rfl

theorem Stays.leaves (h : Stays v id value sc sc') (h' : Leaves v id value sc' sc'') :
    Leaves v id value sc sc'' := by
  obtain ⟨-, news, hnews, hfirst⟩ := h
  obtain ⟨news', hnews', hleaves⟩ := h'
  refine ⟨news' ++ news, by rw [hnews', hnews, List.append_assoc], ?_⟩
  unfold Accounted at *
  rw [firstParting_append, hfirst, Option.none_or]
  exact hleaves

/-- What comes later does not change what first became of the value. -/
theorem Leaves.mono (h : Leaves v id value sc sc') (h' : sc'.partings <:+ sc''.partings) :
    Leaves v id value sc sc'' := by
  obtain ⟨news, hnews, hleaves⟩ := h
  obtain ⟨news', hnews'⟩ := h'
  refine ⟨news' ++ news, by rw [← hnews', hnews, List.append_assoc], ?_⟩
  unfold Accounted at *
  rw [firstParting_append]
  rcases hleaves with ⟨fate, hfate, hfirst⟩ | hfirst
  · exact .inl ⟨fate, hfate, by rw [hfirst]; rfl⟩
  · exact .inr (by rw [hfirst]; rfl)

theorem Fares.trans (h : Fares v id value sc sc')
    (h' : (sc'.thread.table id).get? v.slot = some (.value value) → Fares v id value sc' sc'')
    (hsuffix : sc'.partings <:+ sc''.partings) : Fares v id value sc sc'' := by
  rcases h with hstays | hleaves
  · exact (h' hstays.1).imp hstays.trans hstays.leaves
  · exact .inr (hleaves.mono hsuffix)

/-- Nothing is noted and the table is as it was. -/
theorem Stays.of_same (hget : (sc.thread.table id).get? v.slot = some (.value value))
    (hpartings : sc'.partings = sc.partings)
    (htable : (sc'.thread.table id).get? v.slot = (sc.thread.table id).get? v.slot) :
    Stays v id value sc sc' :=
  ⟨htable.trans hget, [], hpartings, rfl⟩

/-- One slot of a table loses its value. -/
theorem fares_of_write {u : Variable} {i : TableId} {t : SlotTable}
    (hget : (sc.thread.table id).get? v.slot = some (.value value))
    (hthread : sc'.thread = (sc.setTable i t).thread)
    (hothers : i = id → u.slot ≠ v.slot → t.get? v.slot = (sc.thread.table id).get? v.slot)
    {news : List Parting} (hnews : sc'.partings = news ++ sc.partings)
    (hconcerns : ∀ p ∈ news, ∃ x fate, p = .left i u.slot x fate)
    (hself : i = id → u.slot = v.slot → ∃ fate,
      (fate = .hooked v.handle ∨ fate = .returned ∨ fate = .overwritten) ∧
        news = [.left id v.slot value fate]) :
    Fares v id value sc sc' := by
  by_cases hhit : i = id ∧ u.slot = v.slot
  · obtain ⟨fate, hfate, rfl⟩ := hself hhit.1 hhit.2
    refine .inr ⟨_, hnews, .inl ⟨fate, hfate, ?_⟩⟩
    simp [firstParting, Parting.concerns]
  · refine .inl ⟨?_, news, hnews, ?_⟩
    · rw [hthread, Scene.table_setTable]
      split
      · next he => exact (hothers he.symm fun hs => hhit ⟨he.symm, hs⟩).trans hget
      · exact hget
    · refine List.find?_eq_none.2 fun p hp => ?_
      obtain ⟨x, fate, rfl⟩ := hconcerns p (List.mem_reverse.1 hp)
      simpa [Parting.concerns] using hhit

end

theorem Scene.exists_departure (id : TableId) (slot : Nat) (fate : Fate) (cell : Option Cell) :
    ∀ p ∈ departure id slot fate cell, ∃ x f, p = .left id slot x f := by
  intro p hp
  unfold departure at hp
  split at hp
  · obtain rfl := List.mem_singleton.1 hp
    exact ⟨_, _, rfl⟩
  · simp at hp

theorem Scene.filterMap_departure (id : TableId) (slot : Nat) (cell : Option Cell) {fate : Fate}
    (h : ∀ handle, fate ≠ .hooked handle) :
    (departure id slot fate cell).filterMap Parting.hookCall? = [] := by
  unfold departure
  split
  · cases fate with
    | hooked handle => exact absurd rfl (h handle)
    | _ => rfl
  · rfl

/-- What is noted when a slot's contents are handed over. -/
theorem Scene.exists_handedOver (sc : Scene) (u : Variable) (i : TableId) (cell : Option Cell) :
    ∃ news, (sc.handedOver u i cell).partings = news ++ sc.partings ∧
      (∀ p ∈ news, ∃ x fate, p = .left i u.slot x fate) ∧
      hookCalls (sc.handedOver u i cell).events =
        news.filterMap Parting.hookCall? ++ hookCalls sc.events ∧
      ∀ value : Value, u.onRemoval.isSome → value.kind = u.kind → cell = some (.value value) →
        news = [.left i u.slot value (.hooked u.handle)] := by
  unfold handedOver
  split
  · next hook x hhook hx =>
    refine ⟨[.left i u.slot x (.hooked u.handle)], rfl, by simp, rfl, ?_⟩
    rintro value - hkind rfl
    simp [Cell.value?, hkind] at hx
    rw [hx]
  · next hnot =>
    refine ⟨_, rfl, exists_departure i u.slot .removed cell, ?_, ?_⟩
    · rw [filterMap_departure i u.slot cell fun _ => by simp]
      rfl
    rintro value hhook hkind rfl
    obtain ⟨hook, hhook⟩ := Option.isSome_iff_exists.1 hhook
    exact absurd (by simp [Cell.value?, hkind]) (hnot hook value hhook)

section

variable {busy : List TableId} {v : Variable} {id : TableId} {value : Value} {sc sc' : Scene}

/-- Variables of the process with one slot are one variable. -/
theorem Process.Knows.eq {p : Process} {u : Variable} (hu : p.Knows u) (hv : p.Knows v)
    (h : u.slot = v.slot) : u = v := by
  unfold Process.Knows at *
  rw [h, hv] at hu
  exact (Option.some.inj hu).symm

/-- A move leaves the value of a hooked variable where it is, or notes what becomes of it. -/
theorem Move.fares (h : Move busy sc sc') (hs : sc.Sound) (hv : sc.process.Knows v)
    (hhook : v.onRemoval.isSome) (hkind : value.kind = v.kind) (hid : id < sc.thread.nextTable)
    (hget : (sc.thread.table id).get? v.slot = some (.value value)) :
    Fares v id value sc sc' := by
  have hslot : v.slot ≠ reservedSlot := hs.process.slot_ne hv
  cases h with
  | aside h =>
    refine .inl (.of_same hget h.partings ?_)
    unfold Thread.table
    rw [h.tables]
  | make t ht =>
    refine .inl (.of_same hget rfl ?_)
    have := sc.table_makeTable t id
    rw [if_neg (Nat.ne_of_lt hid)] at this
    exact congrArg (·.get? v.slot) this
  | relocate => exact .inl (.of_same hget rfl rfl)
  | empty i policy hcarried =>
    -- The one move that takes a value away and calls no hook; the history notes it.
    by_cases hi : i = id
    · refine .inr ⟨[.emptied i], rfl, .inr ?_⟩
      simp [firstParting, Parting.concerns, hi]
    · refine .inl ⟨?_, [.emptied i], rfl, by simp [firstParting, Parting.concerns, hi]⟩
      show ((sc.setTable i { policy := policy }).thread.table id).get? v.slot = _
      rw [Scene.table_setTable, if_neg (Ne.symm hi), hget]
  | @put u hu i x _ fate hfate stored h =>
    refine fares_of_write (u := u) hget rfl (fun hi hne => ?_) rfl
      (Scene.exists_departure i u.slot fate _) fun hi he => ?_
    · subst hi
      rw [Table.get?_track h hslot, if_neg (Ne.symm hne)]
    · subst hi
      refine ⟨fate, .inr hfate, ?_⟩
      rw [he, hget]
      rfl
  | @take u hu i =>
    refine fares_of_write (u := u) hget rfl (fun hi hne => ?_) rfl
      (Scene.exists_departure i u.slot .returned _) fun hi he => ?_
    · subst hi
      rw [Table.get?_without _ _ hslot, if_neg (Ne.symm hne)]
    · subst hi
      refine ⟨.returned, .inr (.inl rfl), ?_⟩
      rw [he, hget]
      rfl
  | @remove u hu i =>
    obtain ⟨news, hnews, hconcerns, -, hself⟩ := Scene.exists_handedOver
      (sc.setTable i ((sc.thread.table i).without u)) u i ((sc.thread.table i).get? u.slot)
    refine fares_of_write (u := u) hget (Scene.thread_handedOver _ u i _)
      (fun hi hne => ?_) hnews hconcerns fun hi he => ?_
    · subst hi
      rw [Table.get?_without _ _ hslot, if_neg (Ne.symm hne)]
    · subst hi
      obtain rfl := hu.eq hv he
      exact ⟨.hooked u.handle, .inl rfl, hself value hhook hkind hget⟩
  | @clear u hu i hbusy =>
    obtain ⟨news, hnews, hconcerns, -, hself⟩ := Scene.exists_handedOver
      (sc.setTable i ((sc.thread.table i).erase u.slot).table) u i ((sc.thread.table i).get? u.slot)
    refine fares_of_write (u := u) hget (Scene.thread_handedOver _ u i _)
      (fun hi hne => ?_) hnews hconcerns fun hi he => ?_
    · subst hi
      rw [Table.get?_erase, if_neg (Ne.symm hne)]
    · subst hi
      obtain rfl := hu.eq hv he
      exact ⟨.hooked u.handle, .inl rfl, hself value hhook hkind hget⟩
  | @detach i hbusy =>
    refine .inl (.of_same hget rfl ?_)
    rw [Scene.table_setTable]
    split
    · next hi =>
      subst hi
      rw [Table.get?_erase, if_neg hslot]
    · rfl

/-- What is noted during a move, and the calls of hooks among it. -/
theorem Move.exists_partings (h : Move busy sc sc') :
    ∃ news, sc'.partings = news ++ sc.partings ∧
      hookCalls sc'.events = news.filterMap Parting.hookCall? ++ hookCalls sc.events := by
  cases h with
  | aside h => exact ⟨[], h.partings, h.calls⟩
  | empty i => exact ⟨[.emptied i], rfl, rfl⟩
  | @put u hu i x _ fate hfate =>
    refine ⟨_, rfl, ?_⟩
    rw [Scene.filterMap_departure i u.slot _ (by rcases hfate with rfl | rfl <;> simp)]
    rfl
  | @take u hu i =>
    refine ⟨_, rfl, ?_⟩
    rw [Scene.filterMap_departure i u.slot _ (by simp)]
    rfl
  | remove | clear =>
    obtain ⟨news, hnews, -, hcalls, -⟩ := Scene.exists_handedOver (sc.setTable _ _) _ _ _
    exact ⟨news, hnews, hcalls⟩
  | _ => exact ⟨[], rfl, rfl⟩

namespace Course

/-- What is noted during a course, and the calls of hooks among it. -/
theorem exists_partings (h : Course busy sc sc') :
    ∃ news, sc'.partings = news ++ sc.partings ∧
      hookCalls sc'.events = news.filterMap Parting.hookCall? ++ hookCalls sc.events := by
  refine h.relates (R := fun sc sc' => ∃ news, sc'.partings = news ++ sc.partings ∧
    hookCalls sc'.events = news.filterMap Parting.hookCall? ++ hookCalls sc.events)
    (fun _ => ⟨[], rfl, rfl⟩) ?_ Move.exists_partings (fun _ => ⟨[], rfl, rfl⟩)
  rintro sc sc' sc'' ⟨news, hnews, hcalls⟩ ⟨news', hnews', hcalls'⟩
  refine ⟨news' ++ news, by rw [hnews', hnews, List.append_assoc], ?_⟩
  rw [hcalls', hcalls, List.filterMap_append, List.append_assoc]

theorem partings_suffix (h : Course busy sc sc') : sc.partings <:+ sc'.partings := by
  obtain ⟨news, hnews, -⟩ := h.exists_partings
  exact ⟨news, hnews.symm⟩

theorem nextTable_le (h : Course busy sc sc') : sc.thread.nextTable ≤ sc'.thread.nextTable := by
  refine h.relates (R := fun sc sc' => sc.thread.nextTable ≤ sc'.thread.nextTable)
    (fun _ => Nat.le_refl _) (fun h h' => Nat.le_trans h h') (fun {_ sc _} h => ?_)
    (fun _ => Nat.le_refl _)
  cases h with
  | aside h => exact Nat.le_of_eq h.nextTable.symm
  | make => exact Nat.le_succ _
  | remove | clear =>
    rw [Scene.thread_handedOver]
    exact Nat.le_refl _
  | _ => exact Nat.le_refl _

/-- Whatever happens, the value of a hooked variable stays where it is or it is noted what becomes
of it. -/
theorem fares (h : Course busy sc sc') (hs : sc.Sound) (hv : sc.process.Knows v)
    (hhook : v.onRemoval.isSome) (hkind : value.kind = v.kind) (hid : id < sc.thread.nextTable)
    (hget : (sc.thread.table id).get? v.slot = some (.value value)) :
    Fares v id value sc sc' := by
  induction h with
  | rest => exact .inl (.of_same hget rfl rfl)
  | move h hm ih =>
    have hfares := hm.fares (h.sound hs) (h.knows hs hv) hhook hkind
      (Nat.lt_of_lt_of_le hid h.nextTable_le)
    exact (ih hs hv hid hget).trans hfares (of_move hm).partings_suffix
  | pass h _ hpass _ ih ihpass =>
    have hfares := ihpass (h.sound hs) (h.knows hs hv) (Nat.lt_of_lt_of_le hid h.nextTable_le)
    exact (ih hs hv hid hget).trans hfares hpass.partings_suffix
  | interrupt h _ hpass ih ihpass =>
    have hfares := ihpass (h.sound hs) (h.knows hs hv) (Nat.lt_of_lt_of_le hid h.nextTable_le)
    exact (ih hs hv hid hget).trans hfares hpass.partings_suffix

end Course

end

/-! ## Clearing -/

section

variable {enter : Enter} (henter : ∀ script, Walks [] (enter script)) {busy : List TableId}
  {v : Variable} (hhook : v.onRemoval.isSome) {value : Value} (hkind : value.kind = v.kind)
  {id : TableId} {sc sc' : Scene}

include henter hhook hkind in
/-- The value of a hooked variable has left when the variable's turn is over. -/
theorem leaves_of_clear (hbusy : id ∈ busy) (hs : sc.Sound) (hv : sc.process.Knows v)
    (hid : id < sc.thread.nextTable)
    (hget : (sc.thread.table id).get? v.slot = some (.value value)) :
    Leaves v id value sc (runOn (v.clear enter id) sc).2 := by
  have hmove : Move busy sc _ := .clear hv hbusy
  have hleaves := (hmove.fares hs hv hhook hkind hid hget).resolve_left fun hstays => by
    have := hstays.1
    rw [Scene.thread_handedOver, Scene.table_setTable_self, Table.get?_erase, if_pos rfl] at this
    cases this
  exact hleaves.mono (course_runHook henter hbusy hs hv).partings_suffix

include henter hhook hkind in
/-- By the end of a pass over variables the values of the hooked ones have left. -/
theorem leaves_of_clearEach (hbusy : id ∈ busy) {vs : List Variable} (hs : sc.Sound)
    (hvs : ∀ u ∈ vs, sc.process.Knows u) (hrun : runOn (clearEach enter id vs) sc = (.ok (), sc'))
    (hmem : v ∈ vs) (hid : id < sc.thread.nextTable)
    (hget : (sc.thread.table id).get? v.slot = some (.value value)) :
    Leaves v id value sc sc' := by
  induction vs generalizing sc with
  | nil => cases hmem
  | cons u vs ih =>
    have hv : sc.process.Knows v := hvs v hmem
    obtain ⟨hu, hvs⟩ := List.forall_mem_cons.1 hvs
    have hclear := course_clear henter hbusy hs hu
    have hfares := hclear.fares hs hv hhook hkind hid hget
    unfold clearEach at hrun
    obtain ⟨_, sc₁, hr, hrun⟩ := runOn_bind_eq_ok.1 hrun
    rw [hr] at hclear hfares
    have hs₁ : sc₁.Sound := hclear.sound hs
    have hvs₁ : ∀ w ∈ vs, sc₁.process.Knows w := fun w hw => hclear.knows hs (hvs w hw)
    have hrest : Course busy sc₁ sc' := by
      have := course_clearEach henter hbusy hs₁ hvs₁
      rwa [hrun] at this
    -- Either its turn has come, or it is still there for the rest of the pass, or hooks of earlier
    -- variables have taken it away.
    rcases List.mem_cons.1 hmem with rfl | hmem
    · have hleaves := leaves_of_clear henter hhook hkind hbusy hs hv hid hget
      rw [hr] at hleaves
      exact hleaves.mono hrest.partings_suffix
    · rcases hfares with hstays | hleaves
      · have hid₁ := Nat.lt_of_lt_of_le hid hclear.nextTable_le
        exact hstays.leaves (ih hs₁ hvs₁ hrun hmem hid₁ hstays.1)
      · exact hleaves.mono hrest.partings_suffix

theorem Cell.value?_eq_some {cell : Cell} {kind : Kind} {x : Value} :
    cell.value? kind = some x ↔ cell = .value x ∧ x.kind = kind := by
  cases cell with
  | value y =>
    simp only [value?, Option.ite_none_right_eq_some, Option.some.injEq, Cell.value.injEq]
    exact ⟨fun ⟨hk, he⟩ => ⟨he, he ▸ hk⟩, fun ⟨he, hk⟩ => ⟨he ▸ hk, he⟩⟩
  | liveSet set => simp [value?]

/-- In a table that agrees, every set variable is listed. -/
theorem Table.Agrees.mem_listed {t : SlotTable} {p : Process} (ht : t.Agrees) (hl : t.Lists p)
    (hv : p.Knows v) (hslot : v.slot ≠ reservedSlot) (hset : t.contains v.slot) : v ∈ t.listed := by
  have hmem : v.slot ∈ t.live := (ht v.slot).2 ⟨hslot, hset⟩
  obtain ⟨u, hu⟩ := Option.isSome_iff_exists.1 (Std.ExtTreeMap.mem_iff_isSome_getElem?.1 hmem)
  obtain ⟨he, hknows⟩ := hl v.slot u hu
  obtain rfl := hknows.eq hv he
  exact List.mem_map.2 ⟨(u.slot, u), Std.ExtTreeMap.mem_toList_iff_getElem?_eq_some.2 hu, rfl⟩

include henter hhook hkind in
/-- When a clearing has come to its end, the values of the hooked variables that were set when it
began have left. -/
theorem leaves_of_clearTable_then {x : Storage Unit} (hx : Walks [] x) (hs : sc.Sound)
    (hrun : runOn (do if ← clearTable enter then x) sc = (.ok (), sc'))
    (hown : sc.own? = some id) (hagrees : (sc.thread.table id).Agrees) (hv : sc.process.Knows v)
    (hget : (sc.thread.table id).get? v.slot = some (.value value)) :
    Leaves v id value sc sc' := by
  have hslot := hs.process.slot_ne hv
  have hid : id < sc.thread.nextTable := hs.thread.made id (Thread.holds_of_own? hown)
  have hmem : v ∈ (sc.thread.table id).listed :=
    hagrees.mem_listed (hs.thread.lists id) hv hslot (by simp [Table.contains, hget])
  have hbusy : id ∈ [id] := List.mem_cons_self
  have hdetach : Course [id] sc (sc.detached id) := course_detached [] sc id
  have hs₁ := hdetach.sound hs
  have hget₁ : ((sc.detached id).thread.table id).get? v.slot = some (.value value) := by
    rw [Scene.detached, Scene.table_setTable_self, Table.get?_erase, if_neg hslot, hget]
  have hstays : Stays v id value sc (sc.detached id) := by
    refine .of_same hget ?_ (hget₁.trans hget.symm)
    exact (congrArg (·.partings) sc.like_unwatched).symm
  have hpass := course_clearEach henter hbusy hs₁ (knows_detached hs id)
  rw [runOn_bind, runOn_clearTable, hown] at hrun
  rcases hr : runOn (clearEach enter id (sc.thread.table id).listed) (sc.detached id)
    with ⟨stop | _, sc₂⟩
  · simp only [hr] at hrun
    cases hrun
  · simp only [hr, if_true] at hrun
    rw [hr] at hpass
    have hleaves := leaves_of_clearEach henter hhook hkind hbusy hs₁ (knows_detached hs id) hr hmem
      (Nat.lt_of_lt_of_le hid hdetach.nextTable_le) hget₁
    have hcounted : Course [id] sc₂ { sc₂ with process := sc₂.process.count .removeAllPasses } :=
      .like .rest (.count _ (by decide))
    have hlast := hx.course [id] (hcounted.sound (hpass.sound hs₁))
    rw [hrun] at hlast
    exact (hstays.leaves hleaves).mono (hcounted.trans hlast).partings_suffix

end

/-- **Nothing is lost unless the table is emptied in place**: when a thread has been cleared, or has
cleared itself at its exit, every value that a hooked variable had in its table is accounted for,
each call of a hook standing for one value that left; except for the values that were still there
when nested code emptied that very table, which no hook sees. -/
theorem Session.accounted_of_clear (environment : Environment) (depth : Nat) (steps : List Step) :
    let s := ((Session.start environment depth).run steps).2
    ∀ a ∈ s.actors, ∀ id, a.thread.own? s.process.epoch = some id →
      (a.thread.table id).Agrees →
      ∀ clearing sc', clearing = clearThread (enter depth) ∨
        clearing = clearAndRelease (enter depth) →
      runOn clearing { process := s.process, thread := a.thread } = (.ok (), sc') →
      hookCalls sc'.events = sc'.partings.filterMap Parting.hookCall? ∧
        ∀ v value, s.process.Knows v → v.onRemoval.isSome →
          ((a.thread.table id).get? v.slot).bind (·.value? v.kind) = some value →
          (Accounted sc'.partings id v value ↔
            firstParting sc'.partings id v.slot ≠ some (.emptied id)) := by
  intro s a ha id hown hagrees clearing sc' hclearing hrun
  have hsound : s.Sound := (Session.sound_start environment depth).run steps
  have hs : Scene.Sound { process := s.process, thread := a.thread } :=
    ⟨hsound.process, hsound.threads a ha⟩
  have henter := walks_enter depth
  have hwalks : Walks [] clearing := by
    rcases hclearing with rfl | rfl
    · exact .clearThread henter
    · exact .clearAndRelease henter
  have hcourse : Course [] { process := s.process, thread := a.thread } sc' := by
    have := hwalks.course [] hs
    rwa [hrun] at this
  refine ⟨?_, fun v value hv hhook hstored => ?_⟩
  · obtain ⟨news, hnews, hcalls⟩ := hcourse.exists_partings
    simp only [List.append_nil] at hnews
    rw [hcalls, hnews]
    exact List.append_nil _
  · obtain ⟨cell, hget, hcell⟩ := Option.bind_eq_some_iff.1 hstored
    have hleaves : Leaves v id value { process := s.process, thread := a.thread } sc' := by
      obtain ⟨rfl, hkind⟩ := Cell.value?_eq_some.1 hcell
      rcases hclearing with rfl | rfl
      · exact leaves_of_clearTable_then henter hhook hkind .discard hs hrun hown hagrees hv hget
      · exact leaves_of_clearTable_then henter hhook hkind .releaseOrDiscard hs hrun hown hagrees
          hv hget
    obtain ⟨news, hnews, hleaves⟩ := hleaves
    simp only [List.append_nil] at hnews
    rw [hnews]
    constructor
    · rintro ⟨fate, -, hfirst⟩
      rw [hfirst]
      simp
    · exact fun hne => hleaves.resolve_right hne

/-- A carrying thread has set two hooked variables, of which the first one's hook clears the
thread. -/
def clearingHook : List Step :=
  [.run "main" (.declare .int (.plain .int) (some
      { nested := some fun _ => .step "remove_all" (.onThread .clear) fun _ => .done none
        panics := fun _ => none })),
    .run "main" (.declare .int (.plain .int) (some { nested := none, panics := fun _ => none })),
    .spawn "a" .carried none none,
    .run "a" (.access 0 .ambient (.set (.int 1))),
    .run "a" (.access 1 .ambient (.set (.int 2)))]

/-- The session in which the first variable's hook is about to clear the thread. -/
def Session.beforeClear : Session := ((Session.start {} nestingLimit).run clearingHook).2

/-- How the clearing of the carrying thread ends. -/
def Session.clearOf (a : Actor) : Except Stop Unit × Scene :=
  runOn (clearThread (enter nestingLimit))
    { process := Session.beforeClear.process, thread := a.thread }

/-- The thread has set both variables, and clearing it ends well. -/
theorem Session.exists_clearOf : ∃ a ∈ Session.beforeClear.actors,
    a.thread.own? Session.beforeClear.process.epoch = some 0 ∧ (a.thread.table 0).Agrees ∧
      clearOf a = (.ok (), (clearOf a).2) ∧
      (∃ v, Session.beforeClear.process.Knows v ∧ v.slot = 1 ∧ v.handle = 0 ∧
        v.onRemoval.isSome ∧
        ((a.thread.table 0).get? v.slot).bind (·.value? v.kind) = some (.int 1)) ∧
      (∃ v, Session.beforeClear.process.Knows v ∧ v.slot = 2 ∧ v.handle = 1 ∧
        v.onRemoval.isSome ∧
        ((a.thread.table 0).get? v.slot).bind (·.value? v.kind) = some (.int 2)) ∧
      firstParting (clearOf a).2.partings 0 1 = some (.left 0 1 (.int 1) (.hooked 0)) ∧
      firstParting (clearOf a).2.partings 0 2 = some (.emptied 0) ∧
      hookCalls (clearOf a).2.events = [(0, .int 1)] := by
  have hslots : (Session.beforeClear.process.bySlot[1]?).map
        (fun v => (v.slot, v.handle, v.onRemoval.isSome, v.kind)) = some (1, 0, true, .int) ∧
      (Session.beforeClear.process.bySlot[2]?).map
        (fun v => (v.slot, v.handle, v.onRemoval.isSome, v.kind)) = some (2, 1, true, .int) := by
    decide +kernel
  have hthread : (Session.beforeClear.actor? "a").map (fun a =>
        (a.thread.own? Session.beforeClear.process.epoch, a.thread.interrupted,
          (clearOf a).1.toOption.isSome)) = some (some 0, false, true) := by
    decide +kernel
  have htable : (Session.beforeClear.actor? "a").map (fun a =>
        (((a.thread.table 0).get? 1).bind (·.value? .int),
          ((a.thread.table 0).get? 2).bind (·.value? .int))) =
      some (some (.int 1), some (.int 2)) := by
    decide +kernel
  have hpartings : (Session.beforeClear.actor? "a").map (fun a =>
        (firstParting (clearOf a).2.partings 0 1, firstParting (clearOf a).2.partings 0 2,
          hookCalls (clearOf a).2.events)) =
      some (some (.left 0 1 (.int 1) (.hooked 0)), some (.emptied 0), [(0, .int 1)]) := by
    decide +kernel
  have hsound : Session.beforeClear.Sound :=
    (Session.sound_start {} nestingLimit).run clearingHook
  obtain ⟨v₁, hv₁, h₁⟩ := Option.map_eq_some_iff.1 hslots.1
  obtain ⟨v₂, hv₂, h₂⟩ := Option.map_eq_some_iff.1 hslots.2
  simp only [Prod.mk.injEq] at h₁ h₂
  obtain ⟨a, ha, h⟩ := Option.map_eq_some_iff.1 hthread
  rw [ha, Option.map_some, Option.some.injEq] at htable hpartings
  simp only [Prod.mk.injEq] at h htable hpartings
  obtain ⟨hown, hinterrupted, hok⟩ := h
  have hmem : a ∈ Session.beforeClear.actors := List.mem_of_find?_eq_some ha
  have hend : clearOf a = (.ok (), (clearOf a).2) := by
    rcases hr : clearOf a with ⟨_ | _, sc'⟩
    · simp [hr, Except.toOption] at hok
    · rfl
  refine ⟨a, hmem, hown, ?_, hend, ⟨v₁, ?_⟩, ⟨v₂, ?_⟩, hpartings⟩
  · exact hsound.agrees a hmem hinterrupted 0 (Thread.holds_of_own? hown) (by simp)
  · simp [Process.Knows, h₁, hv₁, htable]
  · simp [Process.Knows, h₂, hv₂, htable]

/-- The second variable's value is lost: its hook is not called, and it is neither handed back nor
overwritten. -/
theorem Session.not_accounted_beforeClear : ∃ a ∈ Session.beforeClear.actors,
    ∃ id, a.thread.own? Session.beforeClear.process.epoch = some id ∧
      (a.thread.table id).Agrees ∧ ∃ sc',
        runOn (clearThread (enter nestingLimit))
          { process := Session.beforeClear.process, thread := a.thread } = (.ok (), sc') ∧
        ∃ v value, Session.beforeClear.process.Knows v ∧ v.onRemoval.isSome ∧
          ((a.thread.table id).get? v.slot).bind (·.value? v.kind) = some value ∧
          ¬ Accounted sc'.partings id v value ∧ (v.handle, value) ∉ hookCalls sc'.events := by
  obtain ⟨a, hmem, hown, hagrees, hend, -, ⟨v, hv, hslot, hhandle, hhook, hstored⟩, -, hlost,
    hcalls⟩ := exists_clearOf
  refine ⟨a, hmem, 0, hown, hagrees, _, hend, v, .int 2, hv, hhook, hstored, ?_, ?_⟩
  · rintro ⟨fate, -, hfirst⟩
    rw [hslot, hlost] at hfirst
    cases hfirst
  · rw [hcalls, hhandle]
    decide

theorem Session.accounted_beforeClear : ∃ a ∈ Session.beforeClear.actors, ∃ sc',
    runOn (clearThread (enter nestingLimit))
      { process := Session.beforeClear.process, thread := a.thread } = (.ok (), sc') ∧
    ∃ v, Session.beforeClear.process.Knows v ∧ v.slot = 1 ∧
      Accounted sc'.partings 0 v (.int 1) := by
  obtain ⟨a, hmem, hown, hagrees, hend, ⟨v, hv, hslot, -, hhook, hstored⟩, -, hfirst, -⟩ :=
    exists_clearOf
  obtain ⟨-, haccounted⟩ := Session.accounted_of_clear {} nestingLimit clearingHook a hmem 0 hown
    hagrees _ _ (.inl rfl) hend
  refine ⟨a, hmem, _, hend, v, hv, hslot, (haccounted v _ hv hhook hstored).2 ?_⟩
  rw [hslot, hfirst]
  simp

end ThreadSlots
