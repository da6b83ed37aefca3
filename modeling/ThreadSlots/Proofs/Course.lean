import ThreadSlots.Proofs.Effects

/-!
# What can happen to a thread's storage

Everything that an operation does to a thread's tables is a sequence of `Move`s, each of which takes
the scene from one point where nested code may run to the next. A `Course` is such a sequence. It is
taken with respect to the tables whose clearing is under way: only in those may a slot be unset whose
variable stays in the live set, or the live set be taken out. A clearing that ends (`Course.pass`)
leaves the thread without a value in any table it holds; one that a panic ends (`Course.interrupt`)
marks the thread.

So what holds of every operation is proved of the moves. Here these are the facts that a scene stays
sound (`Course.sound`) and that a thread's tables agree with their live sets unless a clearing was
interrupted (`Course.agrees`).
-/

namespace ThreadSlots

open Std (ExtTreeMap)

/-! ## Sound scenes -/

/-- The process has made the variable. -/
def Process.Knows (p : Process) (v : Variable) : Prop := p.bySlot[v.slot]? = some v

/-- The variables of the process have slots that were taken from its supply, each one its own, and
every slot was taken for a variable or burned. -/
structure Process.Sound (p : Process) : Prop where
  bySlot : ∀ slot v, p.bySlot[slot]? = some v →
    v.slot = slot ∧ slot ≠ reservedSlot ∧ slot ≤ maxSlot ∧ slot < p.supply.next
  supply : reservedSlot < p.supply.next
  first : p.supply.first = 1
  registered : p.bySlot.size = p.tally.variablesRegistered
  taken : p.supply.taken = p.tally.variablesRegistered + p.burned

/-- Every variable was made under a handle of its own, and each handle that is bound stands for a
variable that was made under this handle or under an earlier one. -/
structure Process.Handled (p : Process) : Prop where
  own : ∀ u v : Variable, p.Knows u → p.Knows v → u.handle = v.handle → u = v
  made : ∀ (slot : Nat) (v : Variable), p.bySlot[slot]? = some v → v.handle < p.nextHandle
  bound : ∀ handle slot : Nat, p.byHandle[handle]? = some slot →
    handle < p.nextHandle ∧ ∃ v : Variable, p.bySlot[slot]? = some v ∧ v.handle ≤ handle

/-- What a later process has kept: the variables, and what the handles stand for unless they were
given up. -/
structure Process.Later (p p' : Process) : Prop where
  knows : ∀ v, p.Knows v → p'.Knows v
  handled : p.Handled → p'.Handled
  nextHandle : p.nextHandle ≤ p'.nextHandle
  bound : ∀ handle slot : Nat, handle < p.nextHandle → p'.byHandle[handle]? = some slot →
    p.byHandle[handle]? = some slot

/-- A sound process stays sound and keeps its variables. -/
def Process.Grows (p p' : Process) : Prop :=
  p.Sound → p'.Sound ∧ p.Later p'

/-- What the process keeps about its variables, their handles and the slots that were taken. -/
def Process.register (p : Process) :
    ExtTreeMap Nat Variable × SlotSupply × Nat × Nat × ExtTreeMap Nat Nat × Nat :=
  (p.bySlot, p.supply, p.tally.variablesRegistered, p.burned, p.byHandle, p.nextHandle)

theorem Process.Sound.of_eq {p p' : Process} (h : p'.register = p.register) (hp : p.Sound) :
    p'.Sound := by
  simp only [register, Prod.mk.injEq] at h
  obtain ⟨hv, hs, hregistered, hburned, -⟩ := h
  refine ⟨?_, ?_, ?_, ?_, ?_⟩
  · rw [hv, hs]
    exact hp.bySlot
  · rw [hs]
    exact hp.supply
  · rw [hs]
    exact hp.first
  · rw [hv, hregistered]
    exact hp.registered
  · rw [hs, hregistered, hburned]
    exact hp.taken

/-- Only the variables and the handles matter. -/
theorem Process.Later.of_eq {p p' : Process} (h : p'.register = p.register) : p.Later p' := by
  simp only [register, Prod.mk.injEq] at h
  obtain ⟨hslots, -, -, -, hhandles, hnext⟩ := h
  have hknows : ∀ v, p'.Knows v ↔ p.Knows v := fun v => by rw [Knows, Knows, hslots]
  refine ⟨fun v => (hknows v).2, fun hp => ⟨fun u v hu hv => ?_, ?_, ?_⟩, Nat.le_of_eq hnext.symm,
    fun handle slot _ hbound => hhandles ▸ hbound⟩
  · exact hp.own u v ((hknows u).1 hu) ((hknows v).1 hv)
  · rw [hslots, hnext]
    exact hp.made
  · rw [hslots, hhandles, hnext]
    exact hp.bound

namespace Process.Later

theorem refl (p : Process) : p.Later p := .of_eq rfl

theorem trans {p p' p'' : Process} (h : p.Later p') (h' : p'.Later p'') : p.Later p'' where
  knows v hv := h'.knows v (h.knows v hv)
  handled hp := h'.handled (h.handled hp)
  nextHandle := Nat.le_trans h.nextHandle h'.nextHandle
  bound handle slot hlt hbound :=
    h.bound handle slot hlt (h'.bound handle slot (Nat.lt_of_lt_of_le hlt h.nextHandle) hbound)

end Process.Later

namespace Process.Grows

theorem refl (p : Process) : p.Grows p := fun hp => ⟨hp, .refl p⟩

theorem trans {p p' p'' : Process} (h : p.Grows p') (h' : p'.Grows p'') : p.Grows p'' := by
  intro hp
  obtain ⟨hp', hlater⟩ := h hp
  obtain ⟨hp'', hlater'⟩ := h' hp'
  exact ⟨hp'', hlater.trans hlater'⟩

/-- Only the variables, their handles and the slots that were taken matter. -/
theorem of_eq {p p' : Process} (h : p'.register = p.register) : p.Grows p' :=
  fun hp => ⟨hp.of_eq h, .of_eq h⟩

end Process.Grows

theorem Process.Sound.slot_ne {p : Process} (hp : p.Sound) {v : Variable} (hv : p.Knows v) :
    v.slot ≠ reservedSlot :=
  (hp.bySlot _ _ hv).2.1

/-- The live set lists variables of the process under their own slots. -/
def Table.Lists (p : Process) (t : SlotTable) : Prop :=
  ∀ slot v, t.live[slot]? = some v → v.slot = slot ∧ p.Knows v

/-- No slot is set. -/
def Table.Blank {α : Type} (t : Table α) : Prop := ∀ slot, t.get? slot = none

/-- The thread holds the table: it carries it, or has it as its fallback table of whatever epoch. -/
def Thread.Holds (t : Thread) (id : TableId) : Prop :=
  t.carried? = some id ∨ ∃ epoch, t.fallback? = some ⟨epoch, id⟩

theorem Thread.holds_of_seen {t t' : Thread} (h : t'.locals.seen = t.locals.seen) (id : TableId) :
    t'.Holds id ↔ t.Holds id := by
  unfold Holds
  rw [carried?_of_seen h, fallback?_of_seen h]

theorem Thread.not_holds {t : Thread} (hc : t.carried? = none) (hf : t.fallback? = none)
    (id : TableId) : ¬ t.Holds id := by
  simp [Holds, hc, hf]

theorem Thread.holds_of_own? {t : Thread} {epoch : UInt64} {id : TableId}
    (h : t.own? epoch = some id) : t.Holds id := by
  unfold own? at h
  rcases hc : t.carried? with _ | i
  · have h : ∃ f, (t.fallback? = some f ∧ f.epoch = epoch) ∧ f.table = id := by
      simpa [hc, fallbackOf?] using h
    obtain ⟨f, ⟨hf, -⟩, rfl⟩ := h
    exact .inr ⟨f.epoch, hf⟩
  · rw [hc] at h
    cases h
    exact .inl hc

/-- A thread that carries no table holds at most the one that it keeps. -/
theorem Scene.eq_of_holds_keep {sc : Scene} (hc : sc.thread.carried? = none) {id i : TableId}
    (hi : (sc.keep id).thread.Holds i) : i = id := by
  have hcarried : (sc.keep id).thread.carried? = none := by rwa [carried?_keep]
  obtain ⟨epoch, hi⟩ := hi.resolve_left (by simp [hcarried])
  rcases sc.fallback?_keep id with h | h
  · cases h.symm.trans hi
    rfl
  · cases h.symm.trans hi

/-- A thread holds at most the table that it is made to carry. -/
theorem Scene.eq_of_holds_carry {sc : Scene} {id i : TableId} (hi : (sc.carry id).thread.Holds i) :
    i = id := by
  replace hi := hi.resolve_right (by simp)
  rcases sc.carried?_carry id with h | h
  · cases h.symm.trans hi
    rfl
  · cases h.symm.trans hi

/-- A thread that only gives up tables held the others before. -/
theorem Scene.holds_of_giveUp {sc : Scene} {l : Locals}
    (hcarried : (sc.setLocals l).thread.carried? = none ∨
      (sc.setLocals l).thread.carried? = sc.thread.carried?)
    (hfallback : (sc.setLocals l).thread.fallback? = none ∨
      (sc.setLocals l).thread.fallback? = sc.thread.fallback?) {i : TableId}
    (hi : (sc.setLocals l).thread.Holds i) : sc.thread.Holds i := by
  rcases hi with hi | ⟨epoch, hi⟩
  · exact .inl ((hcarried.resolve_left (by simp [hi])).symm.trans hi)
  · exact .inr ⟨epoch, (hfallback.resolve_left (by simp [hi])).symm.trans hi⟩

/-- Live sets list variables of the process, and a thread holds at most one table, which it has
made without values in it. -/
structure Thread.Sound (t : Thread) (p : Process) : Prop where
  lists : ∀ id, (t.table id).Lists p
  exclusive : t.carried? = none ∨ t.fallback? = none
  made : ∀ id, t.Holds id → id < t.nextTable
  filled : ∀ id ∈ t.filled, id < t.nextTable ∧ ¬ t.Holds id

/-- A table that the thread has made and that never had a value in it. -/
structure Thread.Unused (t : Thread) (id : TableId) : Prop where
  made : id < t.nextTable
  unfilled : id ∉ t.filled
  blank : (t.table id).Blank

/-- A carrying thread holds no other table. -/
theorem Thread.Sound.eq_of_carried {t : Thread} {p : Process} (ht : t.Sound p) {i id : TableId}
    (h : t.carried? = some i) (hid : t.Holds id) : id = i := by
  have hf : t.fallback? = none := ht.exclusive.resolve_left (by simp [h])
  simpa [Thread.Holds, h, hf, eq_comm] using hid

/-- The process and the thread are sound. -/
structure Scene.Sound (sc : Scene) : Prop where
  process : sc.process.Sound
  thread : sc.thread.Sound sc.process

/-! ## Moves -/

/-- The removal hooks that were called, each by its variable's handle, and what they were handed. -/
def hookCalls : List Event → List (Nat × Value) :=
  List.filterMap fun
    | .removed handle value => some (handle, value)
    | _ => none

/-- Nothing happened that concerns a stored value, though variables may have been made. -/
structure Aside (sc sc' : Scene) : Prop where
  process : sc.process.Grows sc'.process
  tables : sc'.thread.tables = sc.thread.tables
  nextTable : sc'.thread.nextTable = sc.thread.nextTable
  locals : sc'.thread.locals.seen = sc.thread.locals.seen
  interrupted : sc'.thread.interrupted = sc.thread.interrupted
  filled : sc'.thread.filled = sc.thread.filled
  partings : sc'.partings = sc.partings
  arrivals : sc'.arrivals = sc.arrivals
  calls : hookCalls sc'.events = hookCalls sc.events

/-- What happens to a thread's storage between two points where nested code may run, while the given
tables are being cleared. -/
inductive Move (busy : List TableId) : Scene → Scene → Prop where
  | aside {sc sc' : Scene} (h : Aside sc sc') : Move busy sc sc'
  /-- A table is made, and values may be put into it before anything else happens. -/
  | make {sc : Scene} (t : SlotTable) (marks : List TableId) (news : List Arrival)
    (h : sc.Fills t marks news) : Move busy sc (sc.makeFilled t marks news)
  /-- The thread holds other tables: some that it has held, or an empty one. -/
  | relocate {sc : Scene} (l : Locals)
    (hheld : ∀ id, (sc.setLocals l).thread.Holds id → sc.thread.Holds id ∨ sc.thread.Unused id)
    (hexclusive : (sc.setLocals l).thread.carried? = none ∨
      (sc.setLocals l).thread.fallback? = none) :
    Move busy sc (sc.setLocals l)
  /-- The carried table is emptied in place. -/
  | empty {sc : Scene} (id : TableId) (policy : SentinelPolicy)
    (hcarried : sc.thread.carried? = some id) :
    Move busy sc
      { sc.setTable id { policy := policy } with partings := .emptied id :: sc.partings }
  /-- A value of the variable's type is stored and the variable tracked. -/
  | put {sc : Scene} {v : Variable} (hv : sc.process.Knows v) (id : TableId) (value : Value)
    (hkind : value.kind = v.kind) (fate : Fate) (hfate : fate = .returned ∨ fate = .overwritten)
    {stored : Table.Stored Cell}
    (h : (sc.thread.table id).insert v.slot (.value value) = .ok stored) :
    Move busy sc
      (((sc.setTable id (stored.track v)).arrived id v.slot (.value value)).parted id v.slot fate
        ((sc.thread.table id).get? v.slot))
  /-- A value is handed back. -/
  | take {sc : Scene} {v : Variable} (hv : sc.process.Knows v) (id : TableId) :
    Move busy sc
      ((sc.setTable id ((sc.thread.table id).without v)).parted id v.slot .returned
        ((sc.thread.table id).get? v.slot))
  /-- A value is removed and handed to the hook. -/
  | remove {sc : Scene} {v : Variable} (hv : sc.process.Knows v) (id : TableId) :
    Move busy sc
      ((sc.setTable id ((sc.thread.table id).without v)).handedOver v id
        ((sc.thread.table id).get? v.slot))
  /-- A table that is being cleared loses the value of a variable, which goes to the hook. -/
  | clear {sc : Scene} {v : Variable} (hv : sc.process.Knows v) {id : TableId} (hid : id ∈ busy) :
    Move busy sc
      ((sc.setTable id ((sc.thread.table id).erase v.slot).table).handedOver v id
        ((sc.thread.table id).get? v.slot))
  /-- A table that is being cleared loses its live set. -/
  | detach {sc : Scene} {id : TableId} (hid : id ∈ busy) :
    Move busy sc (sc.setTable id ((sc.thread.table id).erase reservedSlot).table)

/-- A sequence of moves, while the given tables are being cleared. -/
inductive Course : List TableId → Scene → Scene → Prop where
  | rest {busy : List TableId} {sc : Scene} : Course busy sc sc
  | move {busy : List TableId} {sc sc' sc'' : Scene} (h : Course busy sc sc')
    (hm : Move busy sc' sc'') : Course busy sc sc''
  /-- A clearing that ends: no table that the thread holds has a value then. -/
  | pass {busy : List TableId} {sc sc' sc'' : Scene} (h : Course busy sc sc') (id : TableId)
    (hpass : Course (id :: busy) sc' sc'')
    (hblank : ∀ i, sc''.thread.Holds i → (sc''.thread.table i).Blank) : Course busy sc sc''
  /-- A clearing that a panic ends. -/
  | interrupt {busy : List TableId} {sc sc' sc'' : Scene} (h : Course busy sc sc') (id : TableId)
    (hpass : Course (id :: busy) sc' sc'') : Course busy sc sc''.interrupt

namespace Course

variable {busy : List TableId} {sc sc' sc'' : Scene}

theorem of_move (h : Move busy sc sc') : Course busy sc sc' := .move .rest h

theorem of_aside (h : Aside sc sc') : Course busy sc sc' := of_move (.aside h)

theorem trans (h : Course busy sc sc') (h' : Course busy sc' sc'') : Course busy sc sc'' := by
  induction h' with
  | rest => exact h
  | move _ hm ih => exact .move (ih h) hm
  | pass _ id hpass hblank ih => exact .pass (ih h) id hpass hblank
  | interrupt _ id hpass ih => exact .interrupt (ih h) id hpass

/-- What holds of every move, and of two changes in a row if it holds of each, holds of every
course. The mark of an interruption has to be harmless. -/
theorem relates {R : Scene → Scene → Prop} (refl : ∀ sc, R sc sc)
    (trans : ∀ {sc sc' sc''}, R sc sc' → R sc' sc'' → R sc sc'')
    (move : ∀ {busy sc sc'}, Move busy sc sc' → R sc sc') (interrupt : ∀ sc, R sc sc.interrupt)
    (h : Course busy sc sc') : R sc sc' := by
  induction h with
  | rest => exact refl _
  | move _ hm ih => exact trans ih (move hm)
  | pass _ _ _ _ ih ihpass => exact trans ih ihpass
  | interrupt _ _ _ ih ihpass => exact trans (trans ih ihpass) (interrupt _)

end Course

/-! ## Soundness -/

namespace Scene

variable (sc : Scene) (v : Variable) (id : TableId) (cell : Option Cell)

@[simp] theorem thread_handedOver : (sc.handedOver v id cell).thread = sc.thread := by
  unfold handedOver
  split <;> rfl

@[simp] theorem process_handedOver : (sc.handedOver v id cell).process = sc.process := by
  unfold handedOver
  split <;> rfl

end Scene

namespace Table.Lists

variable {p : Process} {t : SlotTable}

theorem of_live_eq {u : SlotTable} (ht : t.Lists p) (h : u.live = t.live) : u.Lists p := by
  unfold Table.Lists
  rw [h]
  exact ht

theorem of_live_empty (h : t.live = ∅) : t.Lists p := by
  intro slot v hv
  rw [h] at hv
  simp at hv

theorem mono {p' : Process} (h : ∀ v, p.Knows v → p'.Knows v) (ht : t.Lists p) : t.Lists p' :=
  fun slot v hv => ⟨(ht slot v hv).1, h v (ht slot v hv).2⟩

theorem of_mem_listed (ht : t.Lists p) {v : Variable} (hv : v ∈ t.listed) :
    t.live[v.slot]? = some v ∧ p.Knows v := by
  obtain ⟨⟨slot, u⟩, hmem, rfl⟩ := List.mem_map.1 hv
  have hget := ExtTreeMap.mem_toList_iff_getElem?_eq_some.1 hmem
  obtain ⟨rfl, hknows⟩ := ht slot u hget
  exact ⟨hget, hknows⟩

theorem track (ht : t.Lists p) (hp : p.Sound) {v : Variable} (hv : p.Knows v) {c : Cell}
    {stored : Table.Stored Cell} (h : t.insert v.slot c = .ok stored) :
    (stored.track v).Lists p := by
  intro slot u hu
  rw [Table.live_track h (hp.slot_ne hv)] at hu
  split at hu
  · exact ht slot u hu
  · rw [ExtTreeMap.getElem?_insert] at hu
    split at hu
    · next he =>
      cases hu
      exact ⟨by simpa using he, hv⟩
    · exact ht slot u hu

theorem without (ht : t.Lists p) (hp : p.Sound) {v : Variable} (hv : p.Knows v) :
    (t.without v).Lists p := by
  intro slot u hu
  rw [Table.live_without t (hp.slot_ne hv), ExtTreeMap.getElem?_erase] at hu
  split at hu
  · cases hu
  · exact ht slot u hu

theorem erase (ht : t.Lists p) (slot : Nat) : (t.erase slot).table.Lists p := by
  by_cases h : slot = reservedSlot
  · apply of_live_empty
    simp [Table.live, Table.get?_erase, h]
  · apply ht.of_live_eq
    apply Table.live_congr
    rw [Table.get?_erase, if_neg (Ne.symm h)]

end Table.Lists

namespace Thread.Sound

variable {sc : Scene} {p : Process}

theorem setTable (h : sc.thread.Sound p) (id : TableId) {t : SlotTable} (ht : t.Lists p) :
    (sc.setTable id t).thread.Sound p where
  lists i := by
    rw [Scene.table_setTable]
    split
    · exact ht
    · exact h.lists i
  exclusive := h.exclusive
  made := h.made
  filled := h.filled

end Thread.Sound

theorem Move.grows {busy : List TableId} {sc sc' : Scene} (h : Move busy sc sc') :
    sc.process.Grows sc'.process := by
  cases h with
  | aside h => exact h.process
  | remove | clear =>
    rw [Scene.process_handedOver]
    exact .refl _
  | _ => exact .refl _

theorem Move.sound {busy : List TableId} {sc sc' : Scene} (h : Move busy sc sc') (hs : sc.Sound) :
    sc'.Sound := by
  obtain ⟨hp, ht⟩ := hs
  cases h with
  | aside h =>
    obtain ⟨hp', hlater⟩ := h.process hp
    have hholds := Thread.holds_of_seen h.locals
    refine ⟨hp', ⟨fun id => ?_, ?_, fun id hid => ?_, fun id hid => ?_⟩⟩
    · have := (ht.lists id).mono hlater.knows
      unfold Thread.table at *
      rwa [h.tables]
    · rw [Thread.carried?_of_seen h.locals, Thread.fallback?_of_seen h.locals]
      exact ht.exclusive
    · rw [h.nextTable]
      exact ht.made id ((hholds id).1 hid)
    · rw [h.filled] at hid
      rw [h.nextTable, hholds]
      exact ht.filled id hid
  | make t marks news hfills =>
    refine ⟨hp, ⟨fun id => ?_, ht.exclusive, fun id hid => Nat.lt_succ_of_lt (ht.made id hid),
      fun id hid => ?_⟩⟩
    · exact (ht.setTable sc.thread.nextTable (.of_live_empty hfills.live)).lists id
    · rcases List.mem_append.1 hid with hid | hid
      · obtain rfl := hfills.marked id hid
        exact ⟨Nat.lt_succ_self _, fun hholds => Nat.lt_irrefl _ (ht.made _ hholds)⟩
      · exact ⟨Nat.lt_succ_of_lt (ht.filled id hid).1, (ht.filled id hid).2⟩
  | relocate l hheld hexclusive =>
    refine ⟨hp, ⟨ht.lists, hexclusive, fun i hi => ?_, fun i hi => ⟨(ht.filled i hi).1, ?_⟩⟩⟩
    · exact (hheld i hi).elim (ht.made i) (·.made)
    · exact fun hholds => (hheld i hholds).elim (ht.filled i hi).2 (·.unfilled hi)
  | empty id policy => exact ⟨hp, ht.setTable id (.of_live_empty (by simp [Table.live]))⟩
  | put hv id value _ fate _ h => exact ⟨hp, ht.setTable id ((ht.lists id).track hp hv h)⟩
  | take hv id => exact ⟨hp, ht.setTable id ((ht.lists id).without hp hv)⟩
  | remove hv id =>
    refine ⟨?_, ?_⟩ <;> simp only [Scene.process_handedOver, Scene.thread_handedOver]
    · exact hp
    · exact ht.setTable id ((ht.lists id).without hp hv)
  | clear hv hid =>
    refine ⟨?_, ?_⟩ <;> simp only [Scene.process_handedOver, Scene.thread_handedOver]
    · exact hp
    · exact ht.setTable _ ((ht.lists _).erase _)
  | detach hid => exact ⟨hp, ht.setTable _ ((ht.lists _).erase _)⟩

namespace Course

variable {busy : List TableId} {sc sc' sc'' : Scene}

theorem grows (h : Course busy sc sc') : sc.process.Grows sc'.process :=
  h.relates (R := fun sc sc' => sc.process.Grows sc'.process) (fun _ => .refl _)
    (fun f g => f.trans g) Move.grows (fun _ => .refl _)

theorem knows (h : Course busy sc sc') (hs : sc.Sound) {v : Variable} (hv : sc.process.Knows v) :
    sc'.process.Knows v :=
  (h.grows hs.process).2.knows v hv

theorem sound (h : Course busy sc sc') (hs : sc.Sound) : sc'.Sound :=
  h.relates (R := fun sc sc' => sc.Sound → sc'.Sound) (fun _ => id) (fun f g => g ∘ f) Move.sound
    (fun _ hs => ⟨hs.process, hs.thread.lists, hs.thread.exclusive, hs.thread.made,
      hs.thread.filled⟩) hs

end Course

/-! ## Agreement -/

/-- Unless a clearing of the thread was interrupted, the tables that it holds agree with their live
sets, except for those that are being cleared. -/
def Thread.Agrees (busy : List TableId) (t : Thread) : Prop :=
  t.interrupted = false → ∀ id, t.Holds id → id ∉ busy → (t.table id).Agrees

theorem Table.Blank.agrees {t : SlotTable} (h : t.Blank) : t.Agrees := by
  intro slot
  simp [Table.live, Table.contains, h reservedSlot, h slot]

namespace Thread.Agrees

variable {busy : List TableId} {sc : Scene}

/-- Only a table that is held, and not being cleared, has to agree when it is written. -/
theorem setTable (h : sc.thread.Agrees busy) {id : TableId} {t : SlotTable}
    (ht : id ∉ busy → (sc.thread.table id).Agrees → t.Agrees) :
    (sc.setTable id t).thread.Agrees busy := by
  intro hi i hholds hbusy
  rw [Scene.table_setTable]
  split
  · next he =>
    subst he
    exact ht hbusy (h hi i hholds hbusy)
  · exact h hi i hholds hbusy

end Thread.Agrees

theorem Move.agrees {busy : List TableId} {sc sc' : Scene} (h : Move busy sc sc') (hs : sc.Sound)
    (ha : sc.thread.Agrees busy) : sc'.thread.Agrees busy := by
  cases h with
  | aside h =>
    intro hi i hholds hbusy
    have := ha (h.interrupted ▸ hi) i ((Thread.holds_of_seen h.locals i).1 hholds) hbusy
    unfold Thread.table at *
    rwa [h.tables]
  | make t ht =>
    intro hi i hholds hbusy
    have hlt : i < sc.thread.nextTable := hs.thread.made i hholds
    have : (sc.setTable sc.thread.nextTable t).thread.table i = sc.thread.table i := by
      rw [Scene.table_setTable, if_neg (Nat.ne_of_lt hlt)]
    unfold Thread.table at *
    exact this ▸ ha hi i hholds hbusy
  | relocate l hheld hexclusive =>
    intro hi i hholds hbusy
    exact (hheld i hholds).elim (ha hi i · hbusy) (·.blank.agrees)
  | empty id policy hcarried =>
    exact ha.setTable fun _ _ => Table.Blank.agrees (Table.get?_mk policy)
  | put hv id value _ fate _ h =>
    exact ha.setTable fun _ ht => ht.track (hs.process.slot_ne hv) h
  | take hv id => exact ha.setTable fun _ ht => ht.without (hs.process.slot_ne hv)
  | remove hv id =>
    rw [Scene.thread_handedOver]
    exact ha.setTable fun _ ht => ht.without (hs.process.slot_ne hv)
  | clear hv hid =>
    rw [Scene.thread_handedOver]
    exact ha.setTable fun hbusy => absurd hid hbusy
  | detach hid => exact ha.setTable fun hbusy => absurd hid hbusy

/-- After any course in which no clearing of the thread was interrupted, the tables that the thread
holds agree with their live sets if they did before, except for those still being cleared. -/
theorem Course.agrees {busy : List TableId} {sc sc' : Scene} (h : Course busy sc sc')
    (hs : sc.Sound) (ha : sc.thread.Agrees busy) : sc'.thread.Agrees busy := by
  induction h with
  | rest => exact ha
  | move h hm ih => exact hm.agrees (h.sound hs) (ih hs ha)
  | pass h id hpass hblank => exact fun _ i hholds _ => (hblank i hholds).agrees
  | interrupt h id hpass => exact fun hi => nomatch hi

end ThreadSlots
