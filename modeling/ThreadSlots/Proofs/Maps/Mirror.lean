import ThreadSlots.Proofs.Clearing
import ThreadSlots.Proofs.Maps.Machine

/-!
# Tables that hold what maps hold

The relation between a scene and a world of maps (`Scene.Mirrors`): the process has the variables and
the settings that the threads share, and every table of the thread holds the values of the map with
the same number. In such a table the live set lists exactly the variables of the map, so agreement of
live set and slots is part of the relation.

A fallback table is the thread's own map only while its epoch is the current one. The relation knows
the number of destructions before which the table was made (`Owns`), of which the epoch is the
remainder modulo `2 ^ 64`; so an old table is told apart as long as there were fewer destructions
than that.
-/

namespace ThreadSlots

open Std (ExtTreeMap)
open Maps

/-! ## One table -/

/-- The table holds what the map holds, and lists its variables. -/
structure Table.Mirrors (t : SlotTable) (p : Process) (m : ValueMap) : Prop where
  policy : t.policy = m.policy
  grown : t.Grown
  get : ∀ slot, slot ≠ reservedSlot → t.get? slot = m.values[slot]?.map fun e => .value e.2
  live : t.live = m.values.map fun _ e => e.1
  entries : ∀ slot v value, m.values[slot]? = some (v, value) →
    v.slot = slot ∧ p.Knows v ∧ value.kind = v.kind

namespace Table.Mirrors

variable {t : SlotTable} {p : Process} {m : ValueMap} {v : Variable}

theorem of_blank (hg : t.Grown) (ht : t.Blank) : t.Mirrors p { policy := t.policy } where
  policy := rfl
  grown := hg
  get slot _ := by rw [ht slot]; simp
  live := by
    rw [show t.live = ∅ by simp [Table.live, ht reservedSlot]]
    ext
    simp
  entries slot v value h := by simp at h

theorem of_policy (policy : SentinelPolicy) :
    ({ policy := policy } : SlotTable).Mirrors p { policy := policy } :=
  of_blank (Table.grown_mk policy) (Table.get?_mk policy)

theorem mono {p' : Process} (hk : ∀ v, p.Knows v → p'.Knows v) (h : t.Mirrors p m) :
    t.Mirrors p' m :=
  { h with
    entries := fun slot v value hm =>
      ⟨(h.entries slot v value hm).1, hk v (h.entries slot v value hm).2.1,
        (h.entries slot v value hm).2.2⟩ }

/-- The entry of a variable in the map is its own. -/
theorem entry_eq (h : t.Mirrors p m) (hv : p.Knows v) {u : Variable} {value : Value}
    (hm : m.values[v.slot]? = some (u, value)) : u = v ∧ value.kind = v.kind := by
  obtain ⟨hslot, hu, hkind⟩ := h.entries v.slot u value hm
  have huv : u = v := by
    unfold Process.Knows at hu hv
    rw [hslot, hv] at hu
    exact (Option.some.inj hu).symm
  exact ⟨huv, huv ▸ hkind⟩

theorem get_eq (h : t.Mirrors p m) (hp : p.Sound) (hv : p.Knows v) :
    t.get? v.slot = (m.value? v).map .value := by
  rw [h.get v.slot (hp.slot_ne hv), ValueMap.value?, Option.map_map]
  rfl

theorem value?_eq (h : t.Mirrors p m) (hp : p.Sound) (hv : p.Knows v) :
    (t.get? v.slot).bind (·.value? v.kind) = m.value? v := by
  rw [h.get v.slot (hp.slot_ne hv), ValueMap.value?]
  rcases hm : m.values[v.slot]? with _ | ⟨u, value⟩
  · rfl
  · obtain ⟨-, hkind⟩ := h.entry_eq hv hm
    simp [Cell.value?, hkind]

theorem contains_eq (h : t.Mirrors p m) (hp : p.Sound) (hv : p.Knows v) :
    t.contains v.slot = (m.value? v).isSome := by
  unfold Table.contains
  rw [h.get_eq hp hv, Option.isSome_map]

theorem agrees (h : t.Mirrors p m) (hp : p.Sound) : t.Agrees := by
  intro slot
  rw [h.live, ExtTreeMap.mem_map]
  by_cases hs : slot = reservedSlot
  · subst hs
    have hnot : reservedSlot ∉ m.values := by
      intro hmem
      rw [ExtTreeMap.mem_iff_isSome_getElem?] at hmem
      obtain ⟨⟨u, value⟩, hm⟩ := Option.isSome_iff_exists.1 hmem
      obtain ⟨hslot, hu, -⟩ := h.entries _ u value hm
      exact hp.slot_ne hu hslot
    exact iff_of_false hnot fun hne => hne.1 rfl
  · unfold Table.contains
    rw [h.get slot hs, Option.isSome_map, ExtTreeMap.mem_iff_isSome_getElem?]
    exact (and_iff_right hs).symm

theorem size_live (h : t.Mirrors p m) : t.live.size = m.values.size := by
  rw [h.live, ExtTreeMap.size_map]

theorem size_eq (h : t.Mirrors p m) (hp : p.Sound) : t.size = m.values.size := by
  rw [← (h.agrees hp).size_live, h.size_live]

theorem exists_insert (h : t.Mirrors p m) (hp : p.Sound) (hv : p.Knows v) (c : Cell) :
    ∃ stored, t.insert v.slot c = .ok stored ∧ stored.table.Grown :=
  Table.exists_insert h.grown (hp.bySlot _ _ hv).2.2.1 c

theorem insert (h : t.Mirrors p m) (hp : p.Sound) (hv : p.Knows v) {value : Value}
    (hkind : value.kind = v.kind) {stored : Table.Stored Cell}
    (hi : t.insert v.slot (.value value) = .ok stored) :
    (stored.track v).Mirrors p (m.insert v value) where
  policy := by
    have hpolicy : t.policy = (m.insert v value).policy := h.policy
    rw [← hpolicy, ← (Table.insert_eq_ok hi).2.2.2.1]
    unfold Table.Stored.track
    split <;> rfl
  grown := by
    obtain ⟨stored', hi', hg⟩ := h.exists_insert hp hv (.value value)
    cases hi.symm.trans hi'
    exact hg.track v
  get slot hs := by
    rw [Table.get?_track hi hs, h.get slot hs, ValueMap.insert, ExtTreeMap.getElem?_insert]
    by_cases he : slot = v.slot
    · simp [he]
    · simp [he, Ne.symm he]
  live := by
    rw [Table.live_track hi (hp.slot_ne hv), h.contains_eq hp hv, h.live]
    apply ExtTreeMap.ext_getElem?
    intro slot
    rcases hm : m.values[v.slot]? with _ | ⟨u, old⟩
    · simp only [ValueMap.value?, hm, ValueMap.insert, Option.map_none, Option.isSome_none,
        Bool.false_eq_true, if_false, ExtTreeMap.getElem?_insert, ExtTreeMap.getElem?_map]
      split <;> rfl
    · obtain ⟨rfl, -⟩ := h.entry_eq hv hm
      simp only [ValueMap.value?, hm, ValueMap.insert, Option.map_some, Option.isSome_some,
        if_true, ExtTreeMap.getElem?_map, ExtTreeMap.getElem?_insert]
      by_cases he : u.slot = slot
      · subst he
        simp [hm]
      · simp [he]
  entries slot u x hm := by
    rw [ValueMap.insert, ExtTreeMap.getElem?_insert] at hm
    split at hm
    · next he =>
      cases hm
      exact ⟨by simpa using he, hv, hkind⟩
    · exact h.entries slot u x hm

theorem erase (h : t.Mirrors p m) (hp : p.Sound) (hv : p.Knows v) :
    (t.without v).Mirrors p (m.erase v) where
  policy := by
    rw [← show t.policy = (m.erase v).policy from h.policy]
    unfold Table.without Table.untracked
    split <;> rfl
  grown := h.grown.without v
  get slot hs := by
    rw [Table.get?_without t v hs, h.get slot hs, ValueMap.erase, ExtTreeMap.getElem?_erase]
    by_cases he : slot = v.slot
    · simp [he]
    · simp [he, Ne.symm he]
  live := by
    rw [Table.live_without t (hp.slot_ne hv), h.live]
    apply ExtTreeMap.ext_getElem?
    intro slot
    simp only [ValueMap.erase, ExtTreeMap.getElem?_map, ExtTreeMap.getElem?_erase]
    split <;> rfl
  entries slot u x hm := by
    rw [ValueMap.erase, ExtTreeMap.getElem?_erase] at hm
    split at hm
    · cases hm
    · exact h.entries slot u x hm

end Table.Mirrors

/-! ## The process -/

/-- The epoch that fallback tables are stamped with after some destructions. -/
def stamp (destroys : Nat) : UInt64 := UInt64.ofNat (destroys + 1)

theorem stamp_succ (destroys : Nat) : stamp destroys + 1 = stamp (destroys + 1) := by
  unfold stamp
  rw [UInt64.ofNat_add (destroys + 1) 1]
  rfl

theorem stamp_ne {k destroys : Nat} (hk : k < destroys) (hd : destroys < 2 ^ 64) :
    stamp k ≠ stamp destroys := by
  intro h
  have := congrArg UInt64.toNat h
  simp only [stamp, UInt64.toNat_ofNat'] at this
  omega

/-- The process has the variables and settings that the threads share. Its variables are pure. -/
structure Process.Mirrors (p : Process) (destroys : Nat) (s : Shared) : Prop where
  sound : p.Sound
  pure : ∀ (slot : Nat) (v : Variable), p.bySlot[slot]? = some v → v.Pure
  supply : s.supply = p.supply
  bySlot : s.bySlot = p.bySlot
  byHandle : s.byHandle = p.byHandle
  nextHandle : s.nextHandle = p.nextHandle
  draws : s.draws = p.draws
  policy : s.policy = p.inEffect.sentinelPolicy
  epoch : p.epoch = stamp destroys
  bound : destroys < 2 ^ 64

theorem Process.Knows.of_stripped {p p' : Process} {v : Variable} (h : p.Knows v)
    (hp : p'.stripped = p.stripped) : p'.Knows v := by
  have hslots : p'.bySlot = p.bySlot := congrArg (·.bySlot) hp
  unfold Process.Knows at *
  rw [hslots]
  exact h

theorem Process.Mirrors.of_stripped {p p' : Process} {destroys : Nat} {s : Shared}
    (h : p.Mirrors destroys s) (hp : p'.stripped = p.stripped) : p'.Mirrors destroys s := by
  have hsupply : p'.supply = p.supply := congrArg (·.supply) hp
  have hslots : p'.bySlot = p.bySlot := congrArg (·.bySlot) hp
  refine ⟨h.sound.of_eq (congrArg (·.register) hp), fun slot v hv => h.pure slot v (hslots ▸ hv),
    h.supply.trans hsupply.symm, h.bySlot.trans hslots.symm, h.byHandle.trans ?_,
    h.nextHandle.trans ?_, h.draws.trans ?_,
    h.policy.trans ?_, Eq.trans ?_ h.epoch, h.bound⟩
  · exact (congrArg (·.byHandle) hp).symm
  · exact (congrArg (·.nextHandle) hp).symm
  · exact (congrArg (·.draws) hp).symm
  · exact (congrArg (·.inEffect.sentinelPolicy) hp).symm
  · exact congrArg (·.epoch) hp

/-! ## The thread -/

/-- What the thread-locals hold is the thread's own map, if it is not from before the last
destruction. -/
inductive Owns (destroys : Nat) :
    Option (Option TableId) × Option (Option Fallback) → Own → Prop where
  | nothing : Owns destroys (some none, some none) .nothing
  | stale {k : Nat} (hk : k < destroys) (id : TableId) :
    Owns destroys (some none, some (some ⟨stamp k, id⟩)) .nothing
  | kept (id : TableId) : Owns destroys (some none, some (some ⟨stamp destroys, id⟩)) (.kept id)
  | carried (id : TableId) : Owns destroys (some (some id), some none) (.carried id)

/-- The thread's tables hold what the owner's maps hold. -/
structure Thread.Mirrors (t : Thread) (p : Process) (destroys : Nat) (o : Owner) : Prop where
  tables : ∀ id, (t.table id).Mirrors p (o.map id)
  next : o.next = t.nextTable
  names : o.names = t.names
  label : o.label = t.label
  owns : Owns destroys t.locals.seen o.own

theorem Thread.Mirrors.mono {t : Thread} {p p' : Process} {destroys : Nat} {o : Owner}
    (h : t.Mirrors p destroys o) (hknows : ∀ v, p.Knows v → p'.Knows v) :
    t.Mirrors p' destroys o :=
  { h with tables := fun id => (h.tables id).mono hknows }

namespace Owns

variable {destroys : Nat} {t : Thread} {own : Own}

theorem own?_eq (h : Owns destroys t.locals.seen own) (hd : destroys < 2 ^ 64) :
    t.own? (stamp destroys) = own.id? := by
  rw [t.own?_eq_seen]
  generalize t.locals.seen = l at h
  cases h with
  | nothing | carried => simp [Own.id?]
  | kept => simp [Own.id?, Option.filter]
  | stale hk id => simp [Own.id?, stamp_ne hk hd]

theorem carried?_eq (h : Owns destroys t.locals.seen own) : t.carried? = own.carried? := by
  rw [t.carried?_eq_seen]
  generalize t.locals.seen = l at h
  cases h <;> rfl

/-- Every thread loses its own map but a carried one. -/
theorem destroyed {l : Option (Option TableId) × Option (Option Fallback)} (h : Owns destroys l own) :
    Owns (destroys + 1) l own.spared := by
  cases h with
  | nothing => exact .nothing
  | stale hk id => exact .stale (Nat.lt_succ_of_lt hk) id
  | kept id => exact .stale (Nat.lt_succ_self destroys) id
  | carried id => exact .carried id

theorem outlast {l : Option (Option TableId) × Option (Option Fallback)} {o : Owner}
    (h : Owns destroys l o.own) (n : Nat) :
    Owns (destroys + n) l (o.outlast n).own := by
  induction n with
  | zero => exact h
  | succ n ih =>
    have hspared : (o.outlast n).own.spared = o.own.spared := by
      unfold Owner.outlast
      split
      · rfl
      · cases o.own <;> rfl
    have := ih.destroyed
    rw [hspared] at this
    exact this

end Owns

theorem Maps.Owner.map_insert (o : Owner) (id : TableId) (m : ValueMap) (i : TableId) :
    { o with maps := o.maps.insert id m }.map i = if i = id then m else o.map i := by
  unfold Owner.map
  rw [ExtTreeMap.getD_insert]
  simp only [Nat.compare_eq_eq, eq_comm (a := i)]

/-! ## The scene -/

/-- The scene is what the world shows, after so many destructions. The given variables are known to
the process. -/
structure Scene.Mirrors (known : List Variable) (destroys : Nat) (sc : Scene) (w : World) :
    Prop where
  process : sc.process.Mirrors destroys w.shared
  thread : sc.thread.Mirrors sc.process destroys w.owner
  events : w.events = sc.events.map Event.shown
  known : ∀ v ∈ known, sc.process.Knows v

namespace Scene.Mirrors

variable {known : List Variable} {destroys : Nat} {sc sc' : Scene} {w : World}

theorem own?_eq (h : sc.Mirrors known destroys w) : sc.own? = w.owner.own.id? := by
  unfold Scene.own?
  rw [h.process.epoch]
  exact h.thread.owns.own?_eq h.process.bound

theorem carried?_eq (h : sc.Mirrors known destroys w) : sc.thread.carried? = w.owner.own.carried? :=
  h.thread.owns.carried?_eq

theorem like (h : sc.Mirrors known destroys w) (hlike : sc.Like sc') :
    sc'.Mirrors known destroys w := by
  have hstripped : sc'.process.stripped = sc.process.stripped :=
    (congrArg (·.process) hlike).symm
  have hknows : ∀ v, sc.process.Knows v → sc'.process.Knows v :=
    fun v hv => hv.of_stripped hstripped
  refine ⟨h.process.of_stripped hstripped, ⟨fun id => ?_, ?_, ?_, ?_, ?_⟩,
    h.events.trans ?_, fun v hv => hknows v (h.known v hv)⟩
  · rw [hlike.thread_table]
    exact (h.thread.tables id).mono hknows
  · exact h.thread.next.trans (congrArg (·.thread.nextTable) hlike)
  · exact h.thread.names.trans (congrArg (·.thread.names) hlike)
  · exact h.thread.label.trans (congrArg (·.thread.label) hlike)
  · rw [← show sc.thread.locals = sc'.thread.locals from congrArg (·.thread.locals) hlike]
    exact h.thread.owns
  · exact congrArg (List.map Event.shown) (congrArg (·.events) hlike)

theorem setTable (h : sc.Mirrors known destroys w) {t : SlotTable} {m : ValueMap} (id : TableId)
    (ht : t.Mirrors sc.process m) : (sc.setTable id t).Mirrors known destroys (w.setMap id m) := by
  refine ⟨h.process, ⟨fun i => ?_, h.thread.next, h.thread.names, h.thread.label, h.thread.owns⟩,
    h.events, h.known⟩
  rw [Scene.table_setTable, World.setMap, Owner.map_insert]
  split
  · exact ht
  · exact h.thread.tables i

theorem makeTable (h : sc.Mirrors known destroys w) {t : SlotTable} {m : ValueMap}
    (ht : t.Mirrors sc.process m) : (sc.makeTable t).Mirrors known destroys (w.makeMap m) := by
  have hset := (h.setTable w.owner.next ht).thread.tables
  refine ⟨h.process, ⟨fun i => ?_, ?_, h.thread.names, h.thread.label, h.thread.owns⟩, h.events,
    h.known⟩
  · have := hset i
    rw [h.thread.next] at this
    unfold World.makeMap
    rw [h.thread.next]
    exact this
  · exact congrArg (· + 1) h.thread.next

theorem setLocals (h : sc.Mirrors known destroys w) {l : Locals} {own : Own}
    (hl : Owns destroys l.seen own) : (sc.setLocals l).Mirrors known destroys (w.setOwn own) :=
  ⟨h.process, ⟨h.thread.tables, h.thread.next, h.thread.names, h.thread.label, hl⟩, h.events,
    h.known⟩

theorem say (h : sc.Mirrors known destroys w) (events : List Event) :
    { sc with events := events.reverse ++ sc.events }.Mirrors known destroys
      (w.say (events.map Event.shown)) := by
  refine ⟨h.process, h.thread, ?_, h.known⟩
  simp [World.say, h.events]

end Scene.Mirrors

end ThreadSlots
