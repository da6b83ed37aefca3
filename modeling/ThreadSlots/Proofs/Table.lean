import Mathlib.Algebra.Group.Nat.Defs
import ThreadSlots.Storage

/-!
# What a slot table holds

A table is read through `get?`; each operation has one equation about it, so that a table can be
thought of as a map with a capacity. The calls that can be refused return the table also then: it is
the one before the call, and what they make of it otherwise is `growTo`, `insert` and `store`
(`expand_eq`, `set_eq`, `setEntry_eq`).

Storing a value and tracking its variable is one change (`Stored.track`), and so is untracking a
variable and erasing its slot (`Table.without`). A table *agrees* if its live set lists exactly the
variables whose slots are set (`Table.Agrees`); both changes keep that.

A table that is grown from a new one has a capacity of `32 * 2 ^ k` slots, so every slot that a
supply hands out can be reached by doubling (`Table.exists_insert`).
-/

namespace ThreadSlots

open Std (ExtTreeMap)

/-- Of two writes to one key the second one counts. -/
theorem insert_insert {β : Type} (m : ExtTreeMap Nat β) (k : Nat) (a b : β) :
    (m.insert k a).insert k b = m.insert k b := by
  apply ExtTreeMap.ext_getElem?
  intro i
  simp only [ExtTreeMap.getElem?_insert]
  split <;> rfl

theorem erase_insert {β : Type} (m : ExtTreeMap Nat β) (k : Nat) (b : β) :
    (m.erase k).insert k b = m.insert k b := by
  apply ExtTreeMap.ext_getElem?
  intro i
  rw [ExtTreeMap.getElem?_insert, ExtTreeMap.getElem?_insert, ExtTreeMap.getElem?_erase]
  split <;> rfl

theorem insert_of_getElem? {β : Type} {m : ExtTreeMap Nat β} {k : Nat} {b : β}
    (h : m[k]? = some b) : m.insert k b = m := by
  apply ExtTreeMap.ext_getElem?
  intro i
  rw [ExtTreeMap.getElem?_insert]
  split
  · next hi => rw [← Nat.compare_eq_eq.1 hi, h]
  · rfl

namespace Table

variable {α : Type}

/-! ## Entries -/

theorem get?_of_capacity_le {t : Table α} {slot : Nat} (h : t.capacity ≤ slot) :
    t.get? slot = none := by
  unfold get?
  rw [Array.getElem?_eq_none h]
  rfl

theorem lt_capacity_of_contains {t : Table α} {slot : Nat} (h : t.contains slot = true) :
    slot < t.capacity := by
  refine Nat.lt_of_not_le fun hle => ?_
  rw [contains, get?_of_capacity_le hle] at h
  cases h

/-- The reserved slot can always be addressed. -/
theorem reservedSlot_lt_capacity (t : Table α) : reservedSlot < t.capacity := t.nonempty

@[simp] theorem get?_mk (policy : SentinelPolicy) (slot : Nat) :
    ({ policy := policy } : Table α).get? slot = none := by
  unfold get?
  rw [Array.getElem?_replicate]
  split <;> rfl

@[simp] theorem capacity_mk (policy : SentinelPolicy) :
    ({ policy := policy } : Table α).capacity = initialCapacity := by
  simp [capacity]

theorem get?_replace (t : Table α) {slot : Nat} (h : slot < t.capacity) (s : Nat)
    (entry : Option α) :
    (t.replace slot entry).get? s = if s = slot then entry else t.get? s := by
  unfold get? replace
  rw [Array.getElem?_setIfInBounds]
  by_cases hs : s = slot
  · subst hs
    simp only [if_true, if_pos (show s < t.entries.size from h)]
    rfl
  · simp only [if_neg hs, if_neg (Ne.symm hs)]

theorem get?_put (t : Table α) {slot : Nat} (h : slot < t.capacity) (s : Nat) (a : α) :
    (t.put slot a).table.get? s = if s = slot then some a else t.get? s :=
  t.get?_replace h s (some a)

theorem get?_erase (t : Table α) (slot s : Nat) :
    (t.erase slot).table.get? s = if s = slot then none else t.get? s := by
  by_cases h : slot < t.capacity
  · exact t.get?_replace h s none
  · have hsame : (t.erase slot).table = t := by
      show t.replace slot none = t
      unfold replace
      congr 1
      exact Array.setIfInBounds_eq_of_size_le (Nat.not_lt.1 h)
    rw [hsame]
    split
    · next hs => rw [hs, get?_of_capacity_le (Nat.not_lt.1 h)]
    · rfl

/-- What comes in when a table grows is unset. -/
@[simp] theorem get?_resize (t : Table α) (capacity slot : Nat) :
    (t.resize capacity).get? slot = t.get? slot := by
  unfold get? resize
  rw [Array.getElem?_append, Array.getElem?_replicate]
  split
  · rfl
  · next h =>
    rw [Array.getElem?_eq_none (Nat.not_lt.1 h)]
    split <;> rfl

@[simp] theorem capacity_replace (t : Table α) (slot : Nat) (entry : Option α) :
    (t.replace slot entry).capacity = t.capacity :=
  Array.size_setIfInBounds

@[simp] theorem capacity_put (t : Table α) (slot : Nat) (a : α) :
    (t.put slot a).table.capacity = t.capacity :=
  t.capacity_replace slot _

@[simp] theorem capacity_erase (t : Table α) (slot : Nat) :
    (t.erase slot).table.capacity = t.capacity :=
  t.capacity_replace slot _

@[simp] theorem capacity_resize (t : Table α) (c : Nat) :
    (t.resize c).capacity = max t.capacity c := by
  show (t.entries ++ Array.replicate (c - t.capacity) none).size = _
  rw [Array.size_append, Array.size_replicate]
  unfold capacity
  omega

@[simp] theorem policy_put (t : Table α) (slot : Nat) (a : α) :
    (t.put slot a).table.policy = t.policy := rfl

@[simp] theorem policy_erase (t : Table α) (slot : Nat) :
    (t.erase slot).table.policy = t.policy := rfl

@[simp] theorem policy_resize (t : Table α) (capacity : Nat) :
    (t.resize capacity).policy = t.policy := rfl

@[simp] theorem previous_erase (t : Table α) (slot : Nat) :
    (t.erase slot).previous = t.get? slot := rfl

theorem resize_of_le {t : Table α} {c : Nat} (h : c ≤ t.capacity) : t.resize c = t := by
  unfold resize
  congr 1
  rw [Nat.sub_eq_zero_of_le h, Array.replicate_zero, Array.append_empty]

theorem resize_max (t : Table α) (c : Nat) : t.resize (max t.capacity c) = t.resize c := by
  unfold resize
  congr 3
  omega

theorem resize_resize (t : Table α) (a b : Nat) : (t.resize a).resize b = t.resize (max a b) := by
  have hcap := t.capacity_resize a
  unfold resize at hcap ⊢
  congr 1
  dsimp only
  rw [hcap, Array.append_assoc, Array.replicate_append_replicate]
  congr 2
  omega

/-- Of two writes to one slot the second one counts. -/
theorem replace_replace (t : Table α) (slot : Nat) (a b : Option α) :
    (t.replace slot a).replace slot b = t.replace slot b := by
  unfold replace
  congr 1
  exact Array.setIfInBounds_setIfInBounds ..

/-- There is nothing to unset in a new table. -/
theorem replace_mk (policy : SentinelPolicy) (slot : Nat) :
    ({ policy := policy } : Table α).replace slot none = { policy := policy } := by
  unfold replace
  congr 1
  exact Array.setIfInBounds_replicate_self

/-- Writes to different slots can be done in either order. -/
theorem replace_comm (t : Table α) {slot s : Nat} (h : slot ≠ s) (a b : Option α) :
    (t.replace slot a).replace s b = (t.replace s b).replace slot a := by
  unfold replace
  congr 1
  exact Array.setIfInBounds_comm a b h

/-! ## Calls that can be refused -/

/-- What growing makes of the table, unless it is refused. -/
def growTo (t : Table α) (index : Nat) : Except StorageError (Table α) :=
  match doubledPast index (max t.capacity 1) with
  | some capacity => .ok (t.resize capacity)
  | none => .error outOfCapacity

/-- What storing an entry makes of the table, unless it is refused. -/
def insert (t : Table α) (slot : Nat) (entry : α) : Except StorageError (Stored α) :=
  if slot < t.capacity then .ok (t.put slot entry)
  else (t.growTo slot).map (·.put slot entry)

/-- What storing an entry or the unset sentinel makes of the table, unless it is refused. -/
def store (t : Table α) (slot : Nat) : Option α → Except StorageError (Stored α)
  | some entry => t.insert slot entry
  | none => if t.policy.rejectsSentinel then .error (.sentinelStored slot) else .ok (t.erase slot)

theorem expand_eq (t : Table α) (index : Nat) :
    t.expand index = match t.growTo index with
      | .ok u => (.ok (), u)
      | .error e => (.error e, t) := by
  unfold expand growTo
  cases doubledPast index (max t.capacity 1) <;> rfl

/-- Replace the table by what `f` makes of it. A refused call returns the table as it is. -/
def calling (t : Table α) (f : Table α → Except StorageError (Stored α)) :
    Except StorageError (Outcome α) × Table α :=
  match f t with
  | .ok stored => stored.done
  | .error e => (.error e, t)

theorem set_eq (t : Table α) (slot : Nat) (entry : α) :
    t.set slot entry = t.calling (·.insert slot entry) := by
  unfold set calling
  dsimp only
  unfold insert
  rw [expand_eq]
  split
  · rfl
  · cases t.growTo slot <;> rfl

theorem setEntry_eq (t : Table α) (slot : Nat) (entry : Option α) :
    t.setEntry slot entry = t.calling (·.store slot entry) := by
  cases entry with
  | some entry => exact t.set_eq slot entry
  | none =>
    simp only [setEntry, calling, store]
    split <;> rfl

/-! ## Growing -/

/-- Doubling ends above the index, at a multiple of the capacity by a power of two. -/
theorem doubledPast_eq_some {index capacity c : Nat} (h : doubledPast index capacity = some c) :
    index < c ∧ (capacity ≤ maxCapacity → c ≤ maxCapacity) ∧ ∃ k, c = capacity * 2 ^ k := by
  fun_induction doubledPast index capacity with
  | case1 capacity hlt =>
    cases h
    exact ⟨hlt, id, 0, by simp⟩
  | case2 capacity hlt hcap ih =>
    obtain ⟨hi, hle, k, rfl⟩ := ih h
    exact ⟨hi, fun _ => hle hcap.2, k + 1, by rw [Nat.pow_succ]; ac_rfl⟩
  | case3 => cases h

/-- From `32 * 2 ^ k` every index that a supply hands out is reached. -/
theorem exists_doubledPast {index capacity : Nat} (hi : index < maxCapacity) :
    ∀ j k, j + k = 26 → capacity = 32 * 2 ^ k → ∃ c, doubledPast index capacity = some c := by
  intro j
  induction j generalizing capacity with
  | zero =>
    intro k hk hc
    have hk : k = 26 := by omega
    subst hk hc
    exact ⟨_, by unfold doubledPast; rw [if_pos (by simpa [maxCapacity] using hi)]⟩
  | succ j ih =>
    intro k hk hc
    unfold doubledPast
    split
    · exact ⟨_, rfl⟩
    · have hle : 2 ^ (k + 1) ≤ 2 ^ 26 := Nat.pow_le_pow_right (by decide) (by omega)
      have hpos : 0 < 2 ^ k := Nat.pow_pos (by decide)
      rw [Nat.pow_succ] at hle
      rw [if_pos ⟨by omega, by simp only [maxCapacity]; omega⟩]
      exact ih (k + 1) (by omega) (by rw [Nat.pow_succ]; omega)

/-- The capacity is one that a new table grows to. -/
def Grown (t : Table α) : Prop := ∃ k ≤ 26, t.capacity = 32 * 2 ^ k

theorem grown_mk (policy : SentinelPolicy) : ({ policy := policy } : Table α).Grown :=
  ⟨0, by decide, capacity_mk policy⟩

theorem Grown.put {t : Table α} (ht : t.Grown) (slot : Nat) (a : α) : (t.put slot a).table.Grown := by
  unfold Grown
  rw [capacity_put]
  exact ht

theorem Grown.erase {t : Table α} (ht : t.Grown) (slot : Nat) : (t.erase slot).table.Grown := by
  unfold Grown
  rw [capacity_erase]
  exact ht

/-- Everything about a write that succeeded. -/
theorem insert_eq_ok {t : Table α} {slot : Nat} {a : α} {stored : Stored α}
    (h : t.insert slot a = .ok stored) :
    (∀ s, stored.table.get? s = if s = slot then some a else t.get? s) ∧
      stored.newlySet = !t.contains slot ∧ stored.previous = t.get? slot ∧
      stored.table.policy = t.policy ∧ slot < stored.table.capacity := by
  unfold insert at h
  split at h
  · next hlt =>
    cases h
    exact ⟨fun s => t.get?_put hlt s a, rfl, rfl, rfl, by rwa [capacity_put]⟩
  · unfold growTo at h
    split at h
    · next c hc =>
      cases h
      have hlt : slot < (t.resize c).capacity := by
        rw [capacity_resize]
        exact Nat.lt_of_lt_of_le (doubledPast_eq_some hc).1 (Nat.le_max_right ..)
      refine ⟨fun s => ?_, ?_, t.get?_resize c slot, rfl, by rwa [capacity_put]⟩
      · rw [(t.resize c).get?_put hlt, get?_resize]
      · exact congrArg (fun o : Option α => !o.isSome) (t.get?_resize c slot)
    · cases h

/-- Growing from such a capacity ends at one. -/
theorem Grown.doubled {t : Table α} (ht : t.Grown) {slot c : Nat}
    (h : doubledPast slot (max t.capacity 1) = some c) : (t.resize c).Grown := by
  obtain ⟨k, hk, hc⟩ := ht
  have hpos : 0 < 2 ^ k := Nat.pow_pos (by decide)
  have hmax : max t.capacity 1 = 32 * 2 ^ k := by omega
  obtain ⟨-, hle, j, hj⟩ := doubledPast_eq_some h
  have hk' : 2 ^ k ≤ 2 ^ 26 := Nat.pow_le_pow_right (by decide) hk
  have hpow : 2 ^ (k + j) ≤ 2 ^ 26 := by
    have := hle (by simp only [maxCapacity]; omega)
    rw [hj, hmax, Nat.mul_assoc, ← Nat.pow_add] at this
    simp only [maxCapacity] at this
    omega
  refine ⟨k + j, (Nat.pow_le_pow_iff_right (by decide)).1 hpow, ?_⟩
  have hpos : 0 < 2 ^ j := Nat.pow_pos (by decide)
  have hge : t.capacity ≤ c := by
    rw [hj]
    exact Nat.le_trans (Nat.le_max_left ..) (Nat.le_mul_of_pos_right _ hpos)
  rw [capacity_resize, Nat.max_eq_right hge, hj, hmax, Nat.mul_assoc, ← Nat.pow_add]

/-- A table that grew from a new one stays such a table. -/
theorem Grown.insert {t : Table α} (ht : t.Grown) {slot : Nat} {a : α} {stored : Stored α}
    (h : t.insert slot a = .ok stored) : stored.table.Grown := by
  unfold Table.insert at h
  split at h
  · cases h
    exact ht.put slot a
  · unfold growTo at h
    split at h
    · next c hc =>
      cases h
      exact (ht.doubled hc).put slot a
    · cases h

/-- It can store into every slot a supply hands out. -/
theorem exists_insert {t : Table α} (ht : t.Grown) {slot : Nat} (hs : slot ≤ maxSlot) (a : α) :
    ∃ stored, t.insert slot a = .ok stored ∧ stored.table.Grown := by
  have hstored : ∃ stored, t.insert slot a = .ok stored := by
    unfold Table.insert
    split
    · exact ⟨_, rfl⟩
    · obtain ⟨k, hk, hc⟩ := ht
      have hpos : 0 < 2 ^ k := Nat.pow_pos (by decide)
      have hlt : slot < maxCapacity := by
        simp only [maxSlot, maxCapacity] at *
        omega
      obtain ⟨c, hd⟩ := exists_doubledPast hlt (26 - k) k (by omega)
        (show max t.capacity 1 = 32 * 2 ^ k by omega)
      exact ⟨_, by unfold growTo; rw [hd]; rfl⟩
  obtain ⟨stored, h⟩ := hstored
  exact ⟨stored, h, ht.insert h⟩

/-! ## The live set of a table -/

/-- The variables that a table lists as set. -/
def live (t : Table Cell) : LiveSet := ((t.get? reservedSlot).bind Cell.liveSet?).getD ∅

/-- The table with another live set. -/
def withLive (t : Table Cell) (set : LiveSet) : Table Cell :=
  (t.put reservedSlot (.liveSet set)).table

/-- The table without the variable in its live set. -/
def untracked (t : Table Cell) (v : Variable) : Table Cell :=
  match (t.get? reservedSlot).bind Cell.liveSet? with
  | some set => t.withLive (set.erase v.slot)
  | none => t

/-- The table without the variable. -/
def without (t : Table Cell) (v : Variable) : Table Cell := ((t.untracked v).erase v.slot).table

/-- The written table, in which the variable is tracked if it was not set before. -/
def Stored.track (s : Stored Cell) (v : Variable) : Table Cell :=
  if s.newlySet then s.table.withLive (s.table.live.insert v.slot v) else s.table

theorem withLive_withLive (t : Table Cell) (set set' : LiveSet) :
    (t.withLive set).withLive set' = t.withLive set' := by
  simp only [withLive, put, replace_replace]

theorem get?_withLive (t : Table Cell) (set : LiveSet) (s : Nat) :
    (t.withLive set).get? s = if s = reservedSlot then some (.liveSet set) else t.get? s :=
  t.get?_put t.reservedSlot_lt_capacity s _

@[simp] theorem live_withLive (t : Table Cell) (set : LiveSet) : (t.withLive set).live = set := by
  simp [live, get?_withLive, Cell.liveSet?]

theorem live_congr {t u : Table Cell} (h : t.get? reservedSlot = u.get? reservedSlot) :
    t.live = u.live := by
  unfold live
  rw [h]

theorem get?_untracked_of_ne (t : Table Cell) (v : Variable) {s : Nat} (hs : s ≠ reservedSlot) :
    (t.untracked v).get? s = t.get? s := by
  unfold untracked
  split
  · rw [get?_withLive, if_neg hs]
  · rfl

theorem live_untracked (t : Table Cell) (v : Variable) :
    (t.untracked v).live = t.live.erase v.slot := by
  unfold untracked
  split
  · next set h =>
    rw [live_withLive]
    simp only [live, h, Option.getD_some]
  · next h =>
    simp only [live, h, Option.getD_none]
    ext
    simp

/-- Untracking a variable and erasing its slot can be done in either order. -/
theorem untracked_erase (t : Table Cell) (v : Variable) :
    (t.erase v.slot).table.untracked v = t.without v := by
  unfold without untracked
  by_cases hv : v.slot = reservedSlot
  · rw [get?_erase, if_pos hv.symm]
    split
    · next h => cases h
    · split
      · simp only [withLive, put, erase, hv, replace_replace]
      · rfl
  · rw [get?_erase, if_neg (Ne.symm hv)]
    split
    · simp only [withLive, put, erase, t.replace_comm hv]
    · rfl

theorem Grown.track {stored : Stored Cell} (h : stored.table.Grown) (v : Variable) :
    (stored.track v).Grown := by
  unfold Stored.track
  split
  · exact h.put reservedSlot _
  · exact h

theorem capacity_track (stored : Stored Cell) (v : Variable) :
    (stored.track v).capacity = stored.table.capacity := by
  unfold Stored.track
  split
  · exact capacity_put ..
  · rfl

theorem capacity_without (t : Table Cell) (v : Variable) : (t.without v).capacity = t.capacity := by
  unfold Table.without untracked
  split
  · exact (capacity_erase ..).trans (capacity_put ..)
  · exact capacity_erase ..

theorem Grown.without {t : Table Cell} (h : t.Grown) (v : Variable) : (t.without v).Grown := by
  unfold Table.without untracked
  split
  · exact (h.put reservedSlot _).erase v.slot
  · exact h.erase v.slot

theorem get?_without (t : Table Cell) (v : Variable) {s : Nat} (hs : s ≠ reservedSlot) :
    (t.without v).get? s = if s = v.slot then none else t.get? s := by
  unfold without
  rw [get?_erase, get?_untracked_of_ne t v hs]

theorem live_without (t : Table Cell) {v : Variable} (hv : v.slot ≠ reservedSlot) :
    (t.without v).live = t.live.erase v.slot := by
  rw [← live_untracked]
  apply live_congr
  unfold without
  rw [get?_erase, if_neg hv.symm]

theorem get?_track {t : Table Cell} {v : Variable} {c : Cell} {stored : Stored Cell}
    (h : t.insert v.slot c = .ok stored) {s : Nat} (hs : s ≠ reservedSlot) :
    (stored.track v).get? s = if s = v.slot then some c else t.get? s := by
  unfold Stored.track
  split
  · rw [get?_withLive, if_neg hs, (insert_eq_ok h).1]
  · exact (insert_eq_ok h).1 s

theorem live_track {t : Table Cell} {v : Variable} {c : Cell} {stored : Stored Cell}
    (h : t.insert v.slot c = .ok stored) (hv : v.slot ≠ reservedSlot) :
    (stored.track v).live = if t.contains v.slot then t.live else t.live.insert v.slot v := by
  obtain ⟨hget, hnew, -⟩ := insert_eq_ok h
  have hlive : stored.table.live = t.live := live_congr (by rw [hget, if_neg hv.symm])
  unfold Stored.track
  rw [hnew, hlive]
  cases t.contains v.slot <;> simp [hlive]

/-! ## Values -/

theorem value_of_erase {t : Table Cell} {slot s : Nat} {x : Value}
    (h : (t.erase slot).table.get? s = some (.value x)) : s ≠ slot ∧ t.get? s = some (.value x) := by
  rw [get?_erase] at h
  split at h
  · cases h
  · next hne => exact ⟨hne, h⟩

theorem value_of_withLive {t : Table Cell} {set : LiveSet} {s : Nat} {x : Value}
    (h : (t.withLive set).get? s = some (.value x)) : t.get? s = some (.value x) := by
  rw [get?_withLive] at h
  split at h
  · cases h
  · exact h

theorem value_of_without {t : Table Cell} {v : Variable} {s : Nat} {x : Value}
    (h : (t.without v).get? s = some (.value x)) : s ≠ v.slot ∧ t.get? s = some (.value x) := by
  obtain ⟨hne, h⟩ := value_of_erase h
  refine ⟨hne, ?_⟩
  unfold untracked at h
  split at h
  · exact value_of_withLive h
  · exact h

/-- A value in the written table is the one that was written, or it was there before. -/
theorem value_of_track {t : Table Cell} {v : Variable} {c : Cell} {stored : Stored Cell}
    (hi : t.insert v.slot c = .ok stored) {s : Nat} {x : Value}
    (h : (stored.track v).get? s = some (.value x)) :
    (s = v.slot ∧ c = .value x) ∨ (s ≠ v.slot ∧ t.get? s = some (.value x)) := by
  have hget : stored.table.get? s = some (.value x) := by
    unfold Stored.track at h
    split at h
    · exact value_of_withLive h
    · exact h
  rw [(insert_eq_ok hi).1] at hget
  split at hget
  · next hs => exact .inl ⟨hs, Option.some.inj hget⟩
  · next hs => exact .inr ⟨hs, hget⟩

/-! ## Agreement -/

/-- The live set lists exactly the variables that are set. -/
def Agrees (t : Table Cell) : Prop :=
  ∀ slot, slot ∈ t.live ↔ slot ≠ reservedSlot ∧ t.contains slot = true

theorem contains_track {t : Table Cell} {v : Variable} {c : Cell} {stored : Stored Cell}
    (h : t.insert v.slot c = .ok stored) {s : Nat} (hs : s ≠ reservedSlot) :
    (stored.track v).contains s = (decide (s = v.slot) || t.contains s) := by
  unfold contains
  rw [get?_track h hs]
  by_cases he : s = v.slot <;> simp [he]

theorem contains_without (t : Table Cell) (v : Variable) {s : Nat} (hs : s ≠ reservedSlot) :
    (t.without v).contains s = (!decide (s = v.slot) && t.contains s) := by
  unfold contains
  rw [get?_without t v hs]
  by_cases he : s = v.slot <;> simp [he]

theorem Agrees.track {t : Table Cell} (ht : t.Agrees) {v : Variable} (hv : v.slot ≠ reservedSlot)
    {c : Cell} {stored : Stored Cell} (h : t.insert v.slot c = .ok stored) :
    (stored.track v).Agrees := by
  intro s
  rw [live_track h hv]
  by_cases hs : s = reservedSlot
  · subst hs
    have hnot : reservedSlot ∉ t.live := fun hmem => ((ht _).1 hmem).1 rfl
    split <;> simp [hnot, hv]
  · rw [contains_track h hs]
    split
    · next hset =>
      rw [ht s]
      by_cases he : s = v.slot
      · subst he
        simp [hset]
      · simp [he]
    · rw [ExtTreeMap.mem_insert, ht s]
      simp only [Nat.compare_eq_eq, ne_eq, hs, not_false_eq_true, true_and, Bool.or_eq_true,
        decide_eq_true_eq, eq_comm (a := v.slot)]

theorem Agrees.without {t : Table Cell} (ht : t.Agrees) {v : Variable}
    (hv : v.slot ≠ reservedSlot) : (t.without v).Agrees := by
  intro s
  rw [live_without t hv, ExtTreeMap.mem_erase, ht s]
  by_cases hs : s = reservedSlot
  · simp [hs]
  · rw [contains_without t v hs]
    simp only [ne_eq, Nat.compare_eq_eq, hs, not_false_eq_true, true_and, Bool.and_eq_true,
      Bool.not_eq_true', decide_eq_false_iff_not, eq_comm (a := v.slot)]

theorem mem_slots {t : Table α} {slot : Nat} : slot ∈ t.slots ↔ t.contains slot = true := by
  rw [slots, List.mem_filter, List.mem_range]
  exact and_iff_right_of_imp lt_capacity_of_contains

theorem nodup_slots (t : Table α) : t.slots.Nodup := List.nodup_range.filter _

/-- The size counts the set slots, the reserved one not counted. -/
theorem size_eq (t : Table α) : t.size = (t.slots.filter (· != reservedSlot)).length := by
  rw [slots, List.filter_filter, ← List.countP_eq_length_filter]
  rfl

/-- In a table that agrees, the live variables are as many as the set slots. -/
theorem Agrees.size_live {t : Table Cell} (ht : t.Agrees) : t.live.size = t.size := by
  rw [size_eq, ← ExtTreeMap.length_keys]
  refine List.Perm.length_eq ((List.perm_ext_iff_of_nodup ExtTreeMap.nodup_keys
    (t.nodup_slots.filter _)).2 fun slot => ?_)
  rw [ExtTreeMap.mem_keys, ht slot, List.mem_filter, mem_slots]
  simp [and_comm]

end Table

end ThreadSlots
