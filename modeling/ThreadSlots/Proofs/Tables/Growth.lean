import Mathlib.Data.Nat.Size
import Mathlib.Order.Bounds.Basic
import Mathlib.Order.MinMax
import ThreadSlots.Table.Steps
import ThreadSlots.Proofs.Table
import ThreadSlots.Proofs.Words

/-!
# How a table grows

A table that has only been written, emptied and grown since it was new has a capacity of `32 * 2 ^ k`
slots, of which no more than `maxCapacity`. From such a capacity the doubling loop has a closed form
(`Table.doubledPast_eq`): it ends at the least such capacity above the index (`capacityAbove`), and
it gets there exactly if the index is below `maxCapacity`. Everything said about growing here follows
from that form: that growing twice is growing once to the larger index, that a capacity never shrinks,
and that each growth at least doubles it (`Table.pow_growths_le`).
-/

namespace ThreadSlots

/-! ## Changes of a table -/

/-- A call that may change a table. -/
inductive TableChange (α : Type) where
  | insert (slot : Nat) (entry : α)
  /-- Store an entry or the unset sentinel. -/
  | store (slot : Nat) (entry : Option α)
  | erase (slot : Nat)
  | growTo (index : Nat)

/-- The answer to such a call. -/
inductive TableAnswer (α : Type) where
  | stored (newlySet : Bool) (previous : Option α)
  | erased (previous : Option α)
  | grown
  | refused (e : StorageError)

namespace Table

variable {α : Type}

/-- The answer to a write, with the table after it. -/
def written : Except StorageError (Outcome α) × Table α → TableAnswer α × Table α
  | (.ok outcome, t) => (.stored outcome.newlySet outcome.previous, t)
  | (.error e, t) => (.refused e, t)

theorem snd_written (result : Except StorageError (Outcome α) × Table α) :
    (written result).2 = result.2 := by
  rcases result with ⟨_ | _, _⟩ <;> rfl

/-- Make a call. -/
def change (t : Table α) : TableChange α → TableAnswer α × Table α
  | .insert slot entry => written (t.set slot entry)
  | .store slot entry => written (t.setEntry slot entry)
  | .erase slot => (.erased (t.erase slot).previous, (t.erase slot).table)
  | .growTo index =>
    match t.expand index with
    | (.ok (), t) => (.grown, t)
    | (.error e, t) => (.refused e, t)

/-- The table after some calls. -/
def changes (t : Table α) (calls : List (TableChange α)) : Table α :=
  calls.foldl (fun t call => (t.change call).2) t

/-- How many of the calls make the table grow. -/
def growths (t : Table α) : List (TableChange α) → Nat
  | [] => 0
  | call :: calls =>
    (if t.capacity < (t.change call).2.capacity then 1 else 0) + growths (t.change call).2 calls

@[simp] theorem changes_nil (t : Table α) : t.changes [] = t := rfl

@[simp] theorem changes_cons (t : Table α) (call : TableChange α) (calls : List (TableChange α)) :
    t.changes (call :: calls) = (t.change call).2.changes calls := rfl

theorem changes_append (t : Table α) (calls more : List (TableChange α)) :
    t.changes (calls ++ more) = (t.changes calls).changes more :=
  List.foldl_append

theorem growths_append (t : Table α) (calls more : List (TableChange α)) :
    t.growths (calls ++ more) = t.growths calls + (t.changes calls).growths more := by
  induction calls generalizing t with
  | nil => simp [growths]
  | cons call calls ih => simp [growths, ih, Nat.add_assoc]

/-! ## The capacity above an index -/

/-- The least capacity of a table under which the index can be addressed. -/
def capacityAbove (index : Nat) : Nat := initialCapacity * 2 ^ (index / initialCapacity).size

theorem lt_doubled_iff {index j : Nat} :
    index < initialCapacity * 2 ^ j ↔ (index / initialCapacity).size ≤ j := by
  rw [Nat.size_le, Nat.div_lt_iff_lt_mul (by decide), Nat.mul_comm]

theorem doubled_le_iff {j k : Nat} : initialCapacity * 2 ^ j ≤ initialCapacity * 2 ^ k ↔ j ≤ k := by
  rw [Nat.mul_le_mul_left_iff (by decide), Nat.pow_le_pow_iff_right (by decide)]

theorem lt_capacityAbove (index : Nat) : index < capacityAbove index :=
  lt_doubled_iff.2 (Nat.le_refl _)

theorem capacityAbove_le_iff {index j : Nat} :
    capacityAbove index ≤ initialCapacity * 2 ^ j ↔ index < initialCapacity * 2 ^ j := by
  rw [lt_doubled_iff]
  exact doubled_le_iff

theorem isLeast_capacityAbove (index : Nat) :
    IsLeast {c | index < c ∧ ∃ j, c = initialCapacity * 2 ^ j} (capacityAbove index) := by
  refine ⟨⟨lt_capacityAbove index, _, rfl⟩, ?_⟩
  rintro c ⟨hlt, j, rfl⟩
  exact capacityAbove_le_iff.2 hlt

example : capacityAbove 100 = 128 := by decide

theorem capacityAbove_mono : Monotone capacityAbove := fun _ _ h =>
  doubled_le_iff.2 (Nat.size_le_size (Nat.div_le_div_right h))

theorem maxCapacity_eq : maxCapacity = initialCapacity * 2 ^ 26 := by decide

/-! ## The doubling loop -/

/-- Where the loop ends that starts at a capacity of a grown table. -/
theorem doubledPast_eq (index : Nat) {capacity k : Nat} (hk : k ≤ 26)
    (hc : capacity = initialCapacity * 2 ^ k) :
    doubledPast index capacity =
      if index < maxCapacity then some (max capacity (capacityAbove index)) else none := by
  have hmax : capacity ≤ maxCapacity := by
    rw [hc, maxCapacity_eq]
    exact doubled_le_iff.2 hk
  fun_induction doubledPast index capacity generalizing k with
  | case1 capacity hlt =>
    have habove : capacityAbove index ≤ capacity := by
      rw [hc] at hlt ⊢
      exact capacityAbove_le_iff.2 hlt
    rw [if_pos (by omega), Nat.max_eq_left habove]
  | case2 capacity hlt hcap ih =>
    have hdouble : 2 * capacity = initialCapacity * 2 ^ (k + 1) := by
      rw [hc, Nat.pow_succ]
      ac_rfl
    have hk' : k + 1 ≤ 26 := by
      have := hcap.2
      rwa [hdouble, maxCapacity_eq, doubled_le_iff] at this
    -- the least capacity above `index` lies above `capacity`, hence not below its double
    have habove : 2 * capacity ≤ capacityAbove index := by
      have hsize : ¬ (index / initialCapacity).size ≤ k := by rwa [← lt_doubled_iff, ← hc]
      rw [hdouble]
      exact doubled_le_iff.2 (by omega)
    rw [ih hk' hdouble hcap.2, Nat.max_eq_right habove, Nat.max_eq_right (by omega)]
  | case3 capacity hlt hcap =>
    -- nothing lies between the last double and `maxCapacity`
    have hk' : ¬ k + 1 ≤ 26 := by
      intro hle
      refine hcap ⟨by rw [hc]; exact Nat.mul_pos (by decide) (Nat.pow_pos (by decide)), ?_⟩
      rw [maxCapacity_eq, hc, Nat.mul_left_comm, ← Nat.pow_succ']
      exact doubled_le_iff.2 hle
    have hk'' : k = 26 := by omega
    rw [if_neg (by rw [maxCapacity_eq, ← hk'', ← hc]; exact hlt)]

/-- The loop on 64-bit words, with a bound on how often its condition is tested. Nothing if it has not
ended by then, or if a product overflows; else what it ends with. -/
def doubledInRounds (index : Nat) : Nat → Nat → Option (Option Nat)
  | 0, _ => none
  | rounds + 1, capacity =>
    if index < capacity then some (some capacity)
    else (Word.mul capacity 2).bind fun doubled =>
      if doubled ≤ maxCapacity then doubledInRounds index rounds doubled else some none

/-- It ends without an overflow, and as the loop on numbers does. -/
theorem doubledInRounds_eq (index : Nat) {rounds capacity k : Nat} (hk : k ≤ 26)
    (hrounds : 27 ≤ k + rounds) (hc : capacity = initialCapacity * 2 ^ k) :
    doubledInRounds index rounds capacity = some (doubledPast index capacity) := by
  induction rounds generalizing k capacity with
  | zero => omega
  | succ rounds ih =>
    have hle : capacity ≤ maxCapacity := by
      rw [hc, maxCapacity_eq]
      exact doubled_le_iff.2 hk
    have hpos : 0 < capacity := by
      rw [hc]
      exact Nat.mul_pos (by decide) (Nat.pow_pos (by decide))
    have hdouble : capacity * 2 = initialCapacity * 2 ^ (k + 1) := by
      rw [hc, Nat.pow_succ, Nat.mul_assoc]
    have hword : capacity * 2 < Word.bound := by
      simp only [maxCapacity, Word.bound] at *
      omega
    unfold doubledInRounds doubledPast
    rw [Word.mul_eq hword, Option.bind_some, Nat.mul_comm 2 capacity]
    by_cases hlt : index < capacity
    · rw [if_pos hlt, if_pos hlt]
    · rw [if_neg hlt, if_neg hlt]
      by_cases hcap : capacity * 2 ≤ maxCapacity
      · have hk' : k + 1 ≤ 26 := by rwa [hdouble, maxCapacity_eq, doubled_le_iff] at hcap
        rw [if_pos hcap, if_pos ⟨hpos, hcap⟩, ih hk' (by omega) hdouble]
      · rw [if_neg hcap, if_neg (fun h => hcap h.2)]

/-! ## Growing -/

theorem Grown.capacity_le {t : Table α} (ht : t.Grown) : t.capacity ≤ maxCapacity := by
  obtain ⟨k, hk, hc⟩ := ht
  rw [hc, maxCapacity_eq]
  exact doubled_le_iff.2 hk

/-- Growing in closed form. -/
theorem Grown.growTo_eq {t : Table α} (ht : t.Grown) (index : Nat) :
    t.growTo index =
      if index < maxCapacity then .ok (t.resize (capacityAbove index)) else .error outOfCapacity := by
  obtain ⟨k, hk, hc⟩ := ht
  have hpos : 0 < 2 ^ k := Nat.pow_pos (by decide)
  unfold growTo
  rw [show max t.capacity 1 = t.capacity by omega, doubledPast_eq index hk hc]
  by_cases h : index < maxCapacity
  · rw [if_pos h, if_pos h]
    exact congrArg Except.ok (t.resize_max _)
  · rw [if_neg h, if_neg h]

theorem Grown.expand_eq {t : Table α} (ht : t.Grown) (index : Nat) :
    t.expand index =
      if index < maxCapacity then (.ok (), t.resize (capacityAbove index))
      else (.error outOfCapacity, t) := by
  rw [Table.expand_eq, ht.growTo_eq]
  by_cases h : index < maxCapacity
  · simp only [h, if_true]
  · simp only [h, if_false]

/-- The capacity reached by growing is again one of a grown table. -/
theorem Grown.reach {t : Table α} (ht : t.Grown) {index : Nat} (h : index < maxCapacity) :
    (t.resize (capacityAbove index)).Grown := by
  obtain ⟨k, hk, hc⟩ := ht
  unfold Grown
  rw [capacity_resize]
  have habove : (index / initialCapacity).size ≤ 26 := by
    rwa [← lt_doubled_iff, ← maxCapacity_eq]
  rcases Nat.le_total t.capacity (capacityAbove index) with hle | hle
  · exact ⟨_, habove, Nat.max_eq_right hle⟩
  · exact ⟨k, hk, by rw [Nat.max_eq_left hle, hc]⟩

/-- Growing twice is growing once, to the larger index. -/
theorem Grown.expand_expand {t : Table α} (ht : t.Grown) (a b : Nat) :
    t.expand (max a b) =
      match t.expand a with
      | (.error e, _) => (.error e, t)
      | (.ok (), u) =>
        match u.expand b with
        | (.error e, _) => (.error e, t)
        | (.ok (), w) => (.ok (), w) := by
  by_cases ha : a < maxCapacity
  · rw [ht.expand_eq a, if_pos ha, ht.expand_eq, capacityAbove_mono.map_max]
    dsimp only
    rw [(ht.reach ha).expand_eq, resize_resize]
    simp only [Nat.max_lt, ha, true_and]
    split <;> rfl
  · rw [ht.expand_eq a, if_neg ha, ht.expand_eq, if_neg (by omega)]

/-- A write into a grown table: where it succeeds, and what the table is then. -/
theorem Grown.insert_eq {t : Table α} (ht : t.Grown) (slot : Nat) (entry : α) :
    t.insert slot entry =
      if slot < maxCapacity then
        .ok ((t.resize (capacityAbove slot)).put slot entry)
      else .error outOfCapacity := by
  unfold Table.insert
  split
  · next hlt =>
    have hle := ht.capacity_le
    obtain ⟨k, hk, hc⟩ := ht
    have habove : capacityAbove slot ≤ t.capacity := by
      rw [hc] at hlt ⊢
      exact capacityAbove_le_iff.2 hlt
    rw [if_pos (by omega), resize_of_le habove]
  · rw [ht.growTo_eq]
    split <;> rfl

/-- Storing into a grown table: where it succeeds, and what the table is then. -/
theorem Grown.set_eq {t : Table α} (ht : t.Grown) (slot : Nat) (entry : α) :
    t.set slot entry =
      if slot < maxCapacity then ((t.resize (capacityAbove slot)).put slot entry).done
      else (.error outOfCapacity, t) := by
  rw [Table.set_eq, calling, ht.insert_eq]
  by_cases h : slot < maxCapacity
  · simp only [h, if_true]
  · simp only [h, if_false]

/-- If one grown table is larger than another, it is at least twice as large. -/
theorem Grown.two_mul_le {t u : Table α} (ht : t.Grown) (hu : u.Grown) (h : t.capacity < u.capacity) :
    t.capacity * 2 ≤ u.capacity := by
  obtain ⟨j, -, ht⟩ := ht
  obtain ⟨k, -, hu⟩ := hu
  rw [ht, hu] at h ⊢
  have hlt : j < k := by
    by_contra hge
    exact absurd (doubled_le_iff.2 (Nat.le_of_not_lt hge)) (Nat.not_le_of_lt h)
  rw [Nat.mul_assoc, ← Nat.pow_succ]
  exact doubled_le_iff.2 hlt

end Table

/-! ## Sequences of calls -/

/-- The index that a call makes sure can be addressed. Emptying a slot needs none. -/
def TableChange.index? {α : Type} : TableChange α → Option Nat
  | .insert slot _ => some slot
  | .store slot (some _) => some slot
  | .store _ none => none
  | .erase _ => none
  | .growTo index => some index

namespace Table

variable {α : Type}

/-- The capacity that a table with the given one has after a call. -/
def capacityAfter (capacity : Nat) (call : TableChange α) : Nat :=
  match call.index? with
  | some index => if index < maxCapacity then max capacity (capacityAbove index) else capacity
  | none => capacity

theorem Grown.capacity_change {t : Table α} (ht : t.Grown) (call : TableChange α) :
    (t.change call).2.capacity = capacityAfter t.capacity call := by
  have hset : ∀ slot entry, (written (t.set slot entry)).2.capacity =
      if slot < maxCapacity then max t.capacity (capacityAbove slot) else t.capacity := by
    intro slot entry
    rw [ht.set_eq]
    split
    · exact (capacity_put ..).trans (capacity_resize ..)
    · rfl
  cases call with
  | insert slot entry => exact hset slot entry
  | store slot entry =>
    cases entry with
    | some entry => exact hset slot entry
    | none =>
      simp only [change, setEntry]
      split
      · rfl
      · exact capacity_erase ..
  | erase slot => exact capacity_erase ..
  | growTo index =>
    simp only [change, ht.expand_eq, capacityAfter, TableChange.index?]
    by_cases h : index < maxCapacity
    · simp only [h, if_true, capacity_resize]
    · simp only [h, if_false]

theorem Grown.change {t : Table α} (ht : t.Grown) (call : TableChange α) :
    (t.change call).2.Grown ∧ t.capacity ≤ (t.change call).2.capacity := by
  have heq := ht.capacity_change call
  unfold capacityAfter at heq
  split at heq
  · next index hindex =>
    split at heq
    · next h =>
      have hreach := ht.reach h
      unfold Grown at hreach ⊢
      rw [capacity_resize] at hreach
      rw [heq]
      exact ⟨hreach, Nat.le_max_left ..⟩
    · exact ⟨by unfold Grown at ht ⊢; rwa [heq], by omega⟩
  · exact ⟨by unfold Grown at ht ⊢; rwa [heq], by omega⟩

theorem Grown.changes {t : Table α} (ht : t.Grown) (calls : List (TableChange α)) :
    (t.changes calls).Grown ∧ t.capacity ≤ (t.changes calls).capacity := by
  induction calls generalizing t with
  | nil => exact ⟨ht, Nat.le_refl _⟩
  | cons call calls ih =>
    obtain ⟨hgrown, hle⟩ := ht.change call
    obtain ⟨hrest, hle'⟩ := ih hgrown
    exact ⟨hrest, Nat.le_trans hle hle'⟩

/-- Each growth at least doubles the capacity. -/
theorem Grown.pow_growths_le {t : Table α} (ht : t.Grown) (calls : List (TableChange α)) :
    t.capacity * 2 ^ t.growths calls ≤ (t.changes calls).capacity := by
  induction calls generalizing t with
  | nil => simp [growths]
  | cons call calls ih =>
    obtain ⟨hgrown, hle⟩ := ht.change call
    have hrest := ih hgrown
    rw [changes_cons, growths]
    refine Nat.le_trans ?_ hrest
    rw [Nat.pow_add, ← Nat.mul_assoc]
    refine Nat.mul_le_mul_right _ ?_
    split
    · next hlt => exact ht.two_mul_le hgrown hlt
    · simpa using hle

end Table

/-! ## Growths of a trial -/

namespace TableTrial

/-- A trial after some calls, each growth counted. -/
def after (trial : TableTrial) (calls : List (TableChange Value)) : TableTrial :=
  { table := trial.table.changes calls
    expansions := trial.expansions + trial.table.growths calls }

theorem after_append (trial : TableTrial) (calls more : List (TableChange Value)) :
    trial.after (calls ++ more) = (trial.after calls).after more := by
  simp only [after, Table.changes_append, Table.growths_append, Nat.add_assoc]

/-- What a trial lets its table do is counted if it is what a call does. -/
theorem update_eq (trial : TableTrial) (call : TableChange Value) {β : Type}
    {f : Table Value → β × Table Value} (h : (f trial.table).2 = (trial.table.change call).2) :
    (trial.update f).2 = trial.after [call] := by
  unfold update after
  simp only [h, Table.changes_cons, Table.changes_nil, Table.growths, Nat.add_zero]

theorem write_eq (trial : TableTrial) (call : TableChange Value)
    {f : Table Value → Except StorageError (Table.Outcome Value) × Table Value}
    (h : (f trial.table).2 = (trial.table.change call).2) :
    (trial.write f).2 = trial.after [call] := by
  rw [← trial.update_eq call h]
  unfold write
  split <;> next heq => rw [heq]

/-- A step at a slot that does not exist changes nothing. -/
theorem exists_at? (trial : TableTrial) (slot : Nat) {f : Nat → TableReply × TableTrial}
    (hf : ∀ s, ∃ calls, (f s).2 = trial.after calls) :
    ∃ calls, (trial.at? slot f).2 = trial.after calls := by
  unfold at?
  split
  · exact hf _
  · exact ⟨[], rfl⟩

/-- Filling slots is a sequence of insertions, up to the first refusal. -/
theorem exists_fill (trial : TableTrial) (slot i n : Nat) :
    ∃ calls, (trial.fill slot i n).2 = trial.after calls := by
  induction n generalizing trial slot i with
  | zero => exact ⟨[], rfl⟩
  | succ n ih =>
    unfold fill
    cases SlotSupply.slot slot with
    | error e => exact ⟨[], rfl⟩
    | ok index =>
      have hfirst : (trial.update (·.set index (.int i))).2 = trial.after [.insert index (.int i)] :=
        trial.update_eq _ (Table.snd_written _).symm
      dsimp only
      rcases hset : trial.update (·.set index (.int i)) with ⟨e | outcome, trial'⟩
      · exact ⟨_, by rw [← hfirst, hset]⟩
      · obtain ⟨calls, hrest⟩ := ih trial' (slot + 1) (i + 1)
        rw [hset] at hfirst
        dsimp only at hfirst
        exact ⟨.insert index (.int i) :: calls, by rw [hrest, hfirst, ← after_append]; rfl⟩

/-- A step is a sequence of calls, and its growths are counted. -/
theorem exists_step (trial : TableTrial) (s : TableStep) :
    ∃ calls, (trial.step s).2 = trial.after calls := by
  have hstays : ∃ calls, trial = trial.after calls := ⟨[], rfl⟩
  cases s with
  | insert slot value =>
    exact trial.exists_at? slot fun s => ⟨_, trial.write_eq (.insert s value) (Table.snd_written _).symm⟩
  | store slot entry =>
    exact trial.exists_at? slot fun s => ⟨_, trial.write_eq (.store s entry) (Table.snd_written _).symm⟩
  | fill slot n => exact trial.exists_fill slot 0 n
  | erase slot => exact trial.exists_at? slot fun s =>
    ⟨[.erase s], trial.update_eq (.erase s)
      (f := fun table => ((table.erase s).previous, (table.erase s).table)) rfl⟩
  | growTo index =>
    have hchange : (trial.table.expand index).2 = (trial.table.change (.growTo index)).2 := by
      simp only [Table.change]
      split <;> next heq => rw [heq]
    refine ⟨_, Eq.trans ?_ (trial.update_eq (.growTo index) (f := (·.expand index)) hchange)⟩
    simp only [step]
    split <;> next heq => rw [heq]
  | get slot => exact trial.exists_at? slot fun _ => hstays
  | contains slot => exact trial.exists_at? slot fun _ => hstays
  | describeEntry slot => exact trial.exists_at? slot fun _ => hstays
  | policy => exact hstays
  | describe => exact hstays

theorem exists_run (trial : TableTrial) (steps : List TableStep) :
    ∃ calls, (trial.run steps).2 = trial.after calls := by
  induction steps generalizing trial with
  | nil => exact ⟨[], rfl⟩
  | cons s steps ih =>
    obtain ⟨first, hfirst⟩ := trial.exists_step s
    obtain ⟨calls, hrest⟩ := ih (trial.step s).2
    exact ⟨first ++ calls, by rw [after_append, ← hfirst, ← hrest]; rfl⟩

end TableTrial

/-! ## Capacity arithmetic -/

namespace Table

variable {α : Type}

/-- All that growing can do to a table. -/
structure GrowsByDoubling (t : Table α) : Prop where
  capacity_eq : ∃ k, t.capacity = initialCapacity * 2 ^ k
  capacity_le : t.capacity ≤ maxCapacity
  /-- An index that no table can address is refused. -/
  refuses : ∀ index, maxCapacity ≤ index → t.expand index = (.error outOfCapacity, t)
  /-- Any other one is reached, by the least capacity above it unless the table is larger already,
  and nothing else changes. -/
  reaches : ∀ index < maxCapacity, ∃ c u,
    IsLeast {c | index < c ∧ ∃ j, c = initialCapacity * 2 ^ j} c ∧
      t.expand index = (.ok (), u) ∧ u.capacity = max t.capacity c ∧ u.policy = t.policy ∧
      ∀ slot, u.get? slot = t.get? slot
  /-- The loop tests its condition no more than 27 times, and no product of it leaves a 64-bit word. -/
  ends : ∀ index, doubledInRounds index 27 (max t.capacity 1) =
    some (doubledPast index (max t.capacity 1))
  /-- Growing twice is growing once, to the larger index. That is refused if either is. -/
  expand_expand : ∀ a b, t.expand (max a b) =
    match t.expand a with
    | (.error e, _) => (.error e, t)
    | (.ok (), u) =>
      match u.expand b with
      | (.error e, _) => (.error e, t)
      | (.ok (), w) => (.ok (), w)

theorem Grown.growsByDoubling {t : Table α} (ht : t.Grown) : t.GrowsByDoubling where
  capacity_eq := ht.imp fun _ h => h.2
  capacity_le := ht.capacity_le
  refuses index h := by rw [ht.expand_eq, if_neg (by omega)]
  reaches index h := ⟨_, t.resize (capacityAbove index), isLeast_capacityAbove index,
    by rw [ht.expand_eq, if_pos h], t.capacity_resize _, rfl, t.get?_resize _⟩
  ends index := by
    obtain ⟨k, hk, hc⟩ := ht
    have hpos : 0 < 2 ^ k := Nat.pow_pos (by decide)
    exact doubledInRounds_eq index hk (by omega) (show _ = 32 * 2 ^ k by omega)
  expand_expand := ht.expand_expand

/-- Whatever is done to a new table, growing it means doubling its capacity as often as needed, up to
`maxCapacity`; no call makes it smaller, and its growths, counted by the calls or by a trial, are
bounded by its capacity. -/
theorem growsByDoubling_of_calls (policy : SentinelPolicy) (calls more : List (TableChange α))
    (steps : List TableStep) :
    (({ policy := policy } : Table α).changes calls).GrowsByDoubling ∧
      (({ policy := policy } : Table α).changes calls).capacity ≤
        (({ policy := policy } : Table α).changes (calls ++ more)).capacity ∧
      initialCapacity * 2 ^ ({ policy := policy } : Table α).growths calls ≤
        (({ policy := policy } : Table α).changes calls).capacity ∧
      (TableTrial.run { table := { policy := policy } } steps).2.table.GrowsByDoubling ∧
      initialCapacity * 2 ^ (TableTrial.run { table := { policy := policy } } steps).2.expansions ≤
        (TableTrial.run { table := { policy := policy } } steps).2.table.capacity := by
  have hgrown := (grown_mk policy : ({ policy := policy } : Table α).Grown)
  have hcalls := (hgrown.changes calls).1
  refine ⟨hcalls.growsByDoubling, ?_, hgrown.pow_growths_le calls, ?_⟩
  · rw [changes_append]
    exact (hcalls.changes more).2
  · obtain ⟨calls, hrun⟩ := TableTrial.exists_run { table := { policy := policy } } steps
    rw [hrun]
    refine ⟨((grown_mk policy).changes calls).1.growsByDoubling, ?_⟩
    have hle := (grown_mk policy : ({ policy := policy } : Table Value).Grown).pow_growths_le calls
    rw [capacity_mk] at hle
    simpa only [TableTrial.after, Nat.zero_add] using hle

end Table

end ThreadSlots
