import Mathlib.Data.Set.Card
import ThreadSlots.Proofs.Tables.Growth

/-!
# A table as a total map

What a slot holds is decided by the last call that had an effect on it (`TableCall.heldAfter`): a store
that succeeded, or a call that emptied the slot. Calls to other slots, refused calls and growth have
none. One call is treated in `Table.Reflects.answers`, any sequence of them in
`Table.reflects_changes`; what can be asked of a table then is a question about that map
(`Table.isMap_of_calls`).
-/

namespace ThreadSlots

variable {α : Type}

/-- The answer of a table with the given policy and contents to a call. -/
def TableChange.answer (policy : SentinelPolicy) (held : Nat → Option α) :
    TableChange α → TableAnswer α
  | .insert s _ =>
    if s < maxCapacity then .stored (held s).isNone (held s) else .refused Table.outOfCapacity
  | .store s (some _) =>
    if s < maxCapacity then .stored (held s).isNone (held s) else .refused Table.outOfCapacity
  | .store s none =>
    if policy.rejectsSentinel then .refused (.sentinelStored s) else .stored false (held s)
  | .erase s => .erased (held s)
  | .growTo index => if index < maxCapacity then .grown else .refused Table.outOfCapacity

/-- What a call leaves in a slot if it is not refused: an entry, or nothing in it (`some none`). A call
that leaves the slot alone has no effect on it (`none`). -/
def TableChange.effect? (slot : Nat) : TableChange α → Option (Option α)
  | .insert s entry => if s = slot then some (some entry) else none
  | .store s entry => if s = slot then some entry else none
  | .erase s => if s = slot then some none else none
  | .growTo _ => none

/-! ## What calls leave in a slot -/

/-- A call that was made, with its answer. -/
structure TableCall (α : Type) where
  change : TableChange α
  answer : TableAnswer α

namespace TableCall

/-- What the call left in a slot. A refused one has no effect. -/
def effect? (slot : Nat) (call : TableCall α) : Option (Option α) :=
  match call.answer with
  | .refused _ => none
  | _ => call.change.effect? slot

/-- What a slot of a new table holds after some calls: what the last call with an effect on the slot
left there. -/
def heldAfter (history : List (TableCall α)) (slot : Nat) : Option α :=
  (history.filterMap (·.effect? slot)).getLast?.join

theorem heldAfter_concat (history : List (TableCall α)) (call : TableCall α) (slot : Nat) :
    heldAfter (history ++ [call]) slot = (call.effect? slot).getD (heldAfter history slot) := by
  unfold heldAfter
  rw [List.filterMap_append]
  cases h : call.effect? slot with
  | none => simp [h]
  | some entry => simp [h]

end TableCall

namespace Table

/-- The calls with the answers they get. -/
def history (t : Table α) : List (TableChange α) → List (TableCall α)
  | [] => []
  | call :: calls => ⟨call, (t.change call).1⟩ :: history (t.change call).2 calls

theorem history_append (t : Table α) (calls more : List (TableChange α)) :
    t.history (calls ++ more) = t.history calls ++ (t.changes calls).history more := by
  induction calls generalizing t with
  | nil => rfl
  | cons call calls ih => simp [history, ih]

/-- The table has this policy and these contents, all of them below its capacity. -/
structure Reflects (t : Table α) (policy : SentinelPolicy) (held : Nat → Option α) : Prop where
  grown : t.Grown
  policy_eq : t.policy = policy
  get?_eq : ∀ slot, t.get? slot = held slot
  beyond : ∀ slot, t.capacity ≤ slot → held slot = none

namespace Reflects

variable {t : Table α} {policy : SentinelPolicy} {held : Nat → Option α}

theorem contains_eq (h : t.Reflects policy held) (slot : Nat) :
    t.contains slot = (held slot).isSome := by
  unfold contains
  rw [h.get?_eq]

/-- A store below the largest capacity writes its slot, after growing as far as needed. -/
theorem set (h : t.Reflects policy held) {slot : Nat} (entry : α) (hs : slot < maxCapacity) :
    ∃ stored : Stored α, t.set slot entry = stored.done ∧
      stored.table.Reflects policy (fun s => if s = slot then some entry else held s) ∧
      stored.newlySet = (held slot).isNone ∧ stored.previous = held slot := by
  have heq := h.grown.insert_eq slot entry
  rw [if_pos hs] at heq
  obtain ⟨hget, hnew, hprev, hpolicy, -⟩ := insert_eq_ok heq
  refine ⟨_, by rw [h.grown.set_eq, if_pos hs],
    ⟨(h.grown.reach hs).put slot entry, hpolicy.trans h.policy_eq, fun s => ?_, fun s hle => ?_⟩, ?_,
    hprev.trans (h.get?_eq slot)⟩
  · rw [hget, h.get?_eq]
  · rw [capacity_put, capacity_resize] at hle
    have := lt_capacityAbove slot
    rw [if_neg (by omega)]
    exact h.beyond s (by omega)
  · rw [hnew, h.contains_eq]
    cases held slot <;> rfl

/-- Erasing a slot empties it and no other. -/
theorem erase (h : t.Reflects policy held) (slot : Nat) :
    (t.erase slot).table.Reflects policy (fun s => if s = slot then none else held s) where
  grown := h.grown.erase slot
  policy_eq := h.policy_eq
  get?_eq s := by rw [get?_erase, h.get?_eq]
  beyond s hle := by
    rw [capacity_erase] at hle
    split
    · rfl
    · exact h.beyond s hle

/-- Growing changes no slot. -/
theorem expand (h : t.Reflects policy held) {index : Nat} (hi : index < maxCapacity) :
    ∃ u, t.expand index = (.ok (), u) ∧ u.Reflects policy held := by
  refine ⟨_, by rw [h.grown.expand_eq, if_pos hi], h.grown.reach hi, h.policy_eq, fun s => ?_,
    fun s hle => ?_⟩
  · rw [get?_resize, h.get?_eq]
  · rw [capacity_resize] at hle
    exact h.beyond s (Nat.le_trans (Nat.le_max_left ..) hle)

theorem congr (h : t.Reflects policy held) {held' : Nat → Option α} (heq : ∀ s, held s = held' s) :
    t.Reflects policy held' :=
  (funext heq : held = held') ▸ h

end Reflects

/-- What there is to say about one call to a table with these contents. -/
structure Answers (t : Table α) (policy : SentinelPolicy) (held : Nat → Option α)
    (call : TableChange α) : Prop where
  answer_eq : (t.change call).1 = call.answer policy held
  reflects : (t.change call).2.Reflects policy fun slot =>
    (TableCall.effect? slot ⟨call, (t.change call).1⟩).getD (held slot)
  refused : ∀ e, (t.change call).1 = .refused e → (t.change call).2 = t

namespace Reflects

variable {t : Table α} {policy : SentinelPolicy} {held : Nat → Option α}

/-- A call that is refused. -/
theorem answers_refused (h : t.Reflects policy held) {call : TableChange α} (e : StorageError)
    (hchange : t.change call = (.refused e, t)) (hanswer : call.answer policy held = .refused e) :
    t.Answers policy held call := by
  refine ⟨by rw [hchange, hanswer], ?_, fun _ _ => by rw [hchange]⟩
  rw [hchange]
  exact h

/-- A write of an entry, whether or not it is made through `store`. -/
theorem answers_insert (h : t.Reflects policy held) (slot : Nat) (entry : α) {call : TableChange α}
    (hchange : t.change call = written (t.set slot entry))
    (hanswer : call.answer policy held = (TableChange.insert slot entry).answer policy held)
    (heffect : ∀ s, call.effect? s = if slot = s then some (some entry) else none) :
    t.Answers policy held call := by
  by_cases hs : slot < maxCapacity
  · obtain ⟨stored, heq, hafter, hnew, hprev⟩ := h.set entry hs
    have hwritten : t.change call = (.stored (held slot).isNone (held slot), stored.table) := by
      rw [hchange, heq, Stored.done, written, hnew, hprev]
    refine ⟨by rw [hwritten, hanswer, TableChange.answer, if_pos hs], ?_, fun e he => ?_⟩
    · rw [hwritten]
      refine hafter.congr fun s => ?_
      show _ = (call.effect? s).getD (held s)
      rw [heffect]
      by_cases he : s = slot
      · simp [he]
      · simp [he, Ne.symm he]
    · rw [hwritten] at he
      cases he
  · refine h.answers_refused outOfCapacity ?_ ?_
    · rw [hchange, h.grown.set_eq, if_neg hs]
      rfl
    · rw [hanswer, TableChange.answer, if_neg hs]

/-- A call that empties a slot, with or without saying so. -/
theorem answers_erase (h : t.Reflects policy held) (slot : Nat) {call : TableChange α}
    (answer : TableAnswer α) (hchange : t.change call = (answer, (t.erase slot).table))
    (hanswer : call.answer policy held = answer) (hok : ∀ e, answer ≠ .refused e)
    (heffect : ∀ s, call.effect? s = if slot = s then some none else none) :
    t.Answers policy held call := by
  refine ⟨by rw [hchange, hanswer], ?_, fun e he => ?_⟩
  · rw [hchange]
    refine (h.erase slot).congr fun s => ?_
    have hcall : TableCall.effect? s ⟨call, answer⟩ = call.effect? s := by
      unfold TableCall.effect?
      split
      · next e he => exact absurd he (hok e)
      · rfl
    show _ = (TableCall.effect? s ⟨call, answer⟩).getD (held s)
    rw [hcall, heffect]
    by_cases he : s = slot
    · simp [he]
    · simp [he, Ne.symm he]
  · rw [hchange] at he
    exact absurd he (hok e)

theorem answers (h : t.Reflects policy held) (call : TableChange α) : t.Answers policy held call := by
  cases call with
  | insert slot entry => exact h.answers_insert slot entry rfl rfl fun _ => rfl
  | store slot entry =>
    cases entry with
    | some entry => exact h.answers_insert slot entry rfl rfl fun _ => rfl
    | none =>
      by_cases hstrict : policy.rejectsSentinel
      · refine h.answers_refused (.sentinelStored slot) ?_ (if_pos hstrict)
        simp only [Table.change, setEntry, h.policy_eq, if_pos hstrict, written]
      · refine h.answers_erase slot (.stored false (held slot)) ?_ (if_neg hstrict)
          (fun e he => by cases he) fun _ => rfl
        simp only [Table.change, setEntry, h.policy_eq, if_neg hstrict, Stored.done, written,
          previous_erase, h.get?_eq]
        rfl
  | erase slot =>
    refine h.answers_erase slot (.erased (held slot)) ?_ rfl (fun e he => by cases he)
      fun _ => rfl
    simp only [Table.change, previous_erase, h.get?_eq]
  | growTo index =>
    by_cases hi : index < maxCapacity
    · obtain ⟨u, heq, hu⟩ := h.expand hi
      have hchange : t.change (.growTo index) = (.grown, u) := by simp only [Table.change, heq]
      refine ⟨by rw [hchange, TableChange.answer, if_pos hi], ?_, fun e he => ?_⟩
      · rw [hchange]
        exact hu
      · rw [hchange] at he
        cases he
    · refine h.answers_refused outOfCapacity ?_ (if_neg hi)
      simp only [Table.change, h.grown.expand_eq, if_neg hi]

/-- The size is the number of set slots, the reserved one not counted. -/
theorem size_eq (h : t.Reflects policy held) :
    t.size = {slot | slot ≠ reservedSlot ∧ (held slot).isSome}.ncard := by
  have hset : {slot | slot ≠ reservedSlot ∧ (held slot).isSome} =
      ((t.slots.filter (· != reservedSlot)).toFinset : Set Nat) := by
    ext slot
    simp only [Set.mem_ofPred_eq, List.coe_toFinset, List.mem_filter, mem_slots, h.contains_eq,
      bne_iff_ne, and_comm]
  rw [hset, Set.ncard_coe_finset, List.toFinset_card_of_nodup (t.nodup_slots.filter _),
    Table.size_eq]

/-- The vector of a table, entry by entry. -/
theorem entries_eq (h : t.Reflects policy held) (slot : Nat) :
    t.entries[slot]? = if slot < t.capacity then some (held slot) else none := by
  by_cases hs : slot < t.capacity
  · have hcell : t.entries[slot]? = some t.entries[slot] := Array.getElem?_eq_getElem hs
    have hget : t.get? slot = t.entries[slot] := by
      unfold get?
      rw [hcell]
      rfl
    rw [if_pos hs, hcell, ← h.get?_eq, hget]
  · rw [if_neg hs]
    exact Array.getElem?_eq_none (Nat.not_lt.1 hs)

end Reflects

/-- After any calls on a new table, its slots hold what the last calls with an effect left in them. -/
theorem reflects_changes (policy : SentinelPolicy) (calls : List (TableChange α)) :
    (({ policy := policy } : Table α).changes calls).Reflects policy
      (TableCall.heldAfter (({ policy := policy } : Table α).history calls)) := by
  induction calls using List.reverseRecOn with
  | nil => exact ⟨grown_mk policy, rfl, fun slot => get?_mk _ slot, fun _ _ => rfl⟩
  | append_singleton calls call ih =>
    rw [changes_append, history_append]
    exact (ih.answers call).reflects.congr fun slot =>
      (TableCall.heldAfter_concat _ _ slot).symm

/-- The table is the map `held`, for all who ask it and in every call made to it. -/
structure IsMap (t : Table α) (policy : SentinelPolicy) (held : Nat → Option α) : Prop where
  /-- The vector lists the map below the capacity, and ends there. -/
  entries_eq : ∀ slot, t.entries[slot]? = if slot < t.capacity then some (held slot) else none
  get?_eq : ∀ slot, t.get? slot = held slot
  contains_eq : ∀ slot, t.contains slot = (held slot).isSome
  /-- A slot beyond the capacity holds nothing. -/
  beyond : ∀ slot, t.capacity ≤ slot → held slot = none
  size_eq : t.size = {slot | slot ≠ reservedSlot ∧ (held slot).isSome}.ncard
  /-- Which calls are refused, whether a written slot was empty, and what a slot held before. -/
  answer_eq : ∀ call, (t.change call).1 = call.answer policy held
  /-- A refused call leaves the table as it is. -/
  refused : ∀ call e, (t.change call).1 = .refused e → (t.change call).2 = t
  capacity_erase : ∀ slot, (t.change (.erase slot)).2.capacity = t.capacity
  capacity_sentinel : ∀ slot, (t.change (.store slot none)).2.capacity = t.capacity

/-- Whatever is done to a new table, it is the map that the calls left, as their answers tell. -/
theorem isMap_of_calls (policy : SentinelPolicy) (calls : List (TableChange α)) :
    (({ policy := policy } : Table α).changes calls).IsMap policy
      (TableCall.heldAfter (({ policy := policy } : Table α).history calls)) where
  entries_eq := (reflects_changes policy calls).entries_eq
  get?_eq := (reflects_changes policy calls).get?_eq
  contains_eq := (reflects_changes policy calls).contains_eq
  beyond := (reflects_changes policy calls).beyond
  size_eq := (reflects_changes policy calls).size_eq
  answer_eq call := ((reflects_changes policy calls).answers call).answer_eq
  refused call := ((reflects_changes policy calls).answers call).refused
  capacity_erase slot := (reflects_changes policy calls).grown.capacity_change (.erase slot)
  capacity_sentinel slot := (reflects_changes policy calls).grown.capacity_change (.store slot none)

end Table

end ThreadSlots
