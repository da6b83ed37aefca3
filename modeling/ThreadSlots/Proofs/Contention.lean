import Mathlib.Logic.Function.Basic
import ThreadSlots.SlotSupply

/-!
# Threads that take slots at the same time

A supply is one counter that any number of threads advance without a lock. A thread reads the next
index and, if that may be handed out, puts the one after it in its place, which succeeds only if the
counter still is what the thread has read; else it reads again. What it reads may be out of date.
Whatever the order of these steps, the answers are those of one sequence of requests
(`Contention.Reached.serial`), which are known in closed form (`SlotSupply.takeMany_eq`): so no index
is handed out twice, however many threads there are (`Contention.Reached.facts`).
-/

namespace ThreadSlots

/-! ## One sequence of requests -/

namespace SlotSupply

/-- The answer to a request that finds the index to be the next one. -/
def answerAt (i : Nat) : Except StorageError Nat := if i ≤ maxSlot then .ok i else .error exhausted

theorem take_eq (s : SlotSupply) :
    s.take = (answerAt s.next, { s with next := max s.next (min (s.next + 1) (maxSlot + 1)) }) := by
  unfold take answerAt
  by_cases h : s.next ≤ maxSlot
  · have hnext : max s.next (min (s.next + 1) (maxSlot + 1)) = s.next + 1 := by omega
    rw [hnext, if_pos h, if_pos h]
  · have hnext : max s.next (min (s.next + 1) (maxSlot + 1)) = s.next := by omega
    rw [hnext, if_neg h, if_neg h]

theorem takeMany_cons (s : SlotSupply) (n : Nat) :
    s.takeMany (n + 1) = (s.take.1 :: (s.take.2.takeMany n).1, (s.take.2.takeMany n).2) := rfl

/-- One more request after the others. -/
theorem takeMany_succ (s : SlotSupply) (n : Nat) :
    s.takeMany (n + 1) =
      ((s.takeMany n).1 ++ [(s.takeMany n).2.take.1], (s.takeMany n).2.take.2) := by
  induction n generalizing s with
  | zero => rfl
  | succ n ih => rw [takeMany_cons, ih, takeMany_cons s n, List.cons_append]

/-- Requests are answered in order, and a refusal changes nothing. -/
theorem takeMany_eq (s : SlotSupply) (n : Nat) :
    s.takeMany n = ((List.range' s.next n).map answerAt,
      { s with next := max s.next (min (s.next + n) (maxSlot + 1)) }) := by
  induction n with
  | zero =>
    have hnext : max s.next (min (s.next + 0) (maxSlot + 1)) = s.next := by omega
    rw [hnext]
    rfl
  | succ n ih =>
    have hanswer : answerAt (max s.next (min (s.next + n) (maxSlot + 1))) =
        answerAt (s.next + n) := by
      unfold answerAt
      by_cases h : s.next + n ≤ maxSlot
      · have hnext : max s.next (min (s.next + n) (maxSlot + 1)) = s.next + n := by omega
        rw [hnext]
      · have hnext : ¬ max s.next (min (s.next + n) (maxSlot + 1)) ≤ maxSlot := by omega
        rw [if_neg h, if_neg hnext]
    have hnext : max (max s.next (min (s.next + n) (maxSlot + 1)))
        (min (max s.next (min (s.next + n) (maxSlot + 1)) + 1) (maxSlot + 1)) =
        max s.next (min (s.next + (n + 1)) (maxSlot + 1)) := by omega
    rw [takeMany_succ, ih]
    dsimp only
    rw [take_eq, List.range'_concat, List.map_append]
    simp only [hanswer, hnext, Nat.one_mul, List.map_cons, List.map_nil]

/-- The indices that are handed out by requests from an index on. -/
theorem filterMap_answerAt (first n : Nat) :
    ((List.range' first n).map answerAt).filterMap Except.toOption =
      List.range' first (min n (maxSlot + 1 - first)) := by
  induction n generalizing first with
  | zero => rw [Nat.zero_min]; rfl
  | succ n ih =>
    rw [List.range'_succ, List.map_cons]
    by_cases h : first ≤ maxSlot
    · have hmin : min (n + 1) (maxSlot + 1 - first) = min n (maxSlot + 1 - (first + 1)) + 1 := by
        omega
      have hanswer : (answerAt first).toOption = some first := by simp [answerAt, h, Except.toOption]
      rw [List.filterMap_cons_some hanswer, ih, hmin, List.range'_succ]
    · have hmin : min (n + 1) (maxSlot + 1 - first) = 0 := by omega
      have hmin' : min n (maxSlot + 1 - (first + 1)) = 0 := by omega
      have hanswer : (answerAt first).toOption = none := by simp [answerAt, h, Except.toOption]
      rw [List.filterMap_cons_none hanswer, ih, hmin, hmin']
      rfl

end SlotSupply

/-! ## Threads in a race -/

/-- Threads that request indices from one supply. -/
structure Contention (T : Type) where
  supply : SlotSupply
  /-- What a thread has read, if it has a request under way. -/
  seen : T → Option Nat := fun _ => none
  /-- The answers, in the order in which the requests have ended. -/
  answers : List (T × Except StorageError Nat) := []

namespace Contention

variable {T : Type} [DecidableEq T]

/-- A step of one thread. -/
inductive Step : Contention T → Contention T → Prop
  /-- The thread reads the next index, or what it was at some time before. -/
  | read {c : Contention T} (t : T) (n : Nat) (hfirst : c.supply.first ≤ n)
    (hnext : n ≤ c.supply.next) : Step c { c with seen := Function.update c.seen t (some n) }
  /-- No other thread has been faster. -/
  | take {c : Contention T} (t : T) (hseen : c.seen t = some c.supply.next)
    (hle : c.supply.next ≤ maxSlot) :
    Step c
      { supply := { c.supply with next := c.supply.next + 1 }
        seen := Function.update c.seen t none
        answers := c.answers ++ [(t, .ok c.supply.next)] }
  /-- What the thread has read may not be handed out. -/
  | refuse {c : Contention T} (t : T) (n : Nat) (hseen : c.seen t = some n) (hlt : maxSlot < n) :
    Step c
      { c with
        seen := Function.update c.seen t none
        answers := c.answers ++ [(t, .error SlotSupply.exhausted)] }

/-- What threads can come to that share a supply from a first index on. -/
inductive Reached (first : Nat) : Contention T → Prop
  | start : Reached first { supply := .startingAt first }
  | step {c c' : Contention T} (h : Reached first c) (hstep : Step c c') : Reached first c'

/-- The indices that were handed out, in order. -/
def slots (c : Contention T) : List Nat := c.answers.filterMap (·.2.toOption)

variable {first : Nat} {c : Contention T}

/-- No thread has read more than the next index, and the answers are those of one sequence of
requests. -/
structure Serial (first : Nat) (c : Contention T) : Prop where
  seen : ∀ t n, c.seen t = some n → n ≤ c.supply.next
  answers : c.answers.map (·.2) = ((SlotSupply.startingAt first).takeMany c.answers.length).1
  supply : c.supply = ((SlotSupply.startingAt first).takeMany c.answers.length).2

/-- A request comes to its end. -/
theorem Serial.answer (h : c.Serial first) (t : T) {answer : Except StorageError Nat}
    {supply : SlotSupply} (htake : c.supply.take = (answer, supply)) :
    Serial first
      { supply := supply
        seen := Function.update c.seen t none
        answers := c.answers ++ [(t, answer)] } where
  seen t' n hn := by
    have hle : c.supply.next ≤ supply.next := by
      have hnext := congrArg (·.2.next) (htake.symm.trans c.supply.take_eq)
      dsimp only at hnext
      omega
    by_cases ht : t' = t
    · subst ht
      simp at hn
    · dsimp only at hn
      rw [Function.update_of_ne ht] at hn
      exact Nat.le_trans (h.seen t' n hn) hle
  answers := by
    rw [List.length_append, List.length_singleton, SlotSupply.takeMany_succ, ← h.supply, htake,
      ← h.answers, List.map_append]
    rfl
  supply := by
    rw [List.length_append, List.length_singleton, SlotSupply.takeMany_succ, ← h.supply, htake]

/-- Every step keeps the order of requests. -/
theorem Serial.step (h : c.Serial first) {c' : Contention T} (hstep : Step c c') :
    c'.Serial first := by
  cases hstep with
  | read t n hfirst hnext =>
    refine ⟨fun t' m hm => ?_, h.answers, h.supply⟩
    dsimp only at hm ⊢
    by_cases ht : t' = t
    · subst ht
      rw [Function.update_self] at hm
      cases hm
      exact hnext
    · rw [Function.update_of_ne ht] at hm
      exact h.seen t' m hm
  | take t hseen hle => exact h.answer t (by rw [SlotSupply.take, if_pos hle])
  | refuse t n hseen hlt =>
    -- what the thread has read is not above the next index
    have hnext : ¬ c.supply.next ≤ maxSlot :=
      Nat.not_le.2 (Nat.lt_of_lt_of_le hlt (h.seen t n hseen))
    exact h.answer t (by rw [SlotSupply.take, if_neg hnext])

theorem Reached.serial (h : Reached first c) : c.Serial first := by
  induction h with
  | start => exact ⟨nofun, rfl, rfl⟩
  | step _ hstep ih => exact ih.step hstep

/-- What threads in a race have been answered, and what is left of the supply. -/
theorem Reached.facts (hfirst : first + 1 < UInt64.size) (h : Reached first c) :
    c.answers.map (·.2) = (List.range' first c.answers.length).map SlotSupply.answerAt ∧
      c.slots = List.range' first c.supply.taken ∧ (∀ slot ∈ c.slots, slot ≤ maxSlot) ∧
      c.supply.taken = c.slots.length ∧ c.supply.last? = c.slots.getLast? ∧
      c.supply.next < UInt64.size := by
  obtain ⟨-, hanswers, hsupply⟩ := h.serial
  rw [SlotSupply.takeMany_eq] at hanswers hsupply
  have hnext : c.supply.next = max first (min (first + c.answers.length) (maxSlot + 1)) :=
    congrArg (·.next) hsupply
  have hstart : c.supply.first = first := congrArg (·.first) hsupply
  have htaken : c.supply.taken = min c.answers.length (maxSlot + 1 - first) := by
    rw [SlotSupply.taken, hnext, hstart]
    omega
  have hslots : c.slots = List.range' first c.supply.taken := by
    have hfilter := SlotSupply.filterMap_answerAt first c.answers.length
    have hmap : c.slots = (c.answers.map (·.2)).filterMap Except.toOption := by
      rw [List.filterMap_map]
      rfl
    rw [hmap, hanswers, htaken]
    exact hfilter
  refine ⟨hanswers, hslots, fun slot hslot => ?_, ?_, ?_, ?_⟩
  · rw [hslots, List.mem_range'_1] at hslot
    omega
  · rw [hslots, List.length_range']
  · rw [hslots, List.getLast?_range', SlotSupply.last?, hstart, SlotSupply.taken, hstart]
    by_cases htook : first < c.supply.next
    · have hsome : c.supply.next - first ≠ 0 := by omega
      have hlast : c.supply.next - 1 = first + (c.supply.next - first) - 1 := by omega
      simp [htook, hsome, hlast]
    · have hnone : c.supply.next - first = 0 := by omega
      simp [htook, hnone]
  · rw [hnext]
    unfold maxSlot
    unfold UInt64.size at hfirst ⊢
    omega

end Contention

end ThreadSlots
