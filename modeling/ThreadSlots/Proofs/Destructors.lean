import ThreadSlots.Proofs.Walk

/-!
# What destructors do

The destructors of the storage engine's own thread-locals do not concern each other: it does not
matter in which order some of them run (`Scene.unwind_eq`). What does is what the thread's own code
does in between. Each destructor is a course that takes a table from the thread at most
(`Scene.course_destroy`), so all of them together with the code are one
(`Session.course_tearDown`).
-/

namespace ThreadSlots

open Storage

/-! ## Destructors in any order -/

/-- What is left of a thread-local once those were destroyed that were first used after `n` others or
more. -/
def LocalCell.unwound {α : Type} (c : LocalCell α) (n : Nat) : LocalCell α :=
  if c.since?.any (n ≤ ·) then .destroyed else c

def Locals.unwound (l : Locals) (n : Nat) : Locals :=
  { l with carried := l.carried.unwound n, fallback := l.fallback.unwound n }

def Sentinel.unwound (s : Sentinel) (n : Nat) : Sentinel :=
  if s.since?.any (n ≤ ·) then .destroyed else s

theorem LocalCell.any_since?_unwound {α : Type} (c : LocalCell α) (n : Nat) :
    ¬ (c.unwound n).since?.any (n ≤ ·) := by
  unfold unwound
  split
  · nofun
  · assumption

theorem Sentinel.any_since?_unwound (s : Sentinel) (n : Nat) :
    ¬ (s.unwound n).since?.any (n ≤ ·) := by
  unfold unwound
  split
  · nofun
  · assumption

/-- What was destroyed is not destroyed again. -/
theorem Locals.Gone.unwound {l : Locals} (h : l.Gone) (n : Nat) : l.unwound n = l := by
  unfold Locals.unwound
  rw [h.1, h.2]
  exact congrArg₂ (Locals.mk · · l.uses) h.1.symm h.2.symm

namespace Scene

variable (sc : Scene)

theorem destroy_comm (l l' : ThreadLocal) : (sc.destroy l).destroy l' = (sc.destroy l').destroy l := by
  cases l <;> cases l' <;> rfl

theorem perm_insertUsed (t : Thread) (l : ThreadLocal) (ls : List ThreadLocal) :
    (t.insertUsed l ls).Perm (l :: ls) := by
  induction ls with
  | nil => exact .refl _
  | cons l' ls ih =>
    unfold Thread.insertUsed
    split
    · exact .refl _
    · exact (ih.cons l').trans (.swap ..)

theorem perm_usedAfter (t : Thread) (n : Nat) :
    (t.usedAfter n).Perm (ThreadLocal.all.filter fun l => (t.since? l).any (n ≤ ·)) := by
  unfold Thread.usedAfter
  generalize ThreadLocal.all.filter _ = ls
  induction ls with
  | nil => exact .refl _
  | cons l ls ih => exact (perm_insertUsed t l _).trans (ih.cons l)

/-- The order of the destructors does not matter. -/
theorem unwind_eq (n : Nat) :
    sc.unwind n =
      { sc with
        process :=
          if sc.thread.sentinel.since?.any (n ≤ ·) then
            sc.process.reportDeath sc.thread.id sc.thread.sentinel
          else sc.process
        thread :=
          { sc.thread with
            locals := sc.thread.locals.unwound n
            sentinel := sc.thread.sentinel.unwound n } } := by
  unfold unwind
  rw [(perm_usedAfter sc.thread n).foldl_eq' fun l _ l' _ sc => sc.destroy_comm l l']
  unfold ThreadLocal.all Locals.unwound LocalCell.unwound Sentinel.unwound
  simp only [List.filter_cons, List.filter_nil, Thread.since?]
  by_cases hc : sc.thread.locals.carried.since?.any (n ≤ ·) <;>
    by_cases hf : sc.thread.locals.fallback.since?.any (n ≤ ·) <;>
      by_cases hs : sc.thread.sentinel.since?.any (n ≤ ·) <;>
        simp only [hc, hf, hs, if_true, Bool.false_eq_true, if_false] <;> rfl

@[simp] theorem locals_unwind (n : Nat) :
    (sc.unwind n).thread.locals = sc.thread.locals.unwound n := by
  rw [unwind_eq]

@[simp] theorem sentinel_unwind (n : Nat) :
    (sc.unwind n).thread.sentinel = sc.thread.sentinel.unwound n := by
  rw [unwind_eq]

/-- Nothing is left to destroy. -/
theorem usedAfter_unwind (n : Nat) : (sc.unwind n).thread.usedAfter n = [] := by
  have hnone : ∀ l, ¬ ((sc.unwind n).thread.since? l).any (n ≤ ·) := by
    intro l
    cases l with
    | carried =>
      rw [Thread.since?, locals_unwind]
      exact sc.thread.locals.carried.any_since?_unwound n
    | fallback =>
      rw [Thread.since?, locals_unwind]
      exact sc.thread.locals.fallback.any_since?_unwound n
    | sentinel =>
      rw [Thread.since?, sentinel_unwind]
      exact sc.thread.sentinel.any_since?_unwound n
  have hempty := List.filter_eq_nil_iff.2 fun l (_ : l ∈ ThreadLocal.all) => hnone l
  exact (hempty ▸ perm_usedAfter _ n).eq_nil

theorem unwind_unwind (n : Nat) : (sc.unwind n).unwind n = sc.unwind n := by
  rw [unwind, usedAfter_unwind]
  rfl

/-! ## One destructor -/

/-- The sentinel is destroyed. -/
theorem like_destroy_sentinel : sc.Like (sc.destroy .sentinel) := by
  unfold Like stripped destroy
  rw [Process.stripped_reportDeath]

theorem stripped_destroy (l : ThreadLocal) :
    (sc.destroy l).process.stripped = sc.process.stripped := by
  cases l with
  | sentinel => exact sc.like_destroy_sentinel.process
  | _ => rfl

/-- A destructor takes a table from the thread at most. -/
theorem course_destroy (busy : List TableId) {sc : Scene} (hs : sc.Sound) (l : ThreadLocal) :
    Course busy sc (sc.destroy l) := by
  cases l with
  | carried => exact Walks.giveUp busy hs (.inl rfl) (.inr rfl)
  | fallback => exact Walks.giveUp busy hs (.inr rfl) (.inl rfl)
  | sentinel => exact .like .rest sc.like_destroy_sentinel

theorem since?_destroy_of_ne (sc : Scene) {l l' : ThreadLocal} (h : l' ≠ l) :
    (sc.destroy l).thread.since? l' = sc.thread.since? l' := by
  cases l <;> cases l' <;> first | rfl | exact absurd rfl h

/-- What is destroyed is in use, and each thread-local is destroyed once. -/
theorem usedAfter_pairwise (t : Thread) (n : Nat) :
    (t.usedAfter n).Nodup ∧ ∀ l ∈ t.usedAfter n, (t.since? l).isSome := by
  have hperm := perm_usedAfter t n
  refine ⟨hperm.nodup_iff.2 (List.filter_sublist.nodup (by decide)), fun l hl => ?_⟩
  obtain ⟨-, hl⟩ := List.mem_filter.1 (hperm.mem_iff.1 hl)
  exact Option.isSome_of_any hl

/-- What every destructor keeps is kept when several run. -/
theorem unwind_induction {P : Scene → Prop}
    (hdestroy : ∀ sc l, (sc.thread.since? l).isSome → P sc → P (sc.destroy l)) {sc : Scene}
    (h : P sc) (n : Nat) : P (sc.unwind n) := by
  unfold unwind
  obtain ⟨hnodup, hused⟩ := usedAfter_pairwise sc.thread n
  generalize sc.thread.usedAfter n = ls at hnodup hused
  induction ls generalizing sc with
  | nil => exact h
  | cons l ls ih =>
    obtain ⟨hl, hls⟩ := List.forall_mem_cons.1 hused
    obtain ⟨hnot, hnodup⟩ := List.nodup_cons.1 hnodup
    refine ih (hdestroy sc l hl h) hnodup fun l' hl' => ?_
    rw [since?_destroy_of_ne sc (ne_of_mem_of_not_mem hl' hnot)]
    exact hls l' hl'

theorem stripped_unwind (sc : Scene) (n : Nat) :
    (sc.unwind n).process.stripped = sc.process.stripped :=
  unwind_induction (P := fun sc' => sc'.process.stripped = sc.process.stripped)
    (fun sc' l _ h => (sc'.stripped_destroy l).trans h) rfl n

end Scene

/-! ## The end of a thread -/

theorem Late.forall_first {P : Command → Prop} {commands : Option (List Command)}
    (h : ∀ c ∈ commands.getD [], P c) : ∀ code ∈ Late.first commands, ∀ c ∈ code.commands, P c := by
  intro code hcode
  obtain ⟨cs, hcs, rfl⟩ := List.mem_map.1 hcode
  rw [Option.mem_toList.1 hcs] at h
  exact h

namespace Session

/-- What the commands of a destructor keep, each by itself. -/
theorem runLate_induction {depth : Nat} {P : Scene → Prop} {cs : List Command}
    (hperform : ∀ sc, ∀ c ∈ cs, P sc → P (runOn (perform (enter depth) c) sc).2) {sc : Scene}
    (h : P sc) : P (runLate depth sc cs).2 := by
  induction cs generalizing sc with
  | nil => exact h
  | cons c cs ih =>
    exact ih (fun sc c hc => hperform sc c (List.mem_cons_of_mem _ hc))
      (hperform sc c List.mem_cons_self h)

/-- What every destructor keeps, and every command in one, is kept when several run. -/
theorem runDestructors_induction {depth : Nat} {P : Scene → Prop} {late : List Late}
    (hdestroy : ∀ sc l, (sc.thread.since? l).isSome → P sc → P (sc.destroy l))
    (hperform : ∀ sc, ∀ code ∈ late, ∀ c ∈ code.commands, P sc →
      P (runOn (perform (enter depth) c) sc).2) {sc : Scene} (h : P sc) :
    P (runDestructors depth sc late).2 := by
  induction late generalizing sc with
  | nil => exact h
  | cons code late ih =>
    refine ih (fun sc code hcode => hperform sc code (List.mem_cons_of_mem _ hcode)) ?_
    exact runLate_induction (fun sc => hperform sc code List.mem_cons_self)
      (Scene.unwind_induction hdestroy h _)

/-- What the destructor does not find any more may be destroyed before. -/
theorem runDestructors_unwind (depth : Nat) (sc : Scene) (code : Late) (earlier : List Late) :
    runDestructors depth (sc.unwind (code.since + 1)) (code :: earlier) =
      runDestructors depth sc (code :: earlier) := by
  unfold runDestructors
  rw [Scene.unwind_unwind]

theorem runDestructors_append (depth : Nat) (sc : Scene) (late earlier : List Late) :
    runDestructors depth sc (late ++ earlier) =
      ((runDestructors depth sc late).1 ++
          (runDestructors depth (runDestructors depth sc late).2 earlier).1,
        (runDestructors depth (runDestructors depth sc late).2 earlier).2) := by
  induction late generalizing sc with
  | nil => rfl
  | cons code late ih =>
    simp only [List.cons_append, runDestructors, ih, List.append_assoc]

theorem course_unwind {sc : Scene} (hs : sc.Sound) (n : Nat) : Course [] sc (sc.unwind n) :=
  Scene.unwind_induction (P := Course [] sc)
    (fun _ l _ h => h.trans (Scene.course_destroy [] (h.sound hs) l)) .rest n

theorem course_runDestructors (depth : Nat) (late : List Late) {sc : Scene} (hs : sc.Sound) :
    Course [] sc (runDestructors depth sc late).2 :=
  runDestructors_induction (P := Course [] sc)
    (fun _ l _ h => h.trans (Scene.course_destroy [] (h.sound hs) l))
    (fun _ _ _ c _ h => h.trans ((walks_perform depth c).course [] (h.sound hs))) .rest

theorem course_tearDown (depth : Nat) (late : List Late) {sc : Scene} (hs : sc.Sound) :
    Course [] sc (tearDown depth sc late).2 := by
  have hcourse := course_runDestructors depth late hs
  exact hcourse.trans (course_unwind (hcourse.sound hs) 0)

end Session

end ThreadSlots
