import ThreadSlots.Proofs.Scenarios.Holding

/-!
# Trials that pass

A trial `Passes` on a thread that holds certain values if none of its conditions fails and nothing
stops it; the number of conditions it checks and the values it leaves are part of the statement. Rules
for the parts of a trial come first, then one statement for each loop of the scenarios.

Variables are made up to the last slot of the supply, whatever the thread (`supplies_makeVariables`). So
a trial that makes variables first either passes or is refused (`Trial.Makes`).
-/

namespace ThreadSlots

open Std (ExtTreeMap)
open Storage

/-! ## Making variables -/

/-- How many slots the supply still hands out. -/
def SlotSupply.left (s : SlotSupply) : Nat := maxSlot + 1 - s.next

/-- The process has made more variables, and nothing else happened that other threads depend on. -/
structure Process.Makes (p : Process) (vs : List Variable) (p' : Process) : Prop where
  sound : p'.Sound
  keeps : ∀ v, p.Knows v → p'.Knows v
  knows : ∀ v ∈ vs, p'.Knows v
  slots : vs.map (·.slot) = List.range' p.supply.next vs.length
  next : p'.supply.next = p.supply.next + vs.length
  epoch : p'.epoch = p.epoch

namespace Process.Makes

variable {p p' p'' : Process} {v : Variable} {vs : List Variable}

theorem nil (hp : p.Sound) : p.Makes [] p := ⟨hp, fun _ => id, by simp, rfl, rfl, rfl⟩

theorem cons (h : p.Makes [v] p') (h' : p'.Makes vs p'') : p.Makes (v :: vs) p'' where
  sound := h'.sound
  keeps u hu := h'.keeps u (h.keeps u hu)
  knows := List.forall_mem_cons.2 ⟨h'.keeps v (h.knows v (List.mem_singleton_self v)), h'.knows⟩
  slots := by
    have hslot : v.slot = p.supply.next := by simpa using h.slots
    have hnext : p'.supply.next = p.supply.next + 1 := h.next
    rw [List.map_cons, h'.slots, hslot, hnext]
    rfl
  next := by
    rw [h'.next, h.next]
    simp only [List.length_cons, List.length_nil]
    omega
  epoch := h'.epoch.trans h.epoch

theorem steady (h : p.Makes vs p') (hs : p'.Steady p'') : p.Makes vs p'' where
  sound := hs.sound h.sound
  keeps v hv := hs.knows v (h.keeps v hv)
  knows v hv := hs.knows v (h.knows v hv)
  slots := h.slots
  next := by rw [hs.supply, h.next]
  epoch := hs.epoch.trans h.epoch

theorem of_steady (hs : p.Steady p') (h : p'.Makes vs p'') : p.Makes vs p'' where
  sound := h.sound
  keeps v hv := h.keeps v (hs.knows v hv)
  knows := h.knows
  slots := by rw [← hs.supply, h.slots]
  next := by rw [← hs.supply, h.next]
  epoch := h.epoch.trans hs.epoch

theorem left (h : p.Makes vs p') : p'.supply.left = p.supply.left - vs.length := by
  have := h.next
  unfold SlotSupply.left
  omega

end Process.Makes

namespace Scenario

/-- The variables start from `first i`, for `i` from a number on. -/
def StartFrom (first : Nat → Int) : Nat → List Variable → Prop
  | _, [] => True
  | i, v :: vs => v.Starts (first i) ∧ StartFrom first (i + 1) vs

theorem StartFrom.drop {first : Nat → Int} {i : Nat} {vs : List Variable} (h : StartFrom first i vs)
    (n : Nat) : StartFrom first (i + n) (vs.drop n) := by
  induction n generalizing i vs with
  | zero => exact h
  | succ n ih =>
    cases vs with
    | nil => trivial
    | cons v vs =>
      rw [List.drop_succ_cons, ← Nat.add_assoc, Nat.add_right_comm]
      exact ih h.2

theorem StartFrom.take {first : Nat → Int} {i : Nat} {vs : List Variable} (h : StartFrom first i vs)
    (n : Nat) : StartFrom first i (vs.take n) := by
  induction n generalizing i vs with
  | zero => trivial
  | succ n ih =>
    cases vs with
    | nil => trivial
    | cons v vs => exact ⟨h.1, ih h.2⟩

theorem exists_makeVariable (i : Int) (sc : Scene) (hp : sc.process.Sound)
    (hleft : sc.process.supply.left ≠ 0) :
    ∃ v p', runOn (makeVariable i) sc = (.ok v, { sc with process := p' }) ∧ sc.process.Makes [v] p' ∧
      v.Starts i := by
  have hnext : sc.process.supply.next ≤ maxSlot := by
    unfold SlotSupply.left at hleft
    omega
  have htake : runOn takeSlot sc = (.ok sc.process.supply.next,
      { sc with
        process := { sc.process with
          supply := { sc.process.supply with next := sc.process.supply.next + 1 } }.count
            .variablesRegistered }) := by
    unfold takeSlot SlotSupply.take
    simp [hnext, runOn_ofExcept]
  unfold makeVariable enroll
  rw [runOn_bind, htake]
  have henrolled {v : Variable} (hv : v.slot = sc.process.supply.next) := hp.enroll hv hnext
  refine ⟨_, _, rfl, ⟨(henrolled rfl).1, (henrolled rfl).2, fun u hu => ?_, rfl, rfl, rfl⟩,
    ⟨rfl, rfl, fun _ => rfl, rfl⟩⟩
  cases List.mem_singleton.1 hu
  exact ExtTreeMap.getElem?_insert_self

theorem runOn_makeVariable_refused (i : Int) (sc : Scene) (hleft : sc.process.supply.left = 0) :
    runOn (makeVariable i) sc = (.error (.refused SlotSupply.exhausted), sc) := by
  have hnext : ¬sc.process.supply.next ≤ maxSlot := by
    unfold SlotSupply.left at hleft
    omega
  have htake : runOn takeSlot sc = (.error (.refused SlotSupply.exhausted), sc) := by
    unfold takeSlot SlotSupply.take
    simp [hnext, runOn_ofExcept]
  unfold makeVariable enroll
  rw [runOn_bind, htake]

/-- The action makes `n` variables that start from `first`, or is refused in the middle because the
supply has fewer slots left. -/
structure Supplies {α : Type} (x : Storage α) (made : α → List Variable) (first : Nat → Int)
    (i n : Nat) : Prop where
  supplied : ∀ sc : Scene, sc.process.Sound → n ≤ sc.process.supply.left →
    ∃ a p, runOn x sc = (.ok a, { sc with process := p }) ∧ sc.process.Makes (made a) p ∧
      (made a).length = n ∧ StartFrom first i (made a)
  refused : ∀ sc : Scene, sc.process.Sound → sc.process.supply.left < n →
    ∃ vs p, runOn x sc = (.error (.refused SlotSupply.exhausted), { sc with process := p }) ∧
      sc.process.Makes vs p ∧ StartFrom first i vs

theorem supplies_makeVariable (first : Nat → Int) (i : Nat) :
    Supplies (makeVariable (first i)) (fun v => [v]) first i 1 where
  supplied sc hp hleft := by
    obtain ⟨v, p, hrun, hmakes, hstarts⟩ := exists_makeVariable (first i) sc hp (Nat.ne_of_gt hleft)
    exact ⟨v, p, hrun, hmakes, rfl, hstarts, trivial⟩
  refused sc hp hleft :=
    ⟨[], sc.process, runOn_makeVariable_refused _ sc (Nat.lt_one_iff.1 hleft), .nil hp, trivial⟩

theorem supplies_makeVariables (first : Nat → Int) (i n : Nat) :
    Supplies (makeVariables first i n) id first i n := by
  induction n generalizing i with
  | zero => exact ⟨fun sc hp _ => ⟨[], sc.process, rfl, .nil hp, rfl, trivial⟩, fun sc _ h => by omega⟩
  | succ n ih =>
    have hleft {sc : Scene} {v : Variable} {p : Process} (h : sc.process.Makes [v] p) :
        p.supply.left = sc.process.supply.left - 1 := h.left
    constructor
    · intro sc hp hle
      obtain ⟨v, p₁, hrun, hmakes, hstarts⟩ := exists_makeVariable (first i) sc hp (by omega)
      obtain ⟨vs, p₂, hrun', hmakes', hlength, hfrom⟩ :=
        (ih (i + 1)).supplied { sc with process := p₁ } hmakes.sound (by rw [hleft hmakes]; omega)
      refine ⟨v :: vs, p₂, ?_, hmakes.cons hmakes', congrArg (· + 1) hlength, hstarts, hfrom⟩
      rw [makeVariables, runOn_bind, hrun]
      simp only [runOn_bind, hrun', runOn_pure]
    · intro sc hp hlt
      by_cases hzero : sc.process.supply.left = 0
      · refine ⟨[], sc.process, ?_, .nil hp, trivial⟩
        rw [makeVariables, runOn_bind, runOn_makeVariable_refused _ _ hzero]
      · obtain ⟨v, p₁, hrun, hmakes, hstarts⟩ := exists_makeVariable (first i) sc hp hzero
        obtain ⟨vs, p₂, hrun', hmakes', hfrom⟩ :=
          (ih (i + 1)).refused { sc with process := p₁ } hmakes.sound (by rw [hleft hmakes]; omega)
        refine ⟨v :: vs, p₂, ?_, hmakes.cons hmakes', hstarts, hfrom⟩
        rw [makeVariables, runOn_bind, hrun]
        simp only [runOn_bind, hrun']

/-! ## Parts of a trial -/

namespace Trial

variable {α β : Type} {known : List Variable} {values values' : Holding} {n m : Nat}

/-- On a thread that holds some values the trial checks `n` conditions, which all hold, and ends with a
result and values that satisfy `post`. -/
def Passes (known : List Variable) (x : Trial α) (values : Holding) (n : Nat)
    (post : α → Holding → Prop) : Prop :=
  ∀ (sc : Scene) (k : Nat), sc.Holds known values → ∃ a values' sc',
    runOn (x.run.run k) sc = (.ok (.ok a, k + n), sc') ∧ post a values' ∧ sc'.Holds known values' ∧
      sc.process.Steady sc'.process

theorem runOn_bind (x : Trial α) (f : α → Trial β) (k : Nat) (sc : Scene) :
    runOn ((x >>= f).run.run k) sc = match runOn (x.run.run k) sc with
      | (.ok (.ok a, k), sc) => runOn ((f a).run.run k) sc
      | (.ok (.error what, k), sc) => (.ok (.error what, k), sc)
      | (.error stop, sc) => (.error stop, sc) := by
  rw [ExceptT.run_bind, StateT.run_bind, Storage.runOn_bind]
  rcases runOn (x.run.run k) sc with ⟨stop | ⟨what | a, k'⟩, sc'⟩ <;> rfl

theorem runOn_operate (x : Storage α) (k : Nat) (sc : Scene) :
    runOn ((operate x).run.run k) sc = match runOn x sc with
      | (.ok a, sc) => (.ok (.ok a, k), sc)
      | (.error stop, sc) => (.error stop, sc) := by
  have hrun : (operate x).run.run k = ((fun a => (Except.ok a, k)) <$> x) := by
    simp [operate, liftM, monadLift, MonadLift.monadLift]
  rw [hrun]
  exact Storage.runOn_map sc _ x

theorem runOn_verdict_of_ok {x : Storage α} {f : α → Trial Unit} {sc sc' : Scene} {a : α}
    (h : runOn x sc = (.ok a, sc')) :
    runOn (operate x >>= f).verdict sc = runOn (f a).verdict sc' := by
  unfold verdict
  rw [Storage.runOn_bind, runOn_bind, runOn_operate, h, Storage.runOn_bind]

theorem runOn_verdict_of_error {x : Storage α} {f : α → Trial Unit} {sc sc' : Scene} {stop : Stop}
    (h : runOn x sc = (.error stop, sc')) :
    runOn (operate x >>= f).verdict sc = (.error stop, sc') := by
  unfold verdict
  rw [Storage.runOn_bind, runOn_bind, runOn_operate, h]

namespace Passes

theorem pure {a : α} {post : α → Holding → Prop} (h : post a values) :
    Passes known (Pure.pure a) values 0 post := fun sc _ hsc => ⟨a, values, sc, rfl, h, hsc, .refl _⟩

theorem bind {x : Trial α} {f : α → Trial β} {mid : α → Holding → Prop} {post : β → Holding → Prop}
    (hx : Passes known x values n mid)
    (hf : ∀ a values', mid a values' → Passes known (f a) values' m post) :
    Passes known (x >>= f) values (m + n) post := by
  intro sc k h
  obtain ⟨a, values', sc₁, hrun, hmid, h₁, hs₁⟩ := hx sc k h
  obtain ⟨b, values'', sc₂, hrun', hpost, h₂, hs₂⟩ := hf a values' hmid sc₁ (k + n) h₁
  refine ⟨b, values'', sc₂, ?_, hpost, h₂, hs₁.trans hs₂⟩
  rw [runOn_bind, hrun, Nat.add_comm m, ← Nat.add_assoc]
  exact hrun'

theorem mono {x : Trial α} {post post' : α → Holding → Prop} (hx : Passes known x values n post)
    (h : ∀ a values', post a values' → post' a values') : Passes known x values n post' := by
  intro sc k hsc
  obtain ⟨a, values', sc', hrun, hpost, hrest⟩ := hx sc k hsc
  exact ⟨a, values', sc', hrun, h a values' hpost, hrest⟩

theorem check {holds : Bool} (h : holds = true) (what : String) :
    Passes known (Trial.check holds what) values 1 (Exactly () values) := by
  subst h
  exact fun sc k hsc => ⟨(), values, sc, rfl, ⟨rfl, rfl⟩, hsc, .refl _⟩

theorem operate {x : Storage α} {post : α → Holding → Prop} (hx : Does known x values post) :
    Passes known (Trial.operate x) values 0 post := by
  intro sc k h
  obtain ⟨a, values', sc', hrun, hpost, h', hs⟩ := hx sc h
  refine ⟨a, values', sc', ?_, hpost, h', hs⟩
  rw [runOn_operate, hrun]
  rfl

/-- The rule for a part after which the values are known. -/
theorem next {x : Trial α} {f : α → Trial β} {a : α} {post : β → Holding → Prop}
    (hx : Passes known x values n (Exactly a values')) (hf : Passes known (f a) values' m post) :
    Passes known (x >>= f) values (m + n) post :=
  hx.bind fun _ _ h => h.1 ▸ h.2 ▸ hf

/-- The rule for an operation of which the result is known. -/
theorem done {x : Storage α} {f : α → Trial β} {a : α} {post : β → Holding → Prop}
    (hx : Does known x values (Exactly a values')) (hf : Passes known (f a) values' m post) :
    Passes known (Trial.operate x >>= f) values m post :=
  (operate hx).next hf

/-- The rule for a condition on the result of an operation. -/
theorem checked {x : Storage α} {a : α} {holds : α → Bool} {what : α → String}
    (hx : Does known x values (Exactly a values')) (h : holds a = true) :
    Passes known (Trial.operate x >>= fun b => Trial.check (holds b) (what b)) values 1
      (Exactly () values') :=
  done hx (check h (what a))

theorem checkedThen {x : Storage α} {a : α} {holds : α → Bool} {what : α → String} {f : Unit → Trial β}
    {post : β → Holding → Prop} (hx : Does known x values (Exactly a values')) (h : holds a = true)
    (hf : Passes known (f ()) values' m post) :
    Passes known (Trial.operate x >>= fun b => Trial.check (holds b) (what b) >>= f) values (m + 1)
      post :=
  done hx ((check h (what a)).next hf)

/-- What the trial finds if it passes. -/
theorem verdict {x : Trial Unit} {post : Unit → Holding → Prop} (hx : Passes known x values n post)
    {sc : Scene} (h : sc.Holds known values) :
    ∃ values' sc', runOn x.verdict sc = (.ok (.ok n), sc') ∧ sc'.Holds known values' ∧
      sc.process.Steady sc'.process := by
  obtain ⟨a, values', sc', hrun, -, h', hs⟩ := hx sc 0 h
  refine ⟨values', sc', ?_, h', hs⟩
  unfold Trial.verdict
  rw [Storage.runOn_bind, hrun, Nat.zero_add]
  rfl

end Passes

end Trial

/-! ## A variable's life -/

section

variable {v : Variable} (hstarts : v.Starts 0)

/-- The values of a thread that has set one variable. -/
def alone (v : Variable) (value : Value) : Holding := (∅ : Holding).insert v.slot (v, value)

theorem insert_alone (v : Variable) (x y : Value) : (alone v x).insert v.slot (v, y) = alone v y := by
  unfold alone
  rw [insert_insert]

theorem getElem?_alone (v : Variable) (x : Value) : (alone v x)[v.slot]? = some (v, x) :=
  ExtTreeMap.getElem?_insert_self

theorem contains_alone (v : Variable) (x : Value) : (alone v x).contains v.slot = true := by
  rw [ExtTreeMap.contains_eq_isSome_getElem?, getElem?_alone]
  rfl

theorem size_alone (v : Variable) (x : Value) : (alone v x).size = 1 := by
  simp [alone, ExtTreeMap.size_insert]

theorem erase_alone (v : Variable) (x : Value) : (alone v x).erase v.slot = ∅ := by
  apply ExtTreeMap.ext_getElem?
  intro slot
  simp only [alone, ExtTreeMap.getElem?_erase, ExtTreeMap.getElem?_insert]
  split <;> simp

include hstarts in
theorem liveOnce_passes (round : Nat) :
    Trial.Passes [v] (liveOnce v round) ∅ 7 (Exactly () ∅) := by
  have hv : v ∈ [v] := List.mem_singleton_self v
  have hget := Does.get_of_none nested hv hstarts (by simp : (∅ : Holding)[v.slot]? = none)
  have hset : Does [v] (v.set (.int (round + 5))) (alone v (.int 0))
      (Exactly () (alone v (.int (round + 5)))) := by
    have h : Does [v] (v.set (.int (round + 5))) (alone v (.int 0)) _ := .set hv (hstarts.kind_int _)
    rwa [insert_alone] at h
  have hremove : Does [v] (v.remove nested) (alone v (.int (round + 5))) (Exactly () ∅) := by
    have h : Does [v] (v.remove nested) (alone v (.int (round + 5))) _ := .remove nested hv
    rwa [erase_alone] at h
  refine .checkedThen (.isSet hv) (by simp) ?_
  refine .checkedThen hget (by simp) ?_
  refine .checkedThen (.isSet hv) (contains_alone v _) ?_
  refine .done hset ?_
  refine .checkedThen (.get_of_some nested hv (getElem?_alone v _)) (by simp) ?_
  refine .checkedThen .liveCount (by simp [size_alone]) ?_
  refine .done hremove ?_
  refine .checkedThen (.isSet hv) (by simp) ?_
  exact .checked .liveCount (by simp)

include hstarts in
theorem liveOften_passes (round n : Nat) :
    Trial.Passes [v] (liveOften v round n) ∅ (7 * n) (Exactly () ∅) := by
  induction n generalizing round with
  | zero => exact .pure ⟨rfl, rfl⟩
  | succ n ih => exact (liveOnce_passes hstarts round).next (ih (round + 1))

end

/-! ## Values of several variables -/

/-- Each of the variables was set for the first time, and no other. -/
structure Adds (values : Holding) (vs : List Variable) (values' : Holding) : Prop where
  size : values'.size = values.size + vs.length
  mem : ∀ v ∈ vs, v.slot ∈ values'
  frame : ∀ slot, slot ∉ vs.map (·.slot) → values'[slot]? = values[slot]?

namespace Adds

variable {values values' : Holding} {v : Variable} {vs : List Variable}

theorem nil (values : Holding) : Adds values [] values := ⟨rfl, by simp, fun _ _ => rfl⟩

theorem cons (hv : values[v.slot]? = none) (hnot : v.slot ∉ vs.map (·.slot)) {x : Value}
    (h : Adds (values.insert v.slot (v, x)) vs values') : Adds values (v :: vs) values' where
  size := by
    have hcontains : values.contains v.slot = false := by
      rw [ExtTreeMap.contains_eq_isSome_getElem?, hv]
      rfl
    rw [h.size, ExtTreeMap.size_insert, hcontains, List.length_cons]
    simp only [Bool.false_eq_true, if_false]
    omega
  mem := by
    refine List.forall_mem_cons.2 ⟨?_, h.mem⟩
    rw [ExtTreeMap.mem_iff_isSome_getElem?, h.frame _ hnot, ExtTreeMap.getElem?_insert_self]
    rfl
  frame slot hslot := by
    rw [List.map_cons, List.mem_cons, not_or] at hslot
    rw [h.frame slot hslot.2, ExtTreeMap.getElem?_insert, if_neg]
    rw [Nat.compare_eq_eq]
    exact fun he => hslot.1 he.symm

end Adds

/-- The variables have slots of their own, in which nothing is set. -/
structure Unset (values : Holding) (vs : List Variable) : Prop where
  nodup : (vs.map (·.slot)).Nodup
  unset : ∀ v ∈ vs, values[v.slot]? = none

namespace Unset

variable {values : Holding} {v : Variable} {vs : List Variable}

theorem head (h : Unset values (v :: vs)) : values[v.slot]? = none :=
  h.unset v (List.mem_cons_self ..)

theorem notMem (h : Unset values (v :: vs)) : v.slot ∉ vs.map (·.slot) := (List.nodup_cons.1 h.nodup).1

theorem sublist {us : List Variable} (h : Unset values vs) (hs : us.Sublist vs) : Unset values us :=
  ⟨(hs.map _).nodup h.nodup, fun v hv => h.unset v (hs.subset hv)⟩

theorem tail (h : Unset values (v :: vs)) (x : Value) : Unset (values.insert v.slot (v, x)) vs where
  nodup := (List.nodup_cons.1 h.nodup).2
  unset u hu := by
    rw [ExtTreeMap.getElem?_insert, if_neg]
    · exact h.unset u (List.mem_cons_of_mem _ hu)
    · rw [Nat.compare_eq_eq]
      exact fun he => h.notMem (he ▸ List.mem_map_of_mem hu)

end Unset

section

variable {known : List Variable} {values : Holding} {vs : List Variable}

theorem touch_does {i j : Nat} {first : Nat → Int} (hknown : ∀ v ∈ vs, v ∈ known)
    (hfrom : StartFrom first j vs) (hunset : Unset values vs) :
    Does known (touch i vs) values fun _ values' => Adds values vs values' := by
  induction vs generalizing i j values with
  | nil => exact .pure (.nil values)
  | cons v vs ih =>
    obtain ⟨hv, hvs⟩ := List.forall_mem_cons.1 hknown
    obtain ⟨hstarts, hfrom⟩ := hfrom
    have hrest (x : Value) : Does known (touch (i + 1) vs) (values.insert v.slot (v, x))
        fun _ values' => Adds values (v :: vs) values' :=
      (ih hvs hfrom (hunset.tail x)).mono fun _ _ h => .cons hunset.head hunset.notMem h
    unfold touch
    split
    · exact (Does.set hv (hstarts.kind_int _)).next (hrest _)
    · exact (Does.get_of_none nested hv hstarts hunset.head).next (hrest _)

theorem checkUnset_passes (hknown : ∀ v ∈ vs, v ∈ known) :
    Trial.Passes known (checkUnset vs) ∅ vs.length (Exactly () ∅) := by
  induction vs with
  | nil => exact .pure ⟨rfl, rfl⟩
  | cons v vs ih =>
    obtain ⟨hv, hvs⟩ := List.forall_mem_cons.1 hknown
    exact .checkedThen (.isSet hv) (by simp) (ih hvs)

theorem checkInitial_passes {i : Nat} (hknown : ∀ v ∈ vs, v ∈ known)
    (hfrom : StartFrom (fun i => i) i vs) (hunset : Unset values vs) :
    Trial.Passes known (checkInitial i vs) values vs.length fun _ values' => Adds values vs values' := by
  induction vs generalizing i values with
  | nil => exact .pure (.nil values)
  | cons v vs ih =>
    obtain ⟨hv, hvs⟩ := List.forall_mem_cons.1 hknown
    obtain ⟨hstarts, hfrom⟩ := hfrom
    refine .checkedThen (.get_of_none nested hv hstarts hunset.head) (by simp) ?_
    exact (ih hvs hfrom (hunset.tail (.int i))).mono fun _ _ h => .cons hunset.head hunset.notMem h

/-! ## Growing a table -/

/-- Each variable has seven times its number, counted from `i`. -/
def Multiples (values : Holding) : Nat → List Variable → Prop
  | _, [] => True
  | i, v :: vs => values[v.slot]? = some (v, .int (i * 7)) ∧ Multiples values (i + 1) vs

theorem setMultiples_does {i j : Nat} {first : Nat → Int} (hknown : ∀ v ∈ vs, v ∈ known)
    (hfrom : StartFrom first j vs) (hunset : Unset values vs) :
    Does known (setMultiples i vs) values fun _ values' =>
      Adds values vs values' ∧ Multiples values' i vs := by
  induction vs generalizing i j values with
  | nil => exact .pure ⟨.nil values, trivial⟩
  | cons v vs ih =>
    obtain ⟨hv, hvs⟩ := List.forall_mem_cons.1 hknown
    obtain ⟨hstarts, hfrom⟩ := hfrom
    refine (Does.set hv (hstarts.kind_int (i * 7))).next ?_
    refine (ih hvs hfrom (hunset.tail _)).mono fun _ values' h => ?_
    refine ⟨.cons hunset.head hunset.notMem h.1, ?_, h.2⟩
    rw [h.1.frame _ hunset.notMem, ExtTreeMap.getElem?_insert_self]

theorem checkMultiples_passes {i : Nat} (hknown : ∀ v ∈ vs, v ∈ known) (h : Multiples values i vs) :
    Trial.Passes known (checkMultiples i vs) values vs.length (Exactly () values) := by
  induction vs generalizing i with
  | nil => exact .pure ⟨rfl, rfl⟩
  | cons v vs ih =>
    obtain ⟨hv, hvs⟩ := List.forall_mem_cons.1 hknown
    exact .checkedThen (.get_of_some nested hv h.1) (by simp) (ih hvs h.2)

/-! ## Bookkeeping -/

theorem setAndThin_does {round i j : Nat} {first : Nat → Int} (hknown : ∀ v ∈ vs, v ∈ known)
    (hfrom : StartFrom first j vs) :
    Does known (setAndThin round i vs) values fun _ _ => True := by
  induction vs generalizing i j values with
  | nil => exact .pure trivial
  | cons v vs ih =>
    obtain ⟨hv, hvs⟩ := List.forall_mem_cons.1 hknown
    obtain ⟨hstarts, hfrom⟩ := hfrom
    refine (Does.set hv (hstarts.kind_int round)).next ?_
    split
    · exact (Does.remove nested hv).next (ih hvs hfrom)
    · exact ih hvs hfrom

theorem countSet_does (hknown : ∀ v ∈ vs, v ∈ known) :
    Does known (countSet vs) values
      (Exactly (vs.filter fun v => values.contains v.slot).length values) := by
  induction vs with
  | nil => exact .pure ⟨rfl, rfl⟩
  | cons v vs ih =>
    obtain ⟨hv, hvs⟩ := List.forall_mem_cons.1 hknown
    refine (Does.isSet hv).next ((ih hvs).next (.pure ⟨?_, rfl⟩))
    rw [List.filter_cons]
    split
    · rw [List.length_cons, Nat.add_comm]
    · rw [Nat.zero_add]

/-- If every value is one of the variables', as many of them are set as there are values. -/
theorem length_filter_contains (hnodup : (vs.map (·.slot)).Nodup)
    (hmem : ∀ slot ∈ values, ∃ v ∈ vs, v.slot = slot) :
    (vs.filter fun v => values.contains v.slot).length = values.size := by
  have hperm : ((vs.filter fun v => values.contains v.slot).map (·.slot)).Perm values.keys := by
    rw [List.perm_ext_iff_of_nodup]
    · intro slot
      rw [ExtTreeMap.mem_keys, List.mem_map]
      constructor
      · rintro ⟨v, hv, rfl⟩
        exact (List.mem_filter.1 hv).2
      · intro hslot
        obtain ⟨v, hv, rfl⟩ := hmem slot hslot
        exact ⟨v, List.mem_filter.2 ⟨hv, hslot⟩, rfl⟩
    · exact (List.filter_sublist.map _).nodup hnodup
    · exact values.nodup_keys
  have hlength := hperm.length_eq
  rwa [List.length_map, ExtTreeMap.length_keys] at hlength

theorem countSet_exactly (hnodup : (vs.map (·.slot)).Nodup) :
    Does vs (countSet vs) values (Exactly values.size values) := by
  intro sc h
  have hcount := length_filter_contains hnodup fun slot hslot => h.slot_mem hslot
  rw [← hcount]
  exact countSet_does (fun _ => id) sc h

theorem thinOften_passes {first : Nat → Int} (hnodup : (vs.map (·.slot)).Nodup)
    (hfrom : StartFrom first 0 vs) (round n : Nat) :
    Trial.Passes vs (thinOften vs round n) values n fun _ _ => True := by
  induction n generalizing round values with
  | zero => exact .pure trivial
  | succ n ih =>
    refine (Trial.Passes.operate (setAndThin_does (fun _ => id) hfrom)).bind fun _ values' _ => ?_
    exact .done (countSet_exactly hnodup) (.checkedThen .liveCount (by simp) (ih (round + 1)))

/-! ## The order of slots -/

theorem checkIncreasing_passes (hslots : (vs.map (·.slot)).Pairwise (· < ·)) :
    Trial.Passes known (checkIncreasing vs) values (vs.length - 1) fun _ _ => True := by
  induction vs with
  | nil => exact .pure trivial
  | cons v vs ih =>
    cases vs with
    | nil => exact .pure trivial
    | cons w vs =>
      obtain ⟨hlt, hslots⟩ := List.pairwise_cons.1 hslots
      have hholds : decide (v.slot < w.slot) = true := by simpa using hlt w.slot (by simp)
      exact (Trial.Passes.check hholds _).next (ih hslots)

end

/-! ## Whole trials -/

/-- Variables as a trial makes them. -/
structure Fresh (first : Nat → Int) (n : Nat) (vs : List Variable) : Prop where
  length : vs.length = n
  starts : StartFrom first 0 vs
  slots : ∃ s, reservedSlot < s ∧ vs.map (·.slot) = List.range' s n

namespace Fresh

variable {first : Nat → Int} {n : Nat} {vs : List Variable}

theorem pairwise (h : Fresh first n vs) : (vs.map (·.slot)).Pairwise (· < ·) := by
  obtain ⟨s, -, hslots⟩ := h.slots
  rw [hslots]
  exact List.pairwise_lt_range'

theorem nodup (h : Fresh first n vs) : (vs.map (·.slot)).Nodup := h.pairwise.imp Nat.ne_of_lt

theorem unset (h : Fresh first n vs) : Unset ∅ vs := ⟨h.nodup, fun v _ => by simp⟩

/-- The last of `n` variables has at least the `n`-th slot. -/
theorem exists_le_slot (h : Fresh first (n + 1) vs) : ∃ v ∈ vs, n + 1 ≤ v.slot := by
  obtain ⟨s, hs, hslots⟩ := h.slots
  have hmem : s + n ∈ vs.map (·.slot) := by
    rw [hslots, List.mem_range'_1]
    omega
  obtain ⟨v, hv, hslot⟩ := List.mem_map.1 hmem
  have hreserved : reservedSlot = 0 := rfl
  exact ⟨v, hv, by omega⟩

end Fresh

/-- A trial that makes `n` variables first: on a thread that holds nothing it passes after so many
checks if there are slots for them, and is refused otherwise. -/
def Trial.Makes (x : Trial Unit) (n checks : Nat) : Prop :=
  ∀ sc : Scene, sc.Holds [] ∅ →
    (n ≤ sc.process.supply.left → ∃ vs values sc', runOn x.verdict sc = (.ok (.ok checks), sc') ∧
      sc'.Holds vs values ∧ sc.process.Makes vs sc'.process ∧ vs.length = n) ∧
    (sc.process.supply.left < n → ∃ vs sc',
      runOn x.verdict sc = (.error (.refused SlotSupply.exhausted), sc') ∧
        sc'.Holds vs ∅ ∧ sc.process.Makes vs sc'.process)

/-- Variables that were made are known to the thread, which holds none of them yet. -/
theorem holds_made {sc : Scene} (h : sc.Holds [] ∅) {vs : List Variable} {p : Process}
    (hmakes : sc.process.Makes vs p) (hhook : ∀ v ∈ vs, v.onRemoval = none) :
    { sc with process := p }.Holds vs ∅ := by
  have hown : { sc with process := p }.own? = sc.own? := by
    unfold Scene.own?
    rw [hmakes.epoch]
  refine ⟨hmakes.sound, hmakes.knows, hhook, by simp, h.intact, fun id hid => ?_, fun _ => rfl⟩
  have hkeeps := h.own id (hown ▸ hid)
  exact ⟨hkeeps.mirrors.mono hmakes.keeps, hkeeps.reach⟩

theorem StartFrom.hookless {first : Nat → Int} {i : Nat} {vs : List Variable}
    (h : StartFrom first i vs) : ∀ v ∈ vs, v.onRemoval = none := by
  induction vs generalizing i with
  | nil => exact List.forall_mem_nil _
  | cons v vs ih => exact List.forall_mem_cons.2 ⟨h.1.hook, ih h.2⟩

theorem Trial.Makes.of_passes {α : Type} {x : Storage α} {made : α → List Variable} {first : Nat → Int}
    {n checks : Nat} {body : α → Trial Unit} (hx : Supplies x made first 0 n)
    (hbody : ∀ a, Fresh first n (made a) → Passes (made a) (body a) ∅ checks fun _ _ => True) :
    Makes (operate x >>= body) n checks := by
  intro sc h
  constructor
  · intro hleft
    obtain ⟨a, p, hrun, hmakes, hlength, hfrom⟩ := hx.supplied sc h.sound hleft
    have hfresh : Fresh first n (made a) :=
      ⟨hlength, hfrom, _, h.sound.supply, hlength ▸ hmakes.slots⟩
    obtain ⟨values, sc', hverdict, h', hs⟩ :=
      (hbody a hfresh).verdict (holds_made h hmakes hfrom.hookless)
    refine ⟨made a, values, sc', ?_, h', hmakes.steady hs, hlength⟩
    rw [runOn_verdict_of_ok hrun, hverdict]
  · intro hleft
    obtain ⟨vs, p, hrun, hmakes, hfrom⟩ := hx.refused sc h.sound hleft
    exact ⟨vs, _, runOn_verdict_of_error hrun, holds_made h hmakes hfrom.hookless, hmakes⟩

theorem lifecycleTrial_makes (size : ScenarioSize) :
    (lifecycleTrial size).Makes 1 (7 * size.iterations) :=
  .of_passes (supplies_makeVariable (fun _ => 0) 0) fun _ hfresh =>
    (liveOften_passes hfresh.starts.1 0 size.iterations).mono fun _ _ _ => trivial

theorem removeAllTrial_makes : removeAllTrial.Makes 12 19 := by
  refine .of_passes (supplies_makeVariables (fun i => i) 0 12) fun vs hfresh => ?_
  have hlength : vs.length = 12 := hfresh.length
  have htouch : Does vs (touch 0 (vs.take 8)) ∅ fun _ values => Adds ∅ (vs.take 8) values :=
    touch_does (fun _ => List.mem_of_mem_take) (hfresh.starts.take 8)
      (hfresh.unset.sublist (List.take_sublist 8 vs))
  have hunset : Trial.Passes vs (checkUnset vs) ∅ 12 (Exactly () ∅) :=
    hlength ▸ checkUnset_passes fun _ => id
  have hinitial : Trial.Passes vs (checkInitial 8 (vs.drop 8)) ∅ 4 fun _ values =>
      Adds ∅ (vs.drop 8) values := by
    have hdrop : (vs.drop 8).length = 4 := by rw [List.length_drop, hlength]
    rw [← hdrop]
    exact checkInitial_passes (fun _ => List.mem_of_mem_drop) (hfresh.starts.drop 8)
      (hfresh.unset.sublist (List.drop_sublist 8 vs))
  refine (Trial.Passes.operate htouch).bind fun _ values hadds => ?_
  refine .checkedThen .liveCount (by simp [hadds.size, hlength]) ?_
  refine .done (.clearThread nested) ?_
  refine .checkedThen .liveCount (by simp) ?_
  refine hunset.next (hinitial.bind fun _ values' hadds' => ?_)
  exact (Trial.Passes.checked .liveCount (by simp [hadds'.size])).mono fun _ _ _ => trivial

theorem growthTrial_makes : growthTrial.Makes 41 43 := by
  refine .of_passes (supplies_makeVariables (fun _ => 0) 0 41) fun vs hfresh => ?_
  have hlength : vs.length = 41 := hfresh.length
  have hset := setMultiples_does (i := 0) (fun _ => id) hfresh.starts hfresh.unset
  refine (Trial.Passes.operate hset).bind fun _ values ⟨hadds, hmultiples⟩ => ?_
  refine (Trial.Passes.operate Does.table).bind fun t _ ⟨hvalues, hreach⟩ => ?_
  subst hvalues
  -- The last variable lies beyond the capacity that every table starts with.
  have hgrown : decide (initialCapacity < t.capacity) = true := by
    obtain ⟨v, hv, hslot⟩ := hfresh.exists_le_slot
    have hlt := hreach v.slot (hadds.mem v hv)
    have hinitial : initialCapacity = 32 := rfl
    exact decide_eq_true (by omega)
  refine (Trial.Passes.check hgrown _).next ?_
  have hread : Trial.Passes vs (checkMultiples 0 vs) _ 41 _ :=
    hlength ▸ checkMultiples_passes (fun _ => id) hmultiples
  refine hread.next ?_
  exact (Trial.Passes.checked .liveCount (by simp [hadds.size, hlength, initialCapacity])).mono
    fun _ _ _ => trivial

theorem boundedBookkeepingTrial_makes (size : ScenarioSize) :
    (boundedBookkeepingTrial size).Makes 16 size.iterations :=
  .of_passes (supplies_makeVariables (fun _ => 0) 0 16) fun _ hfresh =>
    thinOften_passes hfresh.nodup hfresh.starts 0 size.iterations

theorem allocationOrderTrial_makes (size : ScenarioSize) :
    (allocationOrderTrial size).Makes (max size.population 2) (max size.population 2 - 1) := by
  refine .of_passes (supplies_makeVariables (fun _ => 0) 0 _) fun vs hfresh => ?_
  rw [← hfresh.length]
  exact checkIncreasing_passes hfresh.pairwise

end Scenario

end ThreadSlots
