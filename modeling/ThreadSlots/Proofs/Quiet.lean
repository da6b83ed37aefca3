import ThreadSlots.Proofs.Modular

/-!
# Actions that leave stored values alone

An action is `Quiet` if whatever it changes, on success or not, is an `Aside`. That is a `Modular`
property, which also what is done with the handles and the declaration of variables have.
-/

namespace ThreadSlots

open Std (ExtTreeMap)
open Storage

/-! ## Asides -/

namespace Aside

variable {sc sc' sc'' : Scene}

theorem refl (sc : Scene) : Aside sc sc := ⟨.refl _, rfl, rfl, rfl, rfl, rfl, rfl, rfl, rfl⟩

theorem trans (h : Aside sc sc') (h' : Aside sc' sc'') : Aside sc sc'' where
  process := h.process.trans h'.process
  tables := h'.tables.trans h.tables
  nextTable := h'.nextTable.trans h.nextTable
  locals := h'.locals.trans h.locals
  interrupted := h'.interrupted.trans h.interrupted
  filled := h'.filled.trans h.filled
  partings := h'.partings.trans h.partings
  arrivals := h'.arrivals.trans h.arrivals
  calls := h'.calls.trans h.calls

/-- Thread-locals were used for the first time. -/
theorem of_seen {l : Locals} (h : l.seen = sc.thread.locals.seen) : Aside sc (sc.setLocals l) :=
  ⟨.refl _, rfl, rfl, h, rfl, rfl, rfl, rfl, rfl⟩

/-- Only the process changed, and it kept its variables. -/
theorem of_process {p : Process} (h : sc.process.Grows p) : Aside sc { sc with process := p } :=
  ⟨h, rfl, rfl, rfl, rfl, rfl, rfl, rfl, rfl⟩

end Aside

theorem Scene.Like.aside {sc sc' : Scene} (h : sc.Like sc') : Aside sc sc' where
  process := .of_eq (congrArg (·.process.register) h).symm
  tables := (congrArg (·.thread.tables) h).symm
  nextTable := (congrArg (·.thread.nextTable) h).symm
  locals := (congrArg (·.thread.locals.seen) h).symm
  interrupted := (congrArg (·.thread.interrupted) h).symm
  filled := (congrArg (·.thread.filled) h).symm
  partings := (congrArg (·.partings) h).symm
  arrivals := (congrArg (·.arrivals) h).symm
  calls := congrArg hookCalls (congrArg (·.events) h).symm

theorem SlotSupply.next_le_takeMany (s : SlotSupply) (n : Nat) :
    s.next ≤ (s.takeMany n).2.next ∧ (s.takeMany n).2.first = s.first := by
  induction n generalizing s with
  | zero => exact ⟨Nat.le_refl _, rfl⟩
  | succ n ih =>
    have htake : s.next ≤ s.take.2.next ∧ s.take.2.first = s.first := by
      unfold take
      split
      · exact ⟨Nat.le_succ _, rfl⟩
      · exact ⟨Nat.le_refl _, rfl⟩
    obtain ⟨hle, hfirst⟩ := ih s.take.2
    exact ⟨Nat.le_trans htake.1 hle, hfirst.trans htake.2⟩

/-- A variable is made, with the next slot. -/
theorem Process.Sound.enroll {p : Process} (hp : p.Sound) {v : Variable}
    (hv : v.slot = p.supply.next) (hslot : p.supply.next ≤ maxSlot) :
    Process.Sound { p with
      supply := { p.supply with next := p.supply.next + 1 }
      tally := p.tally.increment .variablesRegistered
      bySlot := p.bySlot.insert p.supply.next v } ∧
      ∀ u, p.Knows u → (p.bySlot.insert p.supply.next v)[u.slot]? = some u := by
  have hnew : p.bySlot[p.supply.next]? = none := by
    refine Option.eq_none_iff_forall_ne_some.2 fun u hu => ?_
    exact Nat.lt_irrefl _ (hp.bySlot _ u hu).2.2.2
  refine ⟨⟨fun slot u hu => ?_, Nat.lt_succ_of_lt hp.supply, hp.first, ?_, ?_⟩, fun u hu => ?_⟩
  · replace hu : (p.bySlot.insert p.supply.next v)[slot]? = some u := hu
    rw [ExtTreeMap.getElem?_insert] at hu
    split at hu
    · next he =>
      cases hu
      obtain rfl : p.supply.next = slot := by simpa using he
      exact ⟨hv, Nat.ne_of_gt hp.supply, hslot, Nat.lt_succ_self _⟩
    · obtain ⟨hvs, hne, hle, hlt⟩ := hp.bySlot slot u hu
      exact ⟨hvs, hne, hle, Nat.lt_succ_of_lt hlt⟩
  · show (p.bySlot.insert p.supply.next v).size = p.tally.variablesRegistered + 1
    have hcontains : p.bySlot.contains p.supply.next = false := by
      rw [ExtTreeMap.contains_eq_isSome_getElem?, hnew]
      rfl
    rw [ExtTreeMap.size_insert, hcontains, hp.registered]
    rfl
  · show p.supply.next + 1 - p.supply.first = p.tally.variablesRegistered + 1 + p.burned
    have htaken := hp.taken
    have hpos := hp.supply
    have hfirst := hp.first
    unfold SlotSupply.taken at htaken
    unfold reservedSlot at hpos
    omega
  · have hlt := (hp.bySlot _ u hu).2.2.2
    rw [ExtTreeMap.getElem?_insert, if_neg (by simpa using Nat.ne_of_gt hlt)]
    exact hu

/-- The process once a variable with the next slot and the next handle was made. -/
def Process.enrolled (p : Process) (v : Variable) : Process :=
  { p with
    supply := { p.supply with next := p.supply.next + 1 }
    tally := p.tally.increment .variablesRegistered
    bySlot := p.bySlot.insert p.supply.next v
    byHandle := p.byHandle.insert p.nextHandle p.supply.next
    nextHandle := p.nextHandle + 1 }

namespace Process.Grows

/-- The next handle is taken, and may be bound to a variable that there is. -/
theorem handle {p : Process} {byHandle : ExtTreeMap Nat Nat}
    (hbound : p.Sound → ∀ handle slot, byHandle[handle]? = some slot →
      p.byHandle[handle]? = some slot ∨ handle = p.nextHandle ∧ ∃ v, p.bySlot[slot]? = some v) :
    p.Grows { p with byHandle := byHandle, nextHandle := p.nextHandle + 1 } := by
  refine fun hp => ⟨⟨hp.bySlot, hp.supply, hp.first, hp.registered, hp.taken⟩, fun _ => id,
    fun hhandled => ⟨hhandled.own, fun slot v hv => Nat.lt_succ_of_lt (hhandled.made slot v hv),
      fun handle slot hmem => ?_⟩, Nat.le_succ _, fun handle slot hlt hmem => ?_⟩
  · rcases hbound hp handle slot hmem with hold | ⟨rfl, v, hv⟩
    · obtain ⟨hlt, hv⟩ := hhandled.bound handle slot hold
      exact ⟨Nat.lt_succ_of_lt hlt, hv⟩
    · exact ⟨Nat.lt_succ_self _, v, hv, Nat.le_of_lt (hhandled.made slot v hv)⟩
  · rcases hbound hp handle slot hmem with hold | ⟨rfl, -⟩
    · exact hold
    · exact absurd hlt (Nat.lt_irrefl _)

/-- A variable is made to stand behind one more handle. -/
theorem copied {p : Process} {handle : Nat} {v : Variable}
    (hv : p.byHandle[handle]?.bind (p.bySlot[·]?) = some v) :
    p.Grows { p with
      byHandle := p.byHandle.insert p.nextHandle v.slot
      nextHandle := p.nextHandle + 1 } := by
  refine .handle fun hp other slot hbound => ?_
  rw [ExtTreeMap.getElem?_insert] at hbound
  split at hbound
  · next he =>
    cases hbound
    obtain ⟨slot, -, hslot⟩ := Option.bind_eq_some_iff.1 hv
    have he : p.nextHandle = other := by simpa using he
    exact .inr ⟨he.symm, v, by rwa [(hp.bySlot slot v hslot).1]⟩
  · exact .inl hbound

/-- A handle is given up. -/
theorem unbind (p : Process) (handle : Nat) :
    p.Grows { p with byHandle := p.byHandle.erase handle } := by
  have hold : ∀ h slot : Nat, (p.byHandle.erase handle)[h]? = some slot → p.byHandle[h]? = some slot := by
    intro h slot hbound
    rw [ExtTreeMap.getElem?_erase] at hbound
    split at hbound
    · cases hbound
    · exact hbound
  refine fun hp => ⟨⟨hp.bySlot, hp.supply, hp.first, hp.registered, hp.taken⟩, fun _ => id,
    fun hhandled => ⟨hhandled.own, hhandled.made, fun h slot hbound => ?_⟩, Nat.le_refl _,
    fun h slot _ hbound => hold h slot hbound⟩
  exact hhandled.bound h slot (hold h slot hbound)

/-- A variable is made, with the next slot and the next handle. -/
theorem enrolled {p : Process} {v : Variable} (hv : v.slot = p.supply.next)
    (hhandle : v.handle = p.nextHandle) (hslot : p.supply.next ≤ maxSlot) :
    p.Grows (p.enrolled v) := by
  intro hp
  obtain ⟨hs, hknows⟩ := hp.enroll hv hslot
  have hmade : ∀ (slot : Nat) (u : Variable), (p.enrolled v).bySlot[slot]? = some u →
      u = v ∨ p.bySlot[slot]? = some u := by
    intro slot u hu
    replace hu : (p.bySlot.insert p.supply.next v)[slot]? = some u := hu
    rw [ExtTreeMap.getElem?_insert] at hu
    split at hu
    · exact .inl (Option.some.inj hu).symm
    · exact .inr hu
  have hnext : (p.enrolled v).nextHandle = p.nextHandle + 1 := rfl
  refine ⟨⟨hs.bySlot, hs.supply, hs.first, hs.registered, hs.taken⟩, hknows,
    fun hhandled => ⟨fun a b ha hb he => ?_, fun slot u hu => ?_, fun handle slot hbound => ?_⟩,
    Nat.le_succ _, fun handle slot hlt hbound => ?_⟩
  · rcases hmade _ a ha with rfl | holda <;> rcases hmade _ b hb with rfl | holdb
    · rfl
    · have := hhandled.made _ b holdb
      omega
    · have := hhandled.made _ a holda
      omega
    · exact hhandled.own a b holda holdb he
  · rw [hnext]
    rcases hmade slot u hu with rfl | hu
    · omega
    · exact Nat.lt_succ_of_lt (hhandled.made slot u hu)
  · replace hbound : (p.byHandle.insert p.nextHandle p.supply.next)[handle]? = some slot := hbound
    rw [ExtTreeMap.getElem?_insert] at hbound
    split at hbound
    · next he =>
      obtain rfl : p.nextHandle = handle := by simpa using he
      cases hbound
      exact ⟨Nat.lt_succ_self _, v, ExtTreeMap.getElem?_insert_self, Nat.le_of_eq hhandle⟩
    · obtain ⟨hlt, u, hu, hle⟩ := hhandled.bound handle slot hbound
      have hknown : p.Knows u := by rwa [Knows, (hp.bySlot slot u hu).1]
      refine ⟨Nat.lt_succ_of_lt hlt, u, ?_, hle⟩
      rw [← (hp.bySlot slot u hu).1]
      exact hknows u hknown
  · replace hbound : (p.byHandle.insert p.nextHandle p.supply.next)[handle]? = some slot := hbound
    rwa [ExtTreeMap.getElem?_insert, if_neg (by simpa using Nat.ne_of_gt hlt)] at hbound

/-- Slots are taken for no variable. -/
theorem burn (p : Process) (n : Nat) :
    p.Grows { p with
      supply := (p.supply.takeLast n).2
      burned := p.burned + ((p.supply.takeLast n).2.taken - p.supply.taken) } := by
  intro hp
  obtain ⟨hle, hfirst⟩ := p.supply.next_le_takeMany n
  refine ⟨⟨fun slot v hv => ?_, Nat.lt_of_lt_of_le hp.supply hle, hfirst.trans hp.first,
    hp.registered, ?_⟩, fun _ => id, fun hhandled => ⟨hhandled.own, hhandled.made, hhandled.bound⟩,
    Nat.le_refl _, fun _ _ _ => id⟩
  · obtain ⟨hvs, hne, hmax, hlt⟩ := hp.bySlot slot v hv
    exact ⟨hvs, hne, hmax, Nat.lt_of_lt_of_le hlt hle⟩
  · have htaken := hp.taken
    unfold SlotSupply.takeLast SlotSupply.taken at *
    dsimp only at *
    omega

end Process.Grows

/-! ## New variables -/

theorem runOn_declare (kind : Kind) (initial : Initializer) (hook : Option Hook) (sc : Scene) :
    runOn (declare kind initial hook) sc =
      if sc.process.supply.next ≤ maxSlot then
        (.ok (sc.process.nextHandle, sc.process.supply.next),
          { sc with
            process := sc.process.enrolled
              { slot := sc.process.supply.next
                handle := sc.process.nextHandle
                kind, initial
                onRemoval := hook } })
      else
        (.error (.refused SlotSupply.exhausted),
          { sc with process := { sc.process with nextHandle := sc.process.nextHandle + 1 } }) := by
  unfold declare takeHandle enroll takeSlot SlotSupply.take
  by_cases hslot : sc.process.supply.next ≤ maxSlot
  · simp only [runOn_bind, runOn_process, runOn_modifyProcess, runOn_pure, hslot, if_true,
      runOn_ofExcept, runOn_count, bindHandle]
    rfl
  · simp only [runOn_bind, runOn_process, runOn_modifyProcess, runOn_pure, hslot, if_false,
      runOn_ofExcept]

theorem runOn_duplicate (enter : Enter) (handle : Nat) (sc : Scene) :
    runOn (Command.run enter (.duplicate handle)) sc =
      match sc.process.byHandle[handle]?.bind (sc.process.bySlot[·]?) with
      | none => (.ok .noVariable, sc)
      | some v => (.ok (.handle sc.process.nextHandle),
          { sc with process := { sc.process with
              byHandle := sc.process.byHandle.insert sc.process.nextHandle v.slot
              nextHandle := sc.process.nextHandle + 1 } }) := by
  have hlookup : runOn (lookup handle) sc =
      (.ok (sc.process.byHandle[handle]?.bind (sc.process.bySlot[·]?)), sc) := rfl
  unfold Command.run
  rw [runOn_bind, hlookup]
  rcases sc.process.byHandle[handle]?.bind (sc.process.bySlot[·]?) with _ | v
  · rfl
  · simp only [runOn_bind, takeHandle, bindHandle, runOn_process, runOn_modifyProcess, runOn_pure]

/-! ## Quiet actions -/

/-- Whatever the action changes is an aside. -/
def Quiet {α : Type} (x : Storage α) : Prop := ∀ sc, Aside sc (runOn x sc).2

namespace Quiet

theorem modifyProcess {f : Process → Process} (h : ∀ p : Process, p.Grows (f p)) :
    Quiet (Storage.modifyProcess f) :=
  fun sc => .of_process (h sc.process)

/-- What is seen is no call of a hook. -/
theorem emit {e : Event} (he : hookCalls [e] = []) : Quiet (Storage.emit e) := by
  refine fun sc => ⟨.refl _, rfl, rfl, rfl, rfl, rfl, rfl, rfl, ?_⟩
  show hookCalls ([e] ++ sc.events) = hookCalls sc.events
  unfold hookCalls at *
  rw [List.filterMap_append, he]
  rfl

theorem modular : Modular Quiet where
  bind_of {_ _ Q x f} hx hQ hf := by
    intro sc
    rw [runOn_bind]
    have h := hx sc
    rcases hr : runOn x sc with ⟨stop | a, sc'⟩
    · rw [hr] at h
      exact h
    · rw [hr] at h
      exact h.trans (hf a (hQ _ _ _ hr) sc')
  like h sc := (h sc).aside
  initialized := emit rfl
  initializerPanicked := emit rfl
  modifyProcess h := modifyProcess fun p => .of_eq (congrArg (·.1) (h p))
  modifyThread {f} h sc := by
    have hlasting := h sc.thread
    simp only [Thread.lasting, Prod.mk.injEq] at hlasting
    obtain ⟨htables, hnext, hlocals, hinterrupted, hfilled⟩ := hlasting
    exact ⟨.refl _, htables, hnext, hlocals, hinterrupted, hfilled, rfl, rfl, rfl⟩

/-! ## Variables and their handles -/

theorem declare (kind : Kind) (initial : Initializer) (hook : Option Hook) :
    Quiet (ThreadSlots.declare kind initial hook) := by
  intro sc
  rw [runOn_declare]
  split
  · next hslot => exact .of_process (.enrolled rfl rfl hslot)
  · exact .of_process (.handle fun _ _ _ => .inl)

theorem duplicate (enter : Enter) (handle : Nat) :
    Quiet (Command.run enter (.duplicate handle)) := by
  intro sc
  rw [runOn_duplicate]
  split
  · exact .refl sc
  · next v hv => exact .of_process (.copied hv)

theorem drop (enter : Enter) (handle : Nat) : Quiet (Command.run enter (.drop handle)) :=
  modular.drop enter (modifyProcess fun p => .unbind p handle)

/-! ## The process -/

theorem destroyFallbacks : Quiet Storage.destroyFallbacks :=
  modular.bind (modifyProcess fun _ => .of_eq rfl) fun _ => modifyProcess fun _ => .of_eq rfl

theorem burn (n : Nat) : Quiet (ProcessCommand.run (.burn n)) := by
  intro sc
  have hmoved := Aside.of_process (Process.Grows.burn sc.process n)
  simp only [ProcessCommand.run, runOn_bind, runOn_process, runOn_modifyProcess]
  cases (sc.process.supply.takeLast n).1 with
  | none => exact hmoved
  | some answer => exact hmoved.trans (modular.map (modular.ofExcept answer) _)

end Quiet

end ThreadSlots
