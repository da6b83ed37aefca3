import ThreadSlots.Proofs.Agreement
import ThreadSlots.Proofs.Contention

/-!
# Every variable has a slot of its own

However many threads take slots from a supply at the same time, the supply hands out each index once
(`Contention.Reached.facts`), and a variable is made with the index that it is handed. So in every
session, also while nested code runs, two handles stand for the same slot only if they stand for the
same variable, and no variable has the reserved slot (`Session.slots_unique`). The number of
variables that were made is the number of slots that were taken less those that were burned, for
slots can be taken without making a variable.
-/

namespace ThreadSlots

open Storage

/-! ## What a process registers -/

/-- The variable that a handle stands for. -/
def Process.resolve? (p : Process) (handle : Nat) : Option Variable :=
  p.byHandle[handle]?.bind (p.bySlot[·]?)

theorem Storage.runOn_lookup (handle : Nat) (sc : Scene) :
    runOn (lookup handle) sc = (.ok (sc.process.resolve? handle), sc) :=
  rfl

/-- Each variable has a slot and a handle of its own. The other handles that stand for it came
later. -/
structure Process.Registered (p : Process) : Prop where
  slot : ∀ v, p.Knows v → reservedSlot < v.slot ∧ v.slot ≤ maxSlot
  own : ∀ u v, p.Knows u → p.Knows v → u.slot = v.slot ∨ u.handle = v.handle → u = v
  handle : ∀ handle v, p.resolve? handle = some v → p.Knows v ∧ v.handle ≤ handle
  registered : p.bySlot.size = p.tally.variablesRegistered
  taken : p.supply.taken = p.tally.variablesRegistered + p.burned

/-- The variables are still there, and a handle stands for the same variable unless it was given
up. -/
structure Process.Remembers (p p' : Process) : Prop where
  knows : ∀ v, p.Knows v → p'.Knows v
  handle : ∀ handle v, p.resolve? handle = some v →
    p'.resolve? handle = none ∨ p'.resolve? handle = some v

namespace Process

variable {p : Process}

theorem Sound.resolve?_eq_some (hp : p.Sound) {handle : Nat} {v : Variable} :
    p.resolve? handle = some v ↔ p.byHandle[handle]? = some v.slot ∧ p.Knows v := by
  unfold resolve?
  rw [Option.bind_eq_some_iff]
  constructor
  · rintro ⟨slot, hslot, hv⟩
    obtain ⟨rfl, -⟩ := hp.bySlot slot v hv
    exact ⟨hslot, hv⟩
  · exact fun ⟨hslot, hv⟩ => ⟨v.slot, hslot, hv⟩

theorem Registered.of_handled (hp : p.Sound) (hhandled : p.Handled) : p.Registered where
  slot v hv := by
    obtain ⟨-, hne, hle, -⟩ := hp.bySlot _ v hv
    exact ⟨Nat.pos_of_ne_zero hne, hle⟩
  own u v hu hv := by
    rintro (hslot | hhandle)
    · unfold Knows at hu hv
      rw [hslot, hv] at hu
      exact (Option.some.inj hu).symm
    · exact hhandled.own u v hu hv hhandle
  handle handle v hhandle := by
    obtain ⟨hslot, hv⟩ := hp.resolve?_eq_some.1 hhandle
    obtain ⟨-, u, hu, hle⟩ := hhandled.bound handle v.slot hslot
    obtain rfl : u = v := Option.some.inj (hu.symm.trans hv)
    exact ⟨hv, hle⟩
  registered := hp.registered
  taken := hp.taken

/-- A bound handle has been handed out. -/
theorem Sound.lt_of_resolve? (hp : p.Sound) (hhandled : p.Handled) {handle : Nat} {v : Variable}
    (hv : p.resolve? handle = some v) : handle < p.nextHandle :=
  (hhandled.bound handle v.slot (hp.resolve?_eq_some.1 hv).1).1

/-- What grows remembers. -/
theorem Grows.remembers {p' : Process} (h : p.Grows p') (hp : p.Sound) (hhandled : p.Handled) :
    p.Remembers p' where
  knows := (h hp).2.knows
  handle handle v hv := by
    obtain ⟨hp', hlater⟩ := h hp
    refine or_iff_not_imp_left.2 fun hne => ?_
    obtain ⟨u, hu⟩ := Option.ne_none_iff_exists'.1 hne
    obtain ⟨hslot, hknown⟩ := hp'.resolve?_eq_some.1 hu
    -- the handle was bound to the same slot before, which still is the slot of the same variable
    have hold := hlater.bound handle u.slot (hp.lt_of_resolve? hhandled hv) hslot
    obtain ⟨hbound, hv⟩ := hp.resolve?_eq_some.1 hv
    have hslots : u.slot = v.slot := Option.some.inj (hold.symm.trans hbound)
    have hknown' := hlater.knows v hv
    unfold Knows at hknown hknown'
    rw [hslots, hknown'] at hknown
    rw [hu, hknown]

end Process

/-! ## New variables and new handles -/

/-- A variable is made with a slot and a handle that no variable has. -/
theorem declare_new {sc : Scene} (hp : sc.process.Sound) (hhandled : sc.process.Handled)
    {kind : Kind} {initial : Initializer} {hook : Option Hook} {handle slot : Nat} {sc' : Scene}
    (h : runOn (declare kind initial hook) sc = (.ok (handle, slot), sc')) :
    sc.process.resolve? handle = none ∧
      (∀ u, sc.process.Knows u → u.slot ≠ slot ∧ u.handle ≠ handle) ∧
      ∃ v, sc'.process.resolve? handle = some v ∧ v.slot = slot ∧ v.handle = handle := by
  rw [runOn_declare] at h
  split at h
  · cases h
    let v : Variable :=
      { slot := sc.process.supply.next
        handle := sc.process.nextHandle
        kind, initial
        onRemoval := hook }
    refine ⟨?_, fun u hu => ⟨?_, ?_⟩, v, ?_, rfl, rfl⟩
    · exact Option.eq_none_iff_forall_ne_some.2 fun u hu =>
        Nat.lt_irrefl _ (hp.lt_of_resolve? hhandled hu)
    · exact Nat.ne_of_lt (hp.bySlot _ u hu).2.2.2
    · exact Nat.ne_of_lt (hhandled.made _ u hu)
    · simp [v, Process.resolve?, Process.enrolled]
  · cases h

/-- A copy of a handle stands for the same variable. -/
theorem duplicate_new {sc : Scene} (hp : sc.process.Sound) (hhandled : sc.process.Handled)
    (enter : Enter) {handle : Nat} {v : Variable} (hv : sc.process.resolve? handle = some v) :
    ∃ copy sc', runOn (Command.run enter (.duplicate handle)) sc = (.ok (.handle copy), sc') ∧
      sc.process.resolve? copy = none ∧ sc'.process.resolve? copy = some v := by
  have hrun := runOn_duplicate enter handle sc
  have hlookup : sc.process.byHandle[handle]?.bind (sc.process.bySlot[·]?) = some v := hv
  simp only [hlookup] at hrun
  refine ⟨_, _, hrun, ?_, ?_⟩
  · exact Option.eq_none_iff_forall_ne_some.2 fun u hu =>
      Nat.lt_irrefl _ (hp.lt_of_resolve? hhandled hu)
  · have hknown : sc.process.Knows v := (hp.resolve?_eq_some.1 hv).2
    unfold Process.Knows at hknown
    simp [Process.resolve?, hknown]

/-! ## Sessions -/

namespace Session

variable {s : Session}

theorem handled_start (environment : Environment) (depth : Nat) :
    (start environment depth).process.Handled where
  own u v hu := by simp [Process.Knows, start] at hu
  made slot v hv := by simp [start] at hv
  bound handle slot hbound := by simp [start] at hbound

/-- **Slot indices are unique for the life of the process.** Threads that take indices from one
supply, in whatever order their steps come, are handed `first`, `first + 1` and so on up to the
largest slot, each once, and are refused from then on. At every point of every run each variable has
a slot of its own, which is not the reserved one, so handles with one slot are copies of one handle;
and the indices that were taken are those of the variables and those that were burned. -/
theorem slots_unique :
    (∀ (T : Type) [DecidableEq T] (first : Nat) (c : Contention T),
      first + 1 < UInt64.size →
      c.Reached first →
      c.answers.map (·.2) = (List.range' first c.answers.length).map SlotSupply.answerAt ∧
        c.slots = List.range' first c.supply.taken ∧ (∀ slot ∈ c.slots, slot ≤ maxSlot) ∧
        c.supply.taken = c.slots.length ∧ c.supply.last? = c.slots.getLast? ∧
        c.supply.next < UInt64.size) ∧
    ∀ (environment : Environment) (depth : Nat) (steps : List Step),
      let s := ((start environment depth).run steps).2
      s.process.Registered ∧ (∀ more, s.process.Remembers (s.run more).2.process) ∧
        ∀ a ∈ s.actors, ∀ busy sc, Course busy { process := s.process, thread := a.thread } sc →
          sc.process.Registered ∧
          (∀ busy' sc', Course busy' sc sc' → sc.process.Remembers sc'.process) ∧
          (∀ kind initial hook handle slot sc',
            runOn (declare kind initial hook) sc = (.ok (handle, slot), sc') →
            sc.process.resolve? handle = none ∧
              (∀ u, sc.process.Knows u → u.slot ≠ slot ∧ u.handle ≠ handle) ∧
              ∃ v, sc'.process.resolve? handle = some v ∧ v.slot = slot ∧ v.handle = handle) ∧
          ∀ enter handle v, sc.process.resolve? handle = some v →
            ∃ copy sc', runOn (Command.run enter (.duplicate handle)) sc =
                (.ok (.handle copy), sc') ∧
              sc.process.resolve? copy = none ∧ sc'.process.resolve? copy = some v := by
  refine ⟨fun T _ first c hfirst h => h.facts hfirst, fun environment depth steps => ?_⟩
  intro s
  have hs₀ := sound_start environment depth
  obtain ⟨hgrows, hs⟩ : (start environment depth).process.Grows s.process ∧ s.Sound :=
    hs₀.grows_run steps
  have hhandled : s.process.Handled :=
    (hgrows hs₀.process).2.handled (handled_start environment depth)
  refine ⟨.of_handled hs.process hhandled,
    fun more => (hs.grows_run more).1.remembers hs.process hhandled, fun a ha busy sc h => ?_⟩
  have hsc : sc.Sound := h.sound ⟨hs.process, hs.threads a ha⟩
  have hsc' : sc.process.Handled := (h.grows hs.process).2.handled hhandled
  exact ⟨.of_handled hsc.process hsc', fun _ _ h' => h'.grows.remembers hsc.process hsc',
    fun _ _ _ _ _ _ hrun => declare_new hsc.process hsc' hrun,
    fun enter _ _ hv => duplicate_new hsc.process hsc' enter hv⟩

/-- A variable that is copied, another one, and an index that is taken for none. -/
def copiedHandle : List Step :=
  [.run "main" (.declare .int (.plain .int) none), .run "main" (.duplicate 0),
    .run "main" (.declare .text (.plain .text) none), .run "main" (.onProcess (.burn 1))]

/-- Two threads race for the largest slot: one gets it, and the other one is refused. -/
theorem slots_unique_copiedHandle :
    (∃ c : Contention Bool, c.Reached maxSlot ∧
      c.answers = [(true, .ok maxSlot), (false, .error SlotSupply.exhausted)] ∧
      c.slots = List.range' maxSlot c.supply.taken ∧ c.supply.taken = c.slots.length) ∧
    let s := ((start {} nestingLimit).run copiedHandle).2
    (s.process.supply.taken = 3 ∧ s.process.tally.variablesRegistered = 2) ∧
      (s.process.supply.taken = s.process.tally.variablesRegistered + s.process.burned) ∧
      ∃ u v, s.process.resolve? 0 = some u ∧ s.process.resolve? 1 = some u ∧
        s.process.resolve? 2 = some v ∧ u.slot ≠ v.slot ∧ reservedSlot < u.slot := by
  obtain ⟨hrace, hsessions⟩ := slots_unique
  constructor
  · have hread : Contention.Reached maxSlot (T := Bool) _ :=
      .step (.step .start (.read true maxSlot (Nat.le_refl _) (Nat.le_refl _)))
        (.read false maxSlot (Nat.le_refl _) (Nat.le_refl _))
    have htake := Contention.Reached.step hread (.take true rfl (Nat.le_refl _))
    have hagain := Contention.Reached.step htake
      (.read false (maxSlot + 1) (Nat.le_succ _) (Nat.le_refl _))
    have hrefused := Contention.Reached.step hagain (.refuse false _ rfl (Nat.lt_succ_self _))
    obtain ⟨-, hslots, -, htaken, -⟩ := hrace Bool maxSlot _ (by decide) hrefused
    exact ⟨_, hrefused, rfl, hslots, htaken⟩
  · intro s
    have hfacts : s.process.supply.taken = 3 ∧ s.process.tally.variablesRegistered = 2 := by
      decide +kernel
    have hhandles : (s.process.resolve? 0).map (·.slot) = some 1 ∧
        (s.process.resolve? 1).map (·.slot) = some 1 ∧
        (s.process.resolve? 2).map (·.slot) = some 2 := by
      decide +kernel
    have hregistered : s.process.Registered := (hsessions {} nestingLimit copiedHandle).1
    clear_value s
    obtain ⟨h₀, h₁, h₂⟩ := hhandles
    obtain ⟨u, hu, hslot⟩ := Option.map_eq_some_iff.1 h₀
    obtain ⟨u', hu', hslot'⟩ := Option.map_eq_some_iff.1 h₁
    obtain ⟨v, hv, hslot''⟩ := Option.map_eq_some_iff.1 h₂
    obtain ⟨hknown, -⟩ := hregistered.handle 0 u hu
    obtain ⟨hknown', -⟩ := hregistered.handle 1 u' hu'
    obtain rfl : u = u' := hregistered.own u u' hknown hknown' (.inl (by rw [hslot, hslot']))
    exact ⟨hfacts, hregistered.taken, u, v, hu, hu', hv, by rw [hslot, hslot'']; decide,
      (hregistered.slot u hknown).1⟩

/-- An index can be taken from the supply without making a variable. -/
theorem variablesRegistered_ne_taken :
    let s := ((start {} nestingLimit).run [.run "main" (.onProcess (.burn 1))]).2
    s.process.tally.variablesRegistered ≠ s.process.supply.taken := by
  decide +kernel

end Session

end ThreadSlots
