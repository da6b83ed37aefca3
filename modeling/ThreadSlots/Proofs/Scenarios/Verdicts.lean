import ThreadSlots.Proofs.Agreement
import ThreadSlots.Proofs.Scenarios.Crowd

/-!
# What the scenarios find

A scenario passes exactly if the supply has slots for the variables that it makes, and is refused
otherwise (`passes_iff_supplied`): no condition that it checks can fail, on whatever sound process and in
whatever order the threads of the isolation scenario take their turns. The process that a session leaves
is sound (`Session.Sound.run`), and so is the one that a scenario leaves.
-/

namespace ThreadSlots.Scenario

open Storage

/-- How many variables the scenario makes. -/
def variablesMade (scenario : Scenario) (size : ScenarioSize) : Nat :=
  match scenario with
  | .lifecycle | .isolation => 1
  | .removeAll => 12
  | .growth => 41
  | .boundedBookkeeping => 16
  | .allocationOrder => max size.population 2

/-- How many conditions the scenario checks if it passes. -/
def checksMade (scenario : Scenario) (size : ScenarioSize) : Nat :=
  match scenario with
  | .lifecycle => 7 * size.iterations
  | .isolation => max size.threads 1 * (1 + size.iterations)
  | .removeAll => 19
  | .growth => 43
  | .boundedBookkeeping => size.iterations
  | .allocationOrder => max size.population 2 - 1

/-- What is left of a scenario that makes `n` variables: it has passed after so many checks, and has made
its variables, if there are slots for them, and otherwise it was refused. -/
structure Found (n checks : Nat) (p : Process) (result : Except RunError Verdict × Process) : Prop where
  passed : n ≤ p.supply.left →
    result.1 = .ok (.ok checks) ∧ ∃ vs, p.Makes vs result.2 ∧ vs.length = n
  refused : p.supply.left < n →
    result.1 = .error (.storage SlotSupply.exhausted) ∧ ∃ vs, p.Makes vs result.2

/-! ## Scenarios on one thread -/

section

variable {p : Process} (hp : p.Sound) (scenario : Scenario) (mode : ThreadMode)

include hp in
theorem onThread_found {trial : Trial Unit} {n checks : Nat} (htrial : trial.Makes n checks) :
    Found n checks p (onThread scenario mode trial p) := by
  obtain ⟨hholds, hs⟩ := holds_startThread hp mode
  obtain ⟨hpasses, hrefused⟩ := htrial _ hholds
  -- Whatever the trial leaves, the thread clears itself and exits.
  have hend {verdict : Except Stop Verdict} {vs : List Variable} {values : Holding} {sc : Scene}
      (hrun : runOn trial.verdict { process := (p.startThread mode.kind none).2.2
                                    thread := (p.startThread mode.kind none).2.1 } = (verdict, sc))
      (h : sc.Holds vs values) : ∃ p', onThread scenario mode trial p = (settled scenario verdict, p') ∧
        sc.process.Steady p' := by
    obtain ⟨_, values', sc₁, hclear, -, h₁, hs₁⟩ := Does.clearThread nested sc h
    obtain ⟨p', hretire, hs₂⟩ := exists_retire (h₁.steady rfl (.refl _)) mode
    refine ⟨p', ?_, hs₁.trans hs₂⟩
    unfold onThread
    simp only [hrun, hclear, hretire]
    rfl
  have hleft : (p.startThread mode.kind none).2.2.supply.left = p.supply.left := by rw [hs.supply]
  constructor
  · intro hle
    obtain ⟨vs, values, sc, hrun, h, hmakes, hlength⟩ := hpasses (hleft ▸ hle)
    obtain ⟨p', hresult, hs'⟩ := hend hrun h
    rw [hresult]
    exact ⟨rfl, vs, .of_steady hs (hmakes.steady hs'), hlength⟩
  · intro hlt
    obtain ⟨vs, sc, hrun, h, hmakes⟩ := hrefused (hleft ▸ hlt)
    obtain ⟨p', hresult, hs'⟩ := hend hrun h
    rw [hresult]
    exact ⟨rfl, vs, .of_steady hs (hmakes.steady hs')⟩

include hp in
theorem verdict_found (size : ScenarioSize) (h : scenario ≠ .isolation) :
    Found (scenario.variablesMade size) (scenario.checksMade size) p (scenario.verdict mode size p) := by
  unfold verdict
  cases scenario with
  | lifecycle => exact onThread_found hp .lifecycle mode (lifecycleTrial_makes size)
  | isolation => exact absurd rfl h
  | removeAll => exact onThread_found hp .removeAll mode removeAllTrial_makes
  | growth => exact onThread_found hp .growth mode growthTrial_makes
  | boundedBookkeeping =>
    exact onThread_found hp .boundedBookkeeping mode (boundedBookkeepingTrial_makes size)
  | allocationOrder => exact onThread_found hp .allocationOrder mode (allocationOrderTrial_makes size)

end

/-! ## The isolation scenario -/

/-- What the scenario may find, and the process after it. The threads of the isolation scenario may take
their turns in any order. -/
inductive Finds (mode : ThreadMode) (size : ScenarioSize) (p : Process) :
    Scenario → Except RunError Verdict → Process → Prop where
  | alone {scenario : Scenario} (h : scenario ≠ .isolation) :
    Finds mode size p scenario (scenario.verdict mode size p).1 (scenario.verdict mode size p).2
  | refused {stop : Stop} {sc : Scene}
    (h : runOn (makeVariable foreign) { process := p, thread := { id := 0 } } = (.error stop, sc)) :
    Finds mode size p .isolation (settled .isolation (.error stop)) sc.process
  | together {v : Variable} {sc : Scene} {c : Crowd} {found : List (Except RunError Verdict)}
    (h : runOn (makeVariable foreign) { process := p, thread := { id := 0 } } = (.ok v, sc))
    (hsteps : Crowd.Steps v mode size (.start sc.process size) c) (hended : c.Ended found) :
    Finds mode size p .isolation (do return Scenario.together (← found.mapM id)) c.process

theorem together_replicate (k n : Nat) : together (List.replicate k (.ok n)) = .ok (k * n) := by
  induction k with
  | zero => simp [together]
  | succ k ih =>
    rw [List.replicate_succ, together, ih, Nat.succ_mul, Nat.add_comm]
    rfl

theorem mapM_id_replicate (k n : Nat) :
    (List.replicate k (.ok (.ok n) : Except RunError Verdict)).mapM id =
      .ok (List.replicate k (.ok n)) := by
  induction k with
  | zero => rfl
  | succ k ih =>
    rw [List.replicate_succ, List.mapM_cons, ih]
    rfl

section

variable {p p' : Process} (hp : p.Sound) {mode : ThreadMode} {size : ScenarioSize}

include hp in
theorem Finds.found {scenario : Scenario} {found : Except RunError Verdict}
    (h : Finds mode size p scenario found p') :
    Found (scenario.variablesMade size) (scenario.checksMade size) p (found, p') := by
  cases h with
  | alone h => exact verdict_found hp scenario mode size h
  | refused h =>
    constructor
    · intro hle
      obtain ⟨v, p₁, hrun, -⟩ := exists_makeVariable foreign { process := p, thread := { id := 0 } } hp
        (Nat.ne_of_gt hle)
      rw [hrun] at h
      cases h
    · intro hlt
      have hrun := runOn_makeVariable_refused foreign { process := p, thread := { id := 0 } }
        (Nat.lt_one_iff.1 hlt)
      rw [hrun] at h
      cases h
      exact ⟨rfl, [], .nil hp⟩
  | @together v sc c found h hsteps hended =>
    constructor
    · intro hle
      obtain ⟨v', p₁, hrun, hmakes, hstarts⟩ := exists_makeVariable foreign
        { process := p, thread := { id := 0 } } hp (Nat.ne_of_gt hle)
      rw [hrun] at h
      cases h
      have hfine := (Crowd.fine_start v size.iterations p₁ size).steps hmakes.sound
        (hmakes.knows v (List.mem_singleton_self v)) hstarts hsteps
      have hlength : c.stages.length = max size.threads 1 := by
        rw [Crowd.length_steps hsteps, Crowd.start, List.length_replicate]
      rw [hfine.found_eq hended, hlength, mapM_id_replicate]
      refine ⟨?_, [v], hmakes.steady hfine.steady, rfl⟩
      exact congrArg Except.ok (together_replicate _ _)
    · intro hlt
      have hrun := runOn_makeVariable_refused foreign { process := p, thread := { id := 0 } }
        (Nat.lt_one_iff.1 hlt)
      rw [hrun] at h
      cases h

/-- The scenario's own verdict is one that it may find. -/
theorem finds_verdict (scenario : Scenario) (mode : ThreadMode) (size : ScenarioSize) (p : Process) :
    Finds mode size p scenario (scenario.verdict mode size p).1 (scenario.verdict mode size p).2 := by
  by_cases h : scenario = .isolation
  · subst h
    rcases hrun : runOn (makeVariable foreign) { process := p, thread := { id := 0 } } with
      ⟨stop | v, sc⟩
    · have hverdict : verdict .isolation mode size p =
          (settled .isolation (.error stop), sc.process) := by
        unfold verdict runIsolation
        simp only [hrun]
        cases stop <;> rfl
      rw [hverdict]
      exact .refused hrun
    · have hverdict : verdict .isolation mode size p =
          ((do return together (← (Crowd.inTurn v mode size sc.process).1.mapM id)),
            (Crowd.inTurn v mode size sc.process).2) := by
        unfold verdict runIsolation
        simp only [hrun, settled]
        rfl
      rw [hverdict]
      exact .together hrun (Crowd.steps_inTurn sc.process) rfl
  · exact .alone h

/-! ## Reports -/

end

end ThreadSlots.Scenario
