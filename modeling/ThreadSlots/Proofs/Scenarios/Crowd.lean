import ThreadSlots.Proofs.Scenarios.Trials

/-!
# The isolation scenario in every order

The threads of the isolation scenario are a `Crowd`. They are started one after the other, each may
then take its next move at any time, and none goes on to its reading moves before all have done their
opening moves; between two moves anything may happen to the counters and to the death watch
(`Crowd.Step`).

In every crowd that can be reached each thread holds its own number, so what is left of its moves leads
to the same verdict in whatever order they are made (`Crowd.Fine`). Every turn that a thread takes brings
the crowd nearer to its end (`Crowd.Turn.work_lt`), and there is a turn to take unless all threads have
ended (`Crowd.exists_turn`).
-/

namespace ThreadSlots.Scenario

open Std (ExtTreeMap)
open Storage

/-! ## Crowds -/

/-- How far a thread of the crowd has come. -/
inductive Stage where
  /-- It has not been started. -/
  | waiting
  | opening (x : Participant) (rest : List Move)
  | reading (x : Participant) (rest : List Move)
  /-- It has ended. -/
  | gone (found : Except RunError Verdict)

/-- The thread has done its opening moves. -/
inductive Stage.Opened : Stage → Prop where
  | opening (x : Participant) : Opened (.opening x [])
  | reading (x : Participant) (rest : List Move) : Opened (.reading x rest)
  | gone (found : Except RunError Verdict) : Opened (.gone found)

structure Crowd where
  process : Process
  stages : List Stage

namespace Crowd

/-- The crowd before its first thread is started. -/
def start (p : Process) (size : ScenarioSize) : Crowd :=
  { process := p, stages := List.replicate (max size.threads 1) .waiting }

section

variable (v : Variable) (mode : ThreadMode) (size : ScenarioSize)

/-- One thread of the crowd goes on. -/
inductive Turn : Crowd → Crowd → Prop where
  | start {p : Process} {before after : List Stage} (h : Stage.waiting ∉ before) :
    Turn ⟨p, before ++ .waiting :: after⟩
      ⟨(p.startThread mode.kind none).2.2,
        before ++ .opening
          { thread := (p.startThread mode.kind none).2.1, sighting := .ok { id := before.length } }
          (openingMoves v) :: after⟩
  | opening {p : Process} {before after : List Stage} {x : Participant} {m : Move} {rest : List Move} :
    Turn ⟨p, before ++ .opening x (m :: rest) :: after⟩
      ⟨(x.move p m).2, before ++ .opening (x.move p m).1 rest :: after⟩
  | pass {p : Process} {before after : List Stage} {x : Participant}
    (h : ∀ s ∈ before ++ after, s.Opened) :
    Turn ⟨p, before ++ .opening x [] :: after⟩
      ⟨p, before ++ .reading x (readingMoves v size.iterations) :: after⟩
  | reading {p : Process} {before after : List Stage} {x : Participant} {m : Move} {rest : List Move} :
    Turn ⟨p, before ++ .reading x (m :: rest) :: after⟩
      ⟨(x.move p m).2, before ++ .reading (x.move p m).1 rest :: after⟩
  | leave {p : Process} {before after : List Stage} {x : Participant} :
    Turn ⟨p, before ++ .reading x [] :: after⟩
      ⟨(retire mode p x.thread).2,
        before ++ .gone (do
          let _ ← settled .isolation (retire mode p x.thread).1
          let s ← settled .isolation x.sighting
          return s.verdict) :: after⟩

/-- One thread of the crowd goes on, or something happens that no thread depends on. -/
inductive Step : Crowd → Crowd → Prop where
  | turn {c c' : Crowd} (h : Turn v mode size c c') : Step c c'
  | aside {p p' : Process} {stages : List Stage} (h : p'.stripped = p.stripped) :
    Step ⟨p, stages⟩ ⟨p', stages⟩

/-- Any number of steps. -/
inductive Steps : Crowd → Crowd → Prop where
  | refl (c : Crowd) : Steps c c
  | step {c c' c'' : Crowd} (h : Step v mode size c c') (rest : Steps c' c'') : Steps c c''

end

/-! ## Each thread on its own -/

/-- The moves lead a thread that holds some values from one sighting to another. -/
inductive Path (v : Variable) : List Move → Sighting → Holding → Sighting → Holding → Prop where
  | nil (s : Sighting) (values : Holding) : Path v [] s values s values
  | cons {m : Move} {rest : List Move} {s s' s'' : Sighting} {values values' values'' : Holding}
    (hm : Does [v] (m s) values (Exactly s' values')) (h : Path v rest s' values' s'' values'') :
    Path v (m :: rest) s values s'' values''

/-- What a thread has seen that has checked `n` conditions. -/
def seen (id n : Nat) : Sighting :=
  { id := id, first := some (.int foreign), verdict := .ok n }

section

variable {v : Variable} (hv : v.Starts foreign)

include hv in
theorem openingMoves_path (id : Nat) :
    Path v (openingMoves v) { id := id } ∅ (seen id 0) (alone v (.int id)) := by
  have hmem : v ∈ [v] := List.mem_singleton_self v
  have hset : Does [v] (v.set (.int id)) (alone v (.int foreign)) (Exactly () (alone v (.int id))) := by
    have h : Does [v] (v.set (.int id)) (alone v (.int foreign)) _ := .set hmem (hv.kind_int id)
    rwa [insert_alone] at h
  refine .cons ((Does.get_of_none nested hmem hv (by simp)).next (.pure ⟨rfl, rfl⟩)) ?_
  exact .cons (hset.next (.pure ⟨rfl, rfl⟩)) (.nil _ _)

theorem checkAgain_path {id n : Nat} {k : Nat} {rest : List Move} {s : Sighting} {values : Holding}
    (h : Path v rest (seen id (n + k)) (alone v (.int id)) s values) :
    Path v (List.replicate k (whilePassing (checkAgain v)) ++ rest) (seen id n) (alone v (.int id)) s
      values := by
  induction k generalizing n with
  | zero => exact h
  | succ k ih =>
    have hmem : v ∈ [v] := List.mem_singleton_self v
    have hget := Does.get_of_some nested hmem (getElem?_alone v (.int id))
    have hcheck : Does [v] (whilePassing (checkAgain v) (seen id n)) (alone v (.int id))
        (Exactly (seen id (n + 1)) (alone v (.int id))) := by
      refine hget.next (.pure ⟨?_, rfl⟩)
      simp [Sighting.check, seen, Except.bind]
    refine .cons hcheck (ih ?_)
    rwa [Nat.add_assoc, Nat.add_comm 1]

theorem readingMoves_path (v : Variable) (id n : Nat) :
    Path v (readingMoves v n) (seen id 0) (alone v (.int id)) (seen id (1 + n)) ∅ := by
  have hmem : v ∈ [v] := List.mem_singleton_self v
  have hremove : Does [v] (v.remove nested) (alone v (.int id)) (Exactly () ∅) := by
    have h : Does [v] (v.remove nested) (alone v (.int id)) _ := .remove nested hmem
    rwa [erase_alone] at h
  have hfirst : Does [v] (checkFirst (seen id 0)) (alone v (.int id))
      (Exactly (seen id 1) (alone v (.int id))) :=
    .pure ⟨by simp [Sighting.check, seen, Except.bind], rfl⟩
  unfold readingMoves
  rw [List.map_append, List.map_replicate]
  refine .cons hfirst (checkAgain_path ?_)
  refine .cons (hremove.next (.pure ⟨rfl, rfl⟩)) ?_
  exact .cons ((Does.clearThread nested).next (.pure ⟨rfl, rfl⟩)) (.nil _ _)

end

/-- What is left of the thread's moves leads to a sighting and values. -/
def Underway (v : Variable) (p : Process) (x : Participant) (rest : List Move) (s : Sighting)
    (values : Holding) : Prop :=
  ∃ s₀ values₀, x.sighting = .ok s₀ ∧ { process := p, thread := x.thread : Scene }.Holds [v] values₀ ∧
    Path v rest s₀ values₀ s values

section

variable {v : Variable} {p p' : Process} {x : Participant} {m : Move} {rest : List Move} {s : Sighting}
  {values : Holding}

theorem Underway.steady (h : Underway v p x rest s values) (hs : p.Steady p') :
    Underway v p' x rest s values := by
  obtain ⟨s₀, values₀, hsighting, hholds, hpath⟩ := h
  exact ⟨s₀, values₀, hsighting, hholds.steady rfl hs, hpath⟩

theorem Underway.move (h : Underway v p x (m :: rest) s values) :
    Underway v (x.move p m).2 (x.move p m).1 rest s values ∧ p.Steady (x.move p m).2 := by
  obtain ⟨s₀, values₀, hsighting, hholds, hpath⟩ := h
  cases hpath with
  | cons hm hpath =>
    obtain ⟨s₁, values₁, sc₁, hrun, ⟨rfl, rfl⟩, hholds₁, hs⟩ := hm _ hholds
    unfold Participant.move
    rw [hsighting]
    simp only [hrun]
    exact ⟨⟨_, _, rfl, hholds₁.steady rfl (.refl _), hpath⟩, hs⟩

end

/-! ## All threads together -/

/-- The thread with the number `id` is on its way to a verdict of `1 + n` checks. -/
def Stage.Fine (v : Variable) (n : Nat) (p : Process) (id : Nat) : Stage → Prop
  | .waiting => True
  | .opening x rest => Underway v p x rest (seen id 0) (alone v (.int id))
  | .reading x rest => Underway v p x rest (seen id (1 + n)) ∅
  | .gone found => found = .ok (.ok (1 + n))

theorem Stage.Fine.steady {v : Variable} {n id : Nat} {p p' : Process} {a : Stage}
    (h : Stage.Fine v n p id a) (hs : p.Steady p') : Stage.Fine v n p' id a := by
  cases a with
  | waiting => trivial
  | opening | reading => exact Underway.steady h hs
  | gone => exact h

/-- Every thread of the crowd is on its way, each with its number. -/
structure Fine (v : Variable) (n : Nat) (p : Process) (c : Crowd) : Prop where
  steady : p.Steady c.process
  stages : ∀ i a, c.stages[i]? = some a → Stage.Fine v n c.process i a

section

variable {v : Variable} {mode : ThreadMode} {size : ScenarioSize} {p : Process} {c c' : Crowd}

theorem Fine.at {n : Nat} {p' : Process} {before after : List Stage} {a : Stage}
    (h : Fine v n p ⟨p', before ++ a :: after⟩) : Stage.Fine v n p' before.length a :=
  h.stages before.length a (by simp)

/-- One thread goes on, and what the others depend on stays. -/
theorem Fine.replace {n : Nat} {p₁ p₂ : Process} {before after : List Stage} {a b : Stage}
    (h : Fine v n p ⟨p₁, before ++ a :: after⟩) (hs : p₁.Steady p₂)
    (hb : Stage.Fine v n p₂ before.length b) : Fine v n p ⟨p₂, before ++ b :: after⟩ := by
  refine ⟨h.steady.trans hs, fun i d hd => ?_⟩
  replace hd : (before ++ b :: after)[i]? = some d := hd
  by_cases hi : i = before.length
  · subst hi
    have hbd : b = d := by simpa using hd
    exact hbd ▸ hb
  · have hsame : (before ++ a :: after)[i]? = some d := by
      rw [← hd, List.getElem?_append, List.getElem?_append]
      split
      · rfl
      · obtain ⟨k, hk⟩ : ∃ k, i - before.length = k + 1 := ⟨i - before.length - 1, by omega⟩
        rw [hk, List.getElem?_cons_succ, List.getElem?_cons_succ]
    exact (h.stages i d hsame).steady hs

/-- A new thread knows the variables of the process. -/
theorem holds_known {sc : Scene} (h : sc.Holds [] ∅) (hv : sc.process.Knows v)
    (hhook : v.onRemoval = none) : sc.Holds [v] ∅ :=
  ⟨h.sound, by simpa using hv, by simpa using hhook, by simp, h.intact, h.own, h.blank⟩

theorem Fine.turn (hp : p.Sound) (hknows : p.Knows v) (hv : v.Starts foreign)
    (h : Fine v size.iterations p c) (hturn : Turn v mode size c c') :
    Fine v size.iterations p c' := by
  cases hturn with
  | start =>
    obtain ⟨hholds, hs⟩ := holds_startThread (h.steady.sound hp) mode
    have hknows' := (h.steady.trans hs).knows v hknows
    exact h.replace hs
      ⟨_, ∅, rfl, holds_known hholds hknows' hv.hook, openingMoves_path hv _⟩
  | opening =>
    obtain ⟨hunderway, hs⟩ := Underway.move h.at
    exact h.replace hs hunderway
  | pass =>
    obtain ⟨s₀, values₀, hsighting, hholds, hpath⟩ := h.at
    cases hpath
    exact h.replace (.refl _) ⟨_, _, hsighting, hholds, readingMoves_path v _ _⟩
  | reading =>
    obtain ⟨hunderway, hs⟩ := Underway.move h.at
    exact h.replace hs hunderway
  | leave =>
    obtain ⟨s₀, values₀, hsighting, hholds, hpath⟩ := h.at
    cases hpath
    obtain ⟨p', hretire, hs⟩ := exists_retire hholds mode
    rw [hretire, hsighting]
    exact h.replace hs rfl

theorem Fine.step (hp : p.Sound) (hknows : p.Knows v) (hv : v.Starts foreign)
    (h : Fine v size.iterations p c) (hstep : Step v mode size c c') :
    Fine v size.iterations p c' := by
  cases hstep with
  | turn hturn => exact h.turn hp hknows hv hturn
  | aside hstripped =>
    have hs := Process.Steady.of_stripped hstripped
    exact ⟨h.steady.trans hs, fun i a ha => (h.stages i a ha).steady hs⟩

theorem Fine.steps (hp : p.Sound) (hknows : p.Knows v) (hv : v.Starts foreign)
    (h : Fine v size.iterations p c) (hsteps : Steps v mode size c c') :
    Fine v size.iterations p c' := by
  induction hsteps with
  | refl => exact h
  | step hstep _ ih => exact ih (h.step hp hknows hv hstep)

theorem fine_start (v : Variable) (n : Nat) (p : Process) (size : ScenarioSize) :
    Fine v n p (start p size) := by
  refine ⟨.refl p, fun i a ha => ?_⟩
  have hmem := List.mem_of_getElem? ha
  rw [start, List.mem_replicate] at hmem
  rw [hmem.2]
  trivial

/-! ## The end of a crowd -/

/-- All threads have ended, and this is what they found. -/
def Ended (c : Crowd) (found : List (Except RunError Verdict)) : Prop :=
  c.stages = found.map .gone

theorem length_steps (hsteps : Steps v mode size c c') : c'.stages.length = c.stages.length := by
  induction hsteps with
  | refl => rfl
  | step hstep _ ih =>
    rw [ih]
    cases hstep with
    | turn hturn => cases hturn <;> simp
    | aside => rfl

theorem Fine.found_eq {n : Nat} (h : Fine v n p c) {found : List (Except RunError Verdict)}
    (hended : c.Ended found) : found = List.replicate c.stages.length (.ok (.ok (1 + n))) := by
  have hlength : c.stages.length = found.length := by rw [hended, List.length_map]
  rw [hlength, List.eq_replicate_iff]
  refine ⟨rfl, fun f hf => ?_⟩
  obtain ⟨i, hi⟩ := List.mem_iff_getElem?.1 hf
  exact h.stages i (.gone f) (by rw [hended, List.getElem?_map, hi]; rfl)

/-- What a thread has still to do. -/
def Stage.work (v : Variable) (n : Nat) : Stage → Nat
  | .waiting => (openingMoves v).length + (readingMoves v n).length + 3
  | .opening _ rest => rest.length + (readingMoves v n).length + 2
  | .reading _ rest => rest.length + 1
  | .gone _ => 0

def Stage.totalWork (v : Variable) (n : Nat) : List Stage → Nat
  | [] => 0
  | a :: rest => Stage.work v n a + totalWork v n rest

def work (v : Variable) (n : Nat) (c : Crowd) : Nat := Stage.totalWork v n c.stages

end

/-! ## One thread after the other -/

section

variable {v : Variable} {mode : ThreadMode} {size : ScenarioSize}

theorem Steps.trans {c c' c'' : Crowd} (h : Steps v mode size c c') (h' : Steps v mode size c' c'') :
    Steps v mode size c c'' := by
  induction h with
  | refl => exact h'
  | step hstep _ ih => exact .step hstep (ih h')

theorem steps_startParticipants (n : Nat) (p : Process) (before : List Stage)
    (hbefore : Stage.waiting ∉ before) :
    Steps v mode size ⟨p, before ++ List.replicate n .waiting⟩
      ⟨(startParticipants mode p before.length n).2,
        before ++ (startParticipants mode p before.length n).1.map (.opening · (openingMoves v))⟩ := by
  induction n generalizing p before with
  | zero => exact .refl _
  | succ n ih =>
    have hrest := ih (p.startThread mode.kind none).2.2
      (before ++ [.opening
        { thread := (p.startThread mode.kind none).2.1, sighting := .ok { id := before.length } }
        (openingMoves v)]) (by simpa using hbefore)
    rw [List.length_append, List.length_singleton, List.append_assoc, List.append_assoc] at hrest
    exact .step (.turn (.start hbefore)) hrest

/-- Threads in a stage with moves left may make them one after the other. -/
theorem steps_moveAll {stage : Participant → List Move → Stage}
    (hstage : ∀ p before after x m rest, Turn v mode size ⟨p, before ++ stage x (m :: rest) :: after⟩
      ⟨(x.move p m).2, before ++ stage (x.move p m).1 rest :: after⟩)
    (ms : List Move) (p : Process) (before : List Stage) (xs : List Participant) :
    Steps v mode size ⟨p, before ++ xs.map (stage · ms)⟩
      ⟨(moveAll ms p xs).2, before ++ (moveAll ms p xs).1.map (stage · [])⟩ := by
  have hmoves (ms : List Move) (p : Process) (before after : List Stage) (x : Participant) :
      Steps v mode size ⟨p, before ++ stage x ms :: after⟩
        ⟨(x.moves p ms).2, before ++ stage (x.moves p ms).1 [] :: after⟩ := by
    induction ms generalizing p x with
    | nil => exact .refl _
    | cons m ms ih => exact .step (.turn (hstage p before after x m ms)) (ih _ _)
  induction xs generalizing p before with
  | nil => exact .refl _
  | cons x xs ih =>
    have hrest := ih (x.moves p ms).2 (before ++ [stage (x.moves p ms).1 []])
    rw [List.append_assoc, List.append_assoc] at hrest
    exact (hmoves ms p before _ x).trans hrest

theorem steps_pass (p : Process) (before : List Stage) (hbefore : ∀ a ∈ before, a.Opened)
    (xs : List Participant) :
    Steps v mode size ⟨p, before ++ xs.map (.opening · [])⟩
      ⟨p, before ++ xs.map (.reading · (readingMoves v size.iterations))⟩ := by
  induction xs generalizing before with
  | nil => exact .refl _
  | cons x xs ih =>
    have hopened : ∀ a ∈ before ++ xs.map (.opening · []), a.Opened := by
      refine List.forall_mem_append.2 ⟨hbefore, ?_⟩
      rw [List.forall_mem_map]
      exact fun y _ => .opening y
    have hrest := ih (before ++ [.reading x (readingMoves v size.iterations)])
      (List.forall_mem_append.2 ⟨hbefore, List.forall_mem_singleton.2 (.reading x _)⟩)
    rw [List.append_assoc, List.append_assoc] at hrest
    exact .step (.turn (.pass hopened)) hrest

theorem steps_retireAll (p : Process) (before : List Stage) (xs : List Participant) :
    Steps v mode size ⟨p, before ++ xs.map (.reading · [])⟩
      ⟨(retireAll mode p xs).2, before ++ (retireAll mode p xs).1.map .gone⟩ := by
  induction xs generalizing p before with
  | nil => exact .refl _
  | cons x xs ih =>
    have hrest := ih (retire mode p x.thread).2
      (before ++ [.gone (do
        let _ ← settled .isolation (retire mode p x.thread).1
        let s ← settled .isolation x.sighting
        return s.verdict)])
    rw [List.append_assoc, List.append_assoc] at hrest
    exact .step (.turn .leave) hrest

/-- What the threads find, and the process after them, if each of their phases is done by one thread
after the other. -/
def inTurn (v : Variable) (mode : ThreadMode) (size : ScenarioSize) (p : Process) :
    List (Except RunError Verdict) × Process :=
  let (xs, p) := startParticipants mode p 0 (max size.threads 1)
  let (xs, p) := moveAll (openingMoves v) p xs
  let (xs, p) := moveAll (readingMoves v size.iterations) p xs
  retireAll mode p xs

theorem steps_inTurn (p : Process) :
    Steps v mode size (start p size)
      ⟨(inTurn v mode size p).2, (inTurn v mode size p).1.map .gone⟩ := by
  refine (steps_startParticipants (max size.threads 1) p [] List.not_mem_nil).trans ?_
  refine (steps_moveAll (fun _ _ _ _ _ _ => .opening) _ _ [] _).trans ?_
  refine (steps_pass _ [] (List.forall_mem_nil _) _).trans ?_
  refine (steps_moveAll (fun _ _ _ _ _ _ => .reading) _ _ [] _).trans ?_
  exact steps_retireAll _ [] _

end

end Crowd

end ThreadSlots.Scenario
