import ThreadSlots.Proofs.Agreement

/-!
# What every thread keeps

A property of a thread that no move takes away and that lasts while other threads make variables
(`Keeps`) holds of every thread of every session (`Keeps.of_run`): a thread starts with it, and what
a thread does between two steps of the session is a course.
-/

namespace ThreadSlots

open Storage

/-- A thread has the property before it stores anything, keeps it while other threads make
variables, and keeps it with each of its own moves. -/
structure Keeps (Q : Process → Thread → Prop) : Prop where
  empty : ∀ {p : Process} {t : Thread}, t.tables = ∅ → t.carried? = none → t.fallback? = none →
    t.filled = [] → Q p t
  mono : ∀ {p p' : Process} {t : Thread}, p.Sound → p.Grows p' → Q p t → Q p' t
  move : ∀ {busy : List TableId} {sc sc' : Scene}, sc.Sound → Move busy sc sc' →
    Q sc.process sc.thread → Q sc'.process sc'.thread
  interrupt : ∀ {sc : Scene}, Q sc.process sc.thread →
    Q sc.interrupt.process sc.interrupt.thread

namespace Keeps

variable {Q : Process → Thread → Prop} (hQ : Keeps Q) {s : Session}

include hQ

theorem course {busy : List TableId} {sc sc' : Scene} (h : Course busy sc sc') (hs : sc.Sound)
    (hq : Q sc.process sc.thread) : Q sc'.process sc'.thread := by
  induction h with
  | rest => exact hq
  | move h hm ih => exact hQ.move (h.sound hs) hm (ih hs hq)
  | pass h _ _ _ ih ihpass => exact ihpass (h.sound hs) (ih hs hq)
  | interrupt h _ _ ih ihpass => exact hQ.interrupt (ihpass (h.sound hs) (ih hs hq))

theorem act {α : Type} {x : Storage α} (hx : Walks [] x) {p : Process} {t : Thread}
    (hp : p.Sound) (ht : t.Sound p) (hq : Q p t) :
    Q (Session.act p t x).2.process (Session.act p t x).2.thread := by
  have hs : Scene.Sound { process := p, thread := t } := ⟨hp, ht⟩
  have hcourse := hx.course [] hs
  exact hQ.mono (hcourse.sound hs).process (.settle _) (hQ.course hcourse hs hq)

theorem setThread (hs : s.Sound) (h : ∀ a ∈ s.actors, Q s.process a.thread) {p : Process}
    (hp : s.process.Grows p) {t : Thread} (ht : Q p t) (name : String) :
    ∀ a ∈ ({ s with process := p }.setThread name t).actors, Q p a.thread := by
  intro a hmem
  obtain ⟨b, hb, rfl⟩ := List.mem_map.1 hmem
  split
  · exact ht
  · exact hQ.mono hs.process hp (h b hb)

theorem command (hs : s.Sound) (h : ∀ a ∈ s.actors, Q s.process a.thread) (name : String)
    (c : Command) :
    ∀ a ∈ (s.command name c).2.actors, Q (s.command name c).2.process a.thread := by
  rcases ha : s.actor? name with _ | a
  · rw [Session.command_of_none ha]
    exact h
  · rw [Session.session_command ha]
    have hmem : a ∈ s.actors := Session.mem_actors ha
    have hq := hQ.act (walks_perform s.depth c) hs.process (hs.threads a hmem) (h a hmem)
    exact hQ.setThread hs h (hs.performed hmem c).1 hq name

theorem use (hs : s.Sound) (h : ∀ a ∈ s.actors, Q s.process a.thread) (name : String)
    (commands : List Command) :
    ∀ a ∈ (s.use name commands).2.actors, Q (s.use name commands).2.process a.thread := by
  rcases ha : s.actor? name with _ | a
  · rw [Session.use_of_none ha]
    exact h
  · rw [Session.session_use ha]
    have hmem : a ∈ s.actors := Session.mem_actors ha
    have hused := hQ.course (Session.course_used [] s.process a.thread)
      ⟨hs.process, hs.threads a hmem⟩ (h a hmem)
    intro b hb
    obtain ⟨c, hc, rfl⟩ := List.mem_map.1 hb
    have hq := hQ.setThread hs h (.refl _) hused name c hc
    split
    · exact hq
    · exact hq

theorem spawn (hs : s.Sound) (h : ∀ a ∈ s.actors, Q s.process a.thread) (name : String)
    (kind : ThreadKind) (label : Option String) (late : Option (List Command)) :
    ∀ a ∈ (s.spawn name kind label late).2.actors,
      Q (s.spawn name kind label late).2.process a.thread := by
  have hnew := hs.newcomer kind label (Late.first late).length
  have hcourse := hs.course_prepared kind label late
  intro a ha
  rcases List.mem_append.1 ha with ha | ha
  · exact hQ.mono hs.process (hs.spawn name kind label late).1 (h a ha)
  · obtain rfl := List.mem_singleton.1 ha
    exact hQ.mono (hcourse.sound hnew).process (s.grows_spawned name kind label late)
      (hQ.course hcourse hnew (hQ.empty rfl rfl rfl rfl))

theorem join (hs : s.Sound) (h : ∀ a ∈ s.actors, Q s.process a.thread) (name : String)
    (panics : Option String) :
    ∀ a ∈ (s.join name panics).2.actors, Q (s.join name panics).2.process a.thread := by
  unfold Session.join
  rcases ha : s.actor? name with _ | a
  · exact h
  · have hmem : a ∈ s.actors := Session.mem_actors ha
    have hgrows := Session.grows_exit s.depth hs.process (hs.threads a hmem) panics
    exact fun b hb => hQ.mono hs.process hgrows (h b (List.mem_filter.1 hb).1)

theorem step (hs : s.Sound) (h : ∀ a ∈ s.actors, Q s.process a.thread) (x : Step) :
    ∀ a ∈ (s.step x).2.actors, Q (s.step x).2.process a.thread := by
  cases x with
  | run name c => exact hQ.command hs h name c
  | spawn name kind label late => exact hQ.spawn hs h name kind label late
  | use name late => exact hQ.use hs h name late
  | join name panics => exact hQ.join hs h name panics

theorem run (hs : s.Sound) (h : ∀ a ∈ s.actors, Q s.process a.thread) (steps : List Step) :
    ∀ a ∈ (s.run steps).2.actors, Q (s.run steps).2.process a.thread := by
  induction steps generalizing s with
  | nil => exact h
  | cons x steps ih => exact ih (hs.step x).2 (hQ.step hs h x)

/-- After any steps of any session every thread has the property. -/
theorem of_run (environment : Environment) (depth : Nat) (steps : List Step) :
    let s := ((Session.start environment depth).run steps).2
    ∀ a ∈ s.actors, Q s.process a.thread := by
  refine hQ.run (Session.sound_start environment depth) (fun a ha => ?_) steps
  obtain rfl := List.mem_singleton.1 ha
  exact hQ.empty rfl rfl rfl rfl

end Keeps

end ThreadSlots
