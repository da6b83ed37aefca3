import ThreadSlots.Proofs.Isolation
import ThreadSlots.Proofs.Paths.Commands

/-!
# A thread shows the same whether it carries its table or not

Whatever a thread does on its own table, it shows the same after every step if it was started carrying
the table and if it was started without one, provided that variables, when they are called back, do
such things too and never clear the thread (`Session.paths_agree`). The relation over the steps is
`Session.Alike`.
-/

namespace ThreadSlots

open Std (ExtTreeMap)
open Storage

/-- What a thread shows of one command. -/
structure Observation where
  result : StepResult
  events : List Event
  /-- How many variables are set on the thread after it. -/
  tracked : Option Nat
  /-- What asking whether the variable of a handle is set would lead to after it. -/
  isSet : Nat → StepResult

namespace Session

/-- What a thread shows while it does the commands one after the other. -/
def observations (s : Session) (name : String) : List Command → List Observation
  | [] => []
  | c :: cs =>
    let (report, s) := s.command name c
    { result := report.result
      events := report.events
      tracked := report.glance.map (·.tracked)
      isSet := fun handle => (s.command name (.access handle .ambient .isSet)).1.result } ::
        s.observations name cs

/-- The thread of the name carries its table in the first session only, and shows the same in both. -/
structure Alike (name : String) (s s' : Session) : Prop where
  depth : s'.depth = s.depth
  scenes : ∃ (i : TableId) (a a' : Actor), s.actor? name = some a ∧ s'.actor? name = some a' ∧
    Scene.Alike i { process := s.process, thread := a.thread }
      { process := s'.process, thread := a'.thread }

variable {name : String} {s s' : Session}

theorem scene_alike {i : TableId} {sc sc' : Scene} (h : Scene.Alike i sc sc') :
    Scene.Alike i { process := sc.process, thread := sc.thread }
      { process := sc'.process, thread := sc'.thread } :=
  ⟨h.process, rfl, h.carried, h.generic, h.intact, h.table, h.tracks, h.callbacks⟩

theorem act_alike {α : Type} {i : TableId} {V : α → α → Prop} {x : Storage α}
    (hx : Coupled (Scene.Alike i) V x x) {sc sc' : Scene} (h : Scene.Alike i sc sc') :
    Outcomes V (act sc.process sc.thread x).1 (act sc'.process sc'.thread x).1 ∧
      Scene.Alike i (act sc.process sc.thread x).2 (act sc'.process sc'.thread x).2 := by
  obtain ⟨ho, hs⟩ := hx _ _ (scene_alike h)
  exact ⟨ho, hs.like (.settle _) (.settle _)⟩

theorem Alike.setThread (h : Alike name s s') {i : TableId} {sc sc' : Scene}
    (hsc : Scene.Alike i sc sc') :
    Alike name ({ s with process := sc.process }.setThread name sc.thread)
      ({ s' with process := sc'.process }.setThread name sc'.thread) := by
  obtain ⟨hdepth, -, a, a', ha, ha', -⟩ := h
  refine ⟨hdepth, i, { a with thread := sc.thread }, { a' with thread := sc'.thread }, ?_, ?_,
    scene_alike hsc⟩
  · rw [actor?_setThread]
    exact congrArg _ ha
  · rw [actor?_setThread]
    exact congrArg _ ha'

theorem Alike.command (h : Alike name s s') {c : Command}
    (hc : Command.Only Command.IsAmbient c) :
    (s'.command name c).1.result = (s.command name c).1.result ∧
      (s'.command name c).1.events = (s.command name c).1.events ∧
      (s'.command name c).1.glance.map (·.tracked) = (s.command name c).1.glance.map (·.tracked) ∧
      Alike name (s.command name c).2 (s'.command name c).2 := by
  obtain ⟨q, actors, depth⟩ := s
  obtain ⟨q', actors', depth'⟩ := s'
  obtain rfl : depth' = depth := h.depth
  obtain ⟨i, a, a', ha, ha', halike⟩ := h.scenes
  obtain ⟨ho, hs⟩ := act_alike (alike_perform i depth' hc) halike
  unfold Session.command
  rw [ha, ha']
  refine ⟨?_, ?_, congrArg some hs.tracked_glance, h.setThread hs⟩
  · dsimp only
    rw [ho.eq]
  · dsimp only
    rw [hs.events]

theorem Alike.observations (h : Alike name s s') (cs : List Command)
    (hcs : ∀ c ∈ cs, Command.Only Command.IsAmbient c) :
    s.observations name cs = s'.observations name cs := by
  induction cs generalizing s s' with
  | nil => rfl
  | cons c cs ih =>
    obtain ⟨hc, hcs⟩ := List.forall_mem_cons.1 hcs
    obtain ⟨hresult, hevents, htracked, hnext⟩ := h.command hc
    have hisSet : ∀ handle : Nat, Command.Only Command.IsAmbient (.access handle .ambient .isSet) :=
      fun _ => .of_leaf (.inl trivial) nofun
    unfold Session.observations
    dsimp only
    rw [hresult, hevents, htracked, ih hnext hcs]
    simp only [(hnext.command (hisSet _)).1]

/-! ## Fresh threads -/

/-- A thread that comes up carrying a table is like one that comes up without. -/
theorem prepare_alike {kind : ThreadKind} (hkind : kind.carries = true) (sc sc' : Scene)
    (ho : sc.own? = none) (hintact : sc.thread.locals.Intact) (ho' : sc'.own? = none)
    (hintact' : sc'.thread.locals.Intact)
    (hprocess : sc'.process = sc.process) (hevents : sc'.events = sc.events)
    (hcalled : sc.process.Only Command.IsAccess) :
    ∃ i s, runOn (prepare kind) sc = (.ok true, s) ∧ Scene.Alike i s sc' ∧
      s.thread.id = sc.thread.id := by
  let adopted := sc.makeBlank.carry sc.thread.nextTable
  have hadopt : runOn adopt sc = (.ok sc.thread.nextTable, adopted) := by
    rw [runOn_adopt, Scene.carried?_eq_none ho, ho]
  have htable : adopted.thread.table sc.thread.nextTable = sc.blankTable := by
    have hmade := sc.table_makeTable sc.blankTable sc.thread.nextTable
    rwa [if_pos rfl] at hmade
  have hblank : sc'.blankTable = sc.blankTable := by
    unfold Scene.blankTable
    rw [hprocess]
  have hmade : sc.makeBlank.thread.locals.Intact := hintact
  have hcarried : adopted.thread.carried? = some sc.thread.nextTable :=
    Scene.carried?_carry_of_intact hmade _
  have halike : Scene.Alike sc.thread.nextTable adopted sc' := by
    refine ⟨?_, hevents, hcarried, Scene.carried?_eq_none ho', hintact', ?_, ?_, hcalled⟩
    · rw [hprocess]
      exact sc.like_makeBlank.process
    · rw [htable, ho']
      exact hblank.symm
    · rw [htable]
      exact .blank _
  have hstarts : ∀ s : Scene, s.thread.carried? = some sc.thread.nextTable →
      runOn isCarrying s = (.ok true, s) := by
    intro s hs
    have hl : s.setLocals s.thread.locals.useCarried = s :=
      congrArg s.setLocals (Locals.useCarried_of_some hs)
    rw [isCarrying, runOn_bind, runOn_carried?, hl, hs]
    rfl
  unfold prepare
  rw [hkind]
  simp only [if_true, runOn_bind, hadopt]
  cases kind with
  | generic => cases hkind
  | carried => exact ⟨_, _, hstarts _ hcarried, halike, rfl⟩
  | withContext =>
    exact ⟨_, _, hstarts { adopted with thread := adopted.thread.bind contextName _ } hcarried,
      ⟨halike.process, halike.events, halike.carried, halike.generic, halike.intact, halike.table,
        halike.tracks, halike.callbacks⟩, rfl⟩

theorem actor?_spawn (hfresh : s.actor? name = none) (kind : ThreadKind) (label : Option String)
    (late : Option (List Command)) :
    (s.spawn name kind label late).2.actor? name =
      some ⟨name, kind, Late.first late,
        (s.process.startThread kind label (Late.first late).length).2.1⟩ := by
  unfold actor? at hfresh
  unfold actor? Session.spawn
  dsimp only
  rw [List.find?_append, hfresh]
  simp

theorem alike_spawn (hfresh : s.actor? name = none) (hcalled : s.process.Only Command.IsAccess)
    {kind : ThreadKind} (hkind : kind.carries = true) (label label' : Option String)
    (late late' : Option (List Command)) :
    (∃ l, (s.spawn name kind label late).1.result = .spawned true l) ∧
      Alike name (s.spawn name kind label late).2 (s.spawn name .generic label' late').2 := by
  obtain ⟨i, sc, hrun, halike, hid⟩ := prepare_alike hkind
    { process := { s.process with nextThread := s.process.nextThread + 1 }
      thread :=
        { id := s.process.nextThread
          locals := { uses := (Late.first late).length }
          label := if kind = .withContext then label else none } }
    { process := { s.process with nextThread := s.process.nextThread + 1 }
      thread :=
        { id := s.process.nextThread
          locals := Locals.useCarried { uses := (Late.first late').length } } }
    rfl ⟨nofun, nofun⟩ rfl ⟨nofun, nofun⟩ rfl rfl hcalled
  have hstart : s.process.startThread kind label (Late.first late).length =
      (true, sc.thread, sc.process) := by
    unfold Process.startThread
    rw [hrun]
    rfl
  have hnamed := congrArg (fun p : Process =>
    { p with threadNames := (name, s.process.nextThread) :: p.threadNames }) halike.process
  have hfound := actor?_spawn hfresh kind label late
  rw [hstart] at hfound
  refine ⟨?_, rfl, i, _, _, hfound, actor?_spawn hfresh .generic label' late', ?_, rfl,
    halike.carried, halike.generic, halike.intact, halike.table, halike.tracks, ?_⟩
  all_goals
    unfold Session.spawn
    dsimp only
    rw [hstart]
  · exact ⟨_, rfl⟩
  · dsimp only
    rw [hid]
    exact hnamed
  · exact halike.callbacks

/-- **The fast path and the fallback path agree**: whatever a fresh thread does on its own table, it
shows the same after every step if it carries the table and if it does not. Nested code may do the
same things; only code that the thread itself hands a value may clear it. -/
theorem paths_agree (s : Session) (name : String) (hfresh : s.actor? name = none)
    (hcalled : s.process.Only Command.IsAccess) {kind : ThreadKind} (hkind : kind.carries = true)
    (label label' : Option String) (late late' : Option (List Command)) (cs : List Command)
    (hcs : ∀ c ∈ cs, Command.Only Command.IsAmbient c) :
    (∃ l, (s.spawn name kind label late).1.result = .spawned true l) ∧
      (s.spawn name .generic label' late').1.result = .spawned false none ∧
      (s.spawn name kind label late).2.observations name cs =
        (s.spawn name .generic label' late').2.observations name cs := by
  obtain ⟨hcarrying, halike⟩ := alike_spawn hfresh hcalled hkind label label' late late'
  exact ⟨hcarrying, rfl, halike.observations cs hcs⟩

/-- Two variables. The second one's initializer reads the first one, its removal hook sets the first
one and panics for one value. -/
def calledVariables : List Step :=
  [.run mainName (.declare .int (.plain .int) none),
    .run mainName (.declare .int
      { nested := some (.step "read" (.access 0 .ambient .get) fun
          | .ok (.value value) => .done (some value)
          | _ => .done none)
        outcome := fun n read => .ok (if read = some (.int 0) then .int (n + 4) else .int n)
        silent := false }
      (some
        { nested := some fun _ =>
            .step "set" (.access 0 .ambient (.set (.int 9))) fun _ => .done none
          panics := fun value => if value = .int 3 then some "three" else none }))]

/-- The thread is cleared by the code that is handed a value, and then by a panicking pass. -/
def clearedTwice : List Command :=
  [.access 1 .ambient .get,
    .access 1 .ambient (.withValue (some fun _ =>
      .step "clear" (.onThread .clear) fun _ =>
        .step "read" (.access 1 .ambient .get) fun _ => .done none)),
    .access 1 .ambient (.set (.int 3)), .onThread .clear, .access 0 .ambient .take,
    .onThread .liveCount]

theorem paths_agree_clearedTwice :
    let s := ((start {} nestingLimit).run calledVariables).2
    s.actor? "a" = none ∧
      s.process.Only Command.IsAccess ∧
      ThreadKind.carried.carries = true ∧
      (∀ c ∈ clearedTwice, Command.Only Command.IsAmbient c) ∧
      (∃ l, (s.spawn "a" .carried none none).1.result = .spawned true l) ∧
      (s.spawn "a" .generic none none).1.result = .spawned false none ∧
      (s.spawn "a" .carried none none).2.observations "a" clearedTwice =
        (s.spawn "a" .generic none none).2.observations "a" clearedTwice := by
  intro s
  have hfresh : s.actor? "a" = none := Option.isNone_iff_eq_none.1 (by decide +kernel)
  have hcalled : s.process.Only Command.IsAccess := by
    intro slot v hv
    have hslots : s.process.bySlot.keys = [1, 2] := by decide +kernel
    have hmem : slot ∈ [1, 2] := by
      rw [← hslots, ExtTreeMap.mem_keys, ExtTreeMap.mem_iff_isSome_getElem?, hv]
      rfl
    simp only [List.mem_cons, List.not_mem_nil, or_false] at hmem
    rcases hmem with rfl | rfl
    · cases hv
      intro s hs
      cases hs with
      | initializer h => cases h
      | hook hh => cases hh
    · cases hv
      intro s hs
      cases hs with
      | initializer h =>
        cases h
        exact .step _ (.of_leaf trivial nofun) fun answer => by split <;> exact .done _
      | hook hh hn value =>
        cases hh
        cases hn
        exact .step _ (.of_leaf trivial nofun) fun _ => .done _
  have hcs : ∀ c ∈ clearedTwice, Command.Only Command.IsAmbient c := by
    simp only [clearedTwice, List.forall_mem_cons]
    have hget : ∀ handle, Command.Only Command.IsAmbient (.access handle .ambient .get) :=
      fun handle => .of_leaf (.inl trivial) nofun
    refine ⟨hget 1, .intro (.inl trivial) fun s hs => ?_, .of_leaf (.inl trivial) nofun,
      .of_leaf (.inr rfl) nofun, .of_leaf (.inl trivial) nofun, .of_leaf (.inl trivial) nofun, nofun⟩
    cases hs
    exact .step _ (.of_leaf (.inr rfl) nofun) fun _ => .step _ (hget 1) fun _ => .done _
  exact ⟨hfresh, hcalled, rfl, hcs, paths_agree s "a" hfresh hcalled rfl none none none none _ hcs⟩

end Session

end ThreadSlots
