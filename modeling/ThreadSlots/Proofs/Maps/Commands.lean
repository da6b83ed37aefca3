import ThreadSlots.Proofs.Maps.Operations

/-!
# Every plain command refines its turn

A plain command, with whatever plain code nests inside it, does what the machine of maps does
(`refines_perform`). Nested code refines a nested turn by induction on the depth to which code may
nest, and at each depth by recursion on the code.
-/

namespace ThreadSlots

open Std (ExtTreeMap)
open Storage
open Maps (Turn World ValueMap Own Owner Shared)

namespace Refines

variable {known : List Variable}

theorem reply (r : Reply) : Refines known Reply.shown (Pure.pure r) (Pure.pure r.shown) := pure r

/-- What is done in a table, with the reply that is given if there is none. -/
theorem bind_some {r : Reply} {x : Storage (Option TableId)} {y : Turn (Option TableId)}
    {f : TableId → Storage Reply} {g : TableId → Turn Reply} (hx : Refines known id x y)
    (hf : ∀ i, Refines known Reply.shown (f i) (g i)) :
    Refines known Reply.shown (do
      let some i ← x | return r
      f i) (do
        let some i ← y | return r.shown
        g i) := by
  refine bind hx fun i => ?_
  rcases i with _ | i
  · exact reply r
  · exact hf i

/-! ## Variables by their handles -/

theorem weaken {known' : List Variable} (h : ∀ v ∈ known, v ∈ known') {destroys : Nat} {sc : Scene}
    {w : World} (hm : sc.Mirrors known' destroys w) : sc.Mirrors known destroys w :=
  ⟨hm.process, hm.thread, hm.events, fun v hv => hm.known v (h v hv)⟩

/-- A handle stands for the same variable on both sides, and for one that the process knows. -/
theorem lookup_bind {γ δ : Type} {view : γ → δ} {handle : Nat} {f : Option Variable → Storage γ}
    {g : Option Variable → Turn δ} (hnone : Refines known view (f none) (g none))
    (hsome : ∀ v, Refines (v :: known) view (f (some v)) (g (some v))) :
    Refines known view (lookup handle >>= f) (Turn.lookup handle >>= g) := by
  intro destroys sc w hm hbound
  have hturn : (Turn.lookup handle >>= g) w =
      g (sc.process.byHandle[handle]?.bind (sc.process.bySlot[·]?)) w := by
    rw [← hm.process.byHandle, ← hm.process.bySlot]
    exact Turn.bind_eq rfl
  have hrun : runOn (lookup handle >>= f) sc =
      runOn (f (sc.process.byHandle[handle]?.bind (sc.process.bySlot[·]?))) sc := rfl
  rw [hturn] at hbound ⊢
  rw [hrun]
  rcases hv : sc.process.byHandle[handle]?.bind (sc.process.bySlot[·]?) with _ | v
  · rw [hv] at hbound
    exact hnone destroys sc w hm hbound
  · rw [hv] at hbound
    obtain ⟨slot, -, hslot⟩ := Option.bind_eq_some_iff.1 hv
    have hknows : sc.process.Knows v := by
      unfold Process.Knows
      rw [(hm.process.sound.bySlot slot v hslot).1]
      exact hslot
    have hm' : sc.Mirrors (v :: known) destroys w :=
      ⟨hm.process, hm.thread, hm.events, List.forall_mem_cons.2 ⟨hknows, hm.known⟩⟩
    obtain ⟨hresult, hend⟩ := hsome v destroys sc w hm' hbound
    exact ⟨hresult, weaken (fun _ => List.mem_cons_of_mem v) hend⟩

section

variable {enter : Enter} {enter' : Script → Turn (Option Value)}
  (henter : ∀ known script, script.Plain → Refines known id (enter script) (enter' script))

include henter in
theorem withIn {v : Variable} (hv : v ∈ known) (i : TableId) {body : Option (Value → Script)}
    (hbody : ∀ b, body = some b → ∀ value, (b value).Plain) :
    Refines known id (v.withIn enter i body) (Turn.withValue enter' v i body) := by
  refine bind (getIn hv enter i) fun value => ?_
  rcases body with _ | b
  · exact pure value
  · exact bind (henter known (b value) (hbody b rfl value)) fun _ => pure value

include henter in
theorem access {v : Variable} (hv : v ∈ known) (place : Place) {op : Access}
    (hbody : ∀ body, op = .withValue (some body) → ∀ value, (body value).Plain) :
    Refines known Reply.shown (op.run enter v place) (Turn.access enter' v place op) := by
  cases op with
  | get =>
    exact bind_some (resolve place) fun i =>
      bind (getIn hv enter i) fun value => reply (.value value)
  | withValue body =>
    refine bind_some (resolve place) fun i =>
      bind (withIn henter hv i ?_) fun value => reply (.value value)
    rintro b rfl
    exact hbody b rfl
  | set value =>
    exact bind_some (resolve place) fun i =>
      bind (setIn hv i (v.kind.kind_read value)) fun _ => reply .done
  | replace value =>
    exact bind_some (resolve place) fun i =>
      bind (replaceIn hv i (v.kind.kind_read value)) fun old => reply (.previous old)
  | store entry =>
    exact bind_some (resolve place) fun i =>
      bind (storeIn hv enter i entry) fun _ => reply .done
  | take =>
    exact bind_some (resolve? place) fun i =>
      bind (takeIn hv i) fun old => reply (.previous old)
  | remove =>
    exact bind_some (resolve? place) fun i =>
      bind (removeIn hv enter i) fun _ => reply .done
  | isSet =>
    exact bind_some (resolve? place) fun i =>
      bind (isSetIn hv i) fun set => reply (.flag set)

end

/-! ## The thread's own storage -/

theorem clearThread (enter : Enter) :
    Refines known id (ThreadSlots.clearThread enter) Turn.clear := by
  refine bind (clearTable enter) fun cleared => ?_
  cases cleared with
  | false => exact pure ()
  | true => exact discard

theorem liveCount : Refines known id ThreadSlots.liveCount Turn.liveCount := by
  refine bind current? fun i => ?_
  rcases i with _ | i
  · exact pure 0
  · refine of_runOn fun destroys sc w hm => ⟨(sc.thread.table i).live.size, ?_, ?_⟩
    · rcases hset : ((sc.thread.table i).get? reservedSlot).bind Cell.liveSet? with _ | set
      all_goals simp [hset, Table.live]
    · rw [(hm.thread.tables i).size_live]
      rfl

theorem upkeep (enter : Enter) (op : Upkeep) :
    Refines known Reply.shown (op.run enter) (Turn.upkeep op) := by
  cases op with
  | clear => exact bind (clearThread enter) fun _ => reply .done
  | destroy => exact bind destroy fun _ => reply .done
  | discard => exact bind discard fun _ => reply .done
  | isCarrying => exact bind isCarrying fun carrying => reply (.flag carrying)
  | liveCount => exact bind liveCount fun n => reply (.number n)
  | hasTable => exact bind current? fun i => reply (.flag i.isSome)
  | threadName =>
    refine of_runOn fun destroys sc w hm => ⟨.name sc.thread.label, rfl, ?_⟩
    rw [← hm.thread.label]
    rfl
  | adopt name =>
    refine bind adopt fun i => bind (bindTable name i) fun _ => bind isCarrying fun carrying => ?_
    exact of_runOn fun destroys sc w hm => ⟨_, rfl, rfl⟩
  | adoptSize =>
    refine bind adopt fun i => bind isCarrying fun carrying => ?_
    refine of_runOn fun destroys sc w hm => ⟨_, rfl, ?_⟩
    rw [(hm.thread.tables i).size_eq hm.process.sound]
    rfl
  | release name =>
    refine bind release fun i => ?_
    rcases i with _ | i
    · exact reply (.flag false)
    · exact bind (bindTable name i) fun _ => reply (.flag true)

end Refines

/-! ## New variables -/

/-- The process once a pure variable was made is what the threads share then. -/
theorem Process.Mirrors.enrolled {p : Process} {destroys : Nat} {s : Shared}
    (hp : p.Mirrors destroys s) {v : Variable} (hv : v.Pure) (hsound : (p.enrolled v).Sound) :
    (p.enrolled v).Mirrors destroys (s.enrolled v) where
  sound := hsound
  pure slot u hu := by
    replace hu : (p.bySlot.insert p.supply.next v)[slot]? = some u := hu
    rw [ExtTreeMap.getElem?_insert] at hu
    split at hu
    · cases hu
      exact hv
    · exact hp.pure slot u hu
  supply := by rw [Shared.enrolled, hp.supply]; rfl
  bySlot := by rw [Shared.enrolled, hp.supply, hp.bySlot]; rfl
  byHandle := by rw [Shared.enrolled, hp.supply, hp.byHandle, hp.nextHandle]; rfl
  nextHandle := by rw [Shared.enrolled, hp.nextHandle]; rfl
  draws := hp.draws
  policy := hp.policy
  epoch := hp.epoch
  bound := hp.bound

namespace Refines

variable {known : List Variable}

theorem declare (enter : Enter) (kind : Kind) {initial : Initializer} {hook : Option Hook}
    (hinitial : initial.Pure) (hhook : ∀ h, hook = some h → h.Pure) :
    Refines known Reply.shown (Command.run enter (.declare kind initial hook))
      (Turn.declare kind initial hook) := by
  intro destroys sc w hm _
  have hp := hm.process
  have hgrows := (Quiet.declare kind initial hook sc).process hp.sound
  have hrun := runOn_declare kind initial hook sc
  unfold Turn.declare SlotSupply.take Command.run
  rw [hp.supply, hp.nextHandle, runOn_bind]
  by_cases hslot : sc.process.supply.next ≤ maxSlot
  · rw [if_pos hslot] at hrun
    rw [hrun] at hgrows ⊢
    simp only [if_pos hslot]
    exact ⟨rfl, hp.enrolled ⟨hinitial, hhook⟩ hgrows.1, hm.thread.mono hgrows.2.knows, hm.events,
      fun v hv => hgrows.2.knows v (hm.known v hv)⟩
  · rw [if_neg hslot] at hrun
    rw [hrun] at hgrows ⊢
    simp only [if_neg hslot]
    have hprocess : { sc.process with nextHandle := sc.process.nextHandle + 1 }.Mirrors destroys
        { w.shared with nextHandle := sc.process.nextHandle + 1 } :=
      ⟨hgrows.1, hp.pure, hp.supply, hp.bySlot, hp.byHandle, rfl, hp.draws, hp.policy, hp.epoch,
        hp.bound⟩
    exact ⟨rfl, hprocess, hm.thread.mono hgrows.2.knows, hm.events,
      fun v hv => hgrows.2.knows v (hm.known v hv)⟩

/-! ## Commands and scripts -/

section

variable {enter : Enter} {enter' : Script → Turn (Option Value)}
  (henter : ∀ known script, script.Plain → Refines known id (enter script) (enter' script))

include henter in
theorem command {c : Command} (hc : c.Plain) :
    Refines known Reply.shown (c.run enter) (Turn.command enter' c) := by
  cases hc with
  | declare kind hinitial hhook => exact declare enter kind hinitial hhook
  | access handle place hbody =>
    exact lookup_bind (reply .noVariable) fun v => access henter List.mem_cons_self place hbody
  | onThread op => exact upkeep enter op
  | newTable name policy =>
    have htail : ∀ i, Refines known Reply.shown (do
        preload i []
        ThreadSlots.bindTable name i
        return Reply.done) (do
          Turn.bindName name i
          return Reply.done) :=
      fun i => bind_quiet (fun sc => .of_runOn (runOn_pure sc ()))
        (bind (bindTable name i) fun _ => reply .done)
    rcases policy with _ | policy
    · exact bind freshTable htail
    · exact bind (newTable policy) htail

include henter in
theorem perform {c : Command} (hc : c.Plain) :
    Refines known Reply.shown (ThreadSlots.perform enter c) (Turn.perform enter' c) := by
  intro destroys sc w hm hbound
  have hx := command henter hc destroys sc w hm
  unfold Turn.perform at hbound ⊢
  unfold ThreadSlots.perform
  rw [runOn_tryCatch]
  rcases hy : Turn.command enter' c w with ⟨result, w', n⟩
  rw [hy] at hx
  simp only [hy] at hbound ⊢
  rcases hr : runOn (c.run enter) sc with ⟨stop | a, sc'⟩
  · rw [hr] at hx
    rcases result with (e | message) | b
    · obtain ⟨hresult, hm'⟩ := hx hbound
      cases hresult
      exact ⟨rfl, hm'⟩
    · obtain ⟨hresult, hm'⟩ := hx hbound
      cases hresult
      exact ⟨rfl, hm'⟩
    · obtain ⟨hresult, -⟩ := hx hbound
      cases hresult
  · rw [hr] at hx
    rcases result with (e | message) | b
    · obtain ⟨hresult, -⟩ := hx hbound
      cases hresult
    · obtain ⟨hresult, -⟩ := hx hbound
      cases hresult
    · exact hx hbound

theorem caught {α β : Type} {view : α → β} {x : Storage α} {y : Turn β}
    (h : Refines known view x y) : Refines known (Except.map view) (Storage.caught x) y.caught := by
  intro destroys sc w hm
  have hx := h destroys sc w hm
  unfold Turn.caught
  rw [runOn_caught]
  generalize y w = turned at hx
  generalize runOn x sc = ended at hx
  obtain ⟨result, w', n⟩ := turned
  obtain ⟨ended, sc'⟩ := ended
  rcases result with (e | message) | b
  all_goals
    intro hbound
    obtain ⟨hresult, hm'⟩ := hx hbound
    rcases ended with (e' | message') | a <;> cases hresult
    exact ⟨rfl, hm'⟩

theorem reportStep (name : String) (answer : Except String Reply) :
    Refines known id (ThreadSlots.reportStep name answer)
      (Turn.reportStep name (answer.map Reply.shown)) := by
  cases answer with
  | ok reply => exact emit (.stepped name reply)
  | error message => exact pure ()

include henter in
theorem script : ∀ {s : Script}, s.Plain → Refines known id (s.run enter) (Turn.script enter' s)
  | .done result, _ => pure result
  | .panic message, _ => panicWith message
  | .step name c next, hs => by
    cases hs with
    | step _ hc hnext hshown =>
      refine bind (caught (perform henter hc)) fun answer =>
        bind (reportStep name answer) fun _ => ?_
      have hnext' : next (answer.map Reply.shown) = next answer := by
        cases answer with
        | ok reply => exact (hshown reply).symm
        | error message => rfl
      rw [hnext']
      exact script (hnext answer)

end

end Refines

/-- Nested code does what the machine's nested code does. -/
theorem refines_enter (depth : Nat) (known : List Variable) (s : Script) (hs : s.Plain) :
    Refines known id (enter depth s) (Maps.enter depth s) := by
  induction depth generalizing known s with
  | zero => exact .bind (.emit .tooDeep) fun _ => .pure none
  | succ depth ih => exact .script ih hs

/-- Every plain command does what the machine's command does. -/
theorem refines_perform (depth : Nat) (known : List Variable) {c : Command} (hc : c.Plain) :
    Refines known Reply.shown (perform (enter depth) c) (Turn.perform (Maps.enter depth) c) :=
  .perform (refines_enter depth) hc

end ThreadSlots
