import ThreadSlots.Proofs.Bare.Operations

/-!
# Commands of a thread whose thread-locals are destroyed

Such a thread finds no table, carries none, and works in a new one whenever an operation needs a table.
So every command about its own storage amounts to the turn of the machine (`Bare.AmountsTo`), with
whatever nested code it runs, and so do commands one after the other (`Bare.answers_runLate`).
-/

namespace ThreadSlots

open Storage

namespace Bare

/-! ## The thread's own storage -/

section

variable {given : Given} {sc : Scene} (hsc : sc.Bereft given)

include hsc

/-- The table that an operation works on is made for it. -/
theorem matches_resolve {f : TableId → Storage Reply} {y : Turn Reply}
    (hf : ∀ id (sc₁ : Scene), sc₁.Bereft given → sc₁.Spare given id → Matches id (f id) y sc₁) :
    Matches sc.thread.nextTable (do
      let some id ← Place.ambient.resolve | return .noTable
      f id) y sc := by
  have hresolve : runOn Place.ambient.resolve sc = (.ok (some sc.thread.nextTable), sc.makeBlank) := by
    unfold Place.resolve
    rw [runOn_map, runOn_current, hsc.own?, (hsc.idle (.makeBlank sc)).keep]
  exact .bind_idle hresolve rfl (.makeBlank sc)
    (hf _ _ (hsc.idle (.makeBlank sc)) hsc.spare_makeBlank)

theorem runOn_current?_eq : runOn current? sc = (.ok none, sc) := by
  rw [runOn_current?, hsc.own?]
  exact congrArg _ hsc.dropFallback

/-- The thread has no table to look at. -/
theorem matches_resolve? {f : TableId → Storage Reply} (reply : Reply) :
    Matches sc.thread.nextTable (do
      let some id ← Place.ambient.resolve? | return reply
      f id) (pure reply) sc :=
  .bind_like (runOn_current?_eq hsc) (.refl sc) (.pure reply)

theorem matches_access {enter : Enter} {enter' : Script → Turn (Option Value)} {v : Variable}
    (henter : ∀ s : Script, s.Only Command.IsOwn → AmountsTo given (enter s) (enter' s))
    (hv : v.slot ≤ maxSlot) (hnested : ∀ s, v.initial.nested = some s → s.Only Command.IsOwn)
    {op : Access} (hbody : ∀ b, op = .withValue (some b) → ∀ x, (b x).Only Command.IsOwn) :
    Matches sc.thread.nextTable (op.run enter v .ambient) (Turn.access given enter' v op) sc := by
  cases op with
  | get =>
    exact matches_resolve hsc fun id sc₁ hsc₁ hid =>
      (matches_getIn hid hv henter hsc₁ hnested).bind fun x _ _ => .pure (Reply.value x)
  | withValue body =>
    refine matches_resolve hsc fun id sc₁ hsc₁ hid => .bind (matches_withIn hid hv henter hsc₁ hnested ?_)
      fun x _ _ => .pure (Reply.value x)
    exact fun b hb => hbody b (by rw [hb])
  | set value =>
    exact matches_resolve hsc fun id sc₁ _ hid =>
      .bind_pure (matches_setIn hid hv (v.kind.read value)) fun _ _ => .pure Reply.done
  | replace value =>
    exact matches_resolve hsc fun id sc₁ _ hid =>
      .bind_pure (matches_replaceIn hid hv (v.kind.read value)) fun _ _ => .pure (Reply.previous none)
  | store entry =>
    refine matches_resolve hsc fun id sc₁ _ hid => ?_
    cases entry with
    | some value =>
      exact .bind_pure (matches_storeIn_some hid hv enter (v.kind.read value)) fun _ _ =>
        .pure Reply.done
    | none => exact matches_store_none hid enter
  | take => exact matches_resolve? hsc (.previous none)
  | remove => exact matches_resolve? hsc .done
  | isSet => exact matches_resolve? hsc (.flag false)

theorem runOn_isCarrying_eq : runOn isCarrying sc = (.ok false, sc) := by
  unfold isCarrying
  rw [runOn_bind, runOn_carried?, hsc.carried?, hsc.useCarried]
  rfl

/-- A table that is adopted is new. -/
theorem runOn_adopt_eq : runOn adopt sc = (.ok sc.thread.nextTable, sc.makeBlank) := by
  rw [runOn_adopt, hsc.carried?, hsc.own?]
  exact congrArg _ ((hsc.idle (.makeBlank sc)).carry _)

theorem matches_upkeep (enter : Enter) {op : Upkeep} (hop : op ≠ .destroy) :
    Matches sc.thread.nextTable (op.run enter) (pure (Turn.upkeep given op)) sc := by
  cases op with
  | destroy => exact absurd rfl hop
  | clear =>
    have hclear : runOn (ThreadSlots.clearThread enter) sc = (.ok (), sc.unwatched) := by
      unfold ThreadSlots.clearThread
      rw [runOn_bind, runOn_clearTable, hsc.own?]
      exact congrArg _ (hsc.idle (.of_like 0 sc.like_unwatched)).dropFallback
    exact .bind_like hclear sc.like_unwatched (.pure Reply.done)
  | discard =>
    have hdiscard : runOn Storage.discard sc = (.ok (), sc) := by
      rw [runOn_discard, hsc.carried?]
      exact congrArg _ hsc.dropFallback
    exact .bind_like hdiscard (.refl sc) (.pure Reply.done)
  | isCarrying => exact .bind_like (runOn_isCarrying_eq hsc) (.refl sc) (.pure (Reply.flag false))
  | liveCount =>
    have hcount : runOn ThreadSlots.liveCount sc = (.ok 0, sc) := by
      unfold ThreadSlots.liveCount
      rw [runOn_bind, runOn_current?_eq hsc]
      rfl
    exact .bind_like hcount (.refl sc) (.pure (Reply.number 0))
  | hasTable => exact .bind_like (runOn_current?_eq hsc) (.refl sc) (.pure (Reply.flag false))
  | threadName =>
    rw [← hsc.given]
    exact .of_runOn rfl
  | adopt name =>
    have hmade := hsc.idle (.makeBlank sc)
    have hnamed : ∀ n, sc.makeBlank.Idle n _ := fun n => .bind n _ name sc.thread.nextTable
    refine .bind_idle (runOn_adopt_eq hsc) rfl (.makeBlank sc) ?_
    refine .bind_idle rfl rfl (hnamed _) ?_
    refine .bind_like (runOn_isCarrying_eq (hmade.idle (hnamed 0))) (.refl _) ?_
    refine .bind_like (runOn_table _ _) (.refl _) ?_
    rw [(hsc.spare_makeBlank.idle (Nat.lt_succ_self _) (hnamed _)).blank]
    exact .pure (Reply.adopted false _)
  | adoptSize =>
    have hmade := hsc.idle (.makeBlank sc)
    refine .bind_idle (runOn_adopt_eq hsc) rfl (.makeBlank sc) ?_
    refine .bind_like (runOn_isCarrying_eq hmade) (.refl _) ?_
    refine .bind_like (runOn_table _ _) (.refl _) ?_
    rw [hsc.spare_makeBlank.blank]
    exact .pure (Reply.adoptedSize false 0)
  | release name =>
    have hrelease : runOn Storage.release sc = (.ok none, sc) := by
      rw [runOn_release, hsc.carried?, hsc.released]
    exact .bind_like hrelease (.refl sc) (.pure (Reply.flag false))

end

/-! ## Commands and scripts -/

section

variable {given : Given} {enter : Enter} {enter' : Script → Turn (Option Value)}
  (henter : ∀ s : Script, s.Only Command.IsOwn → AmountsTo given (enter s) (enter' s))

include henter

theorem amountsTo_command {c : Command} (hc : Command.Only Command.IsOwn c) :
    AmountsTo given (c.run enter) (Turn.command given enter' c) := by
  intro sc hsc
  have hown := hc.holds
  cases c with
  | access handle place op =>
    cases place with
    | table name => exact hown.elim
    | ambient =>
      have hlookup : runOn (lookup handle) sc = (.ok (given.resolve? handle), sc) := by
        rw [← hsc.given]
        exact runOn_lookup handle sc
      refine .bind_like hlookup (.refl sc) ?_
      dsimp only [Turn.command]
      cases hv : given.resolve? handle with
      | none => exact .pure Reply.noVariable
      | some v =>
        refine matches_access hsc henter (hsc.slot_le hv) (fun s => hsc.only_initializer hv) ?_
        intro body hop x
        subst hop
        exact hc.nested (.body handle .ambient body x)
  | onThread op => exact matches_upkeep hsc enter hown
  | _ => exact hown.elim

theorem amountsTo_perform {c : Command} (hc : Command.Only Command.IsOwn c) :
    AmountsTo given (perform enter c) (Turn.perform given enter' c) := by
  intro sc hsc
  obtain ⟨sc', hrun, htrace, hidle⟩ := amountsTo_command henter hc sc hsc
  refine ⟨sc', ?_, ?_, hidle⟩
  all_goals
    unfold Turn.perform
    rcases hturn : Turn.command given enter' c sc.trace with ⟨(e | message) | reply, t⟩
    all_goals rw [hturn] at hrun htrace
  · unfold perform
    rw [runOn_tryCatch, hrun]
    rfl
  · unfold perform
    rw [runOn_tryCatch, hrun]
    rfl
  · unfold perform
    rw [runOn_tryCatch, hrun]
  all_goals exact htrace

theorem amountsTo_script : ∀ s : Script, s.Only Command.IsOwn →
    AmountsTo given (s.run enter) (Turn.script given enter' s)
  | .done result, _ => fun _ _ => .pure result
  | .panic _, _ => fun _ _ => .of_stop rfl
  | .step name c next, hs => by
    cases hs with
    | step _ hc hnext =>
      intro sc hsc
      refine .bind (.caught (amountsTo_perform henter hc sc hsc)) fun answer sc₁ hidle₁ => ?_
      refine .bind (.reportStep name answer) fun _ sc₂ hidle₂ => ?_
      have hidle := hidle₁.trans hidle₂
      exact (amountsTo_script (next answer) (hnext answer) sc₂ (hsc.idle hidle)).mono hidle.nextTable

end

/-- Nested code does what the machine's nested code does. -/
theorem amountsTo_enter (given : Given) (depth : Nat) {s : Script} (hs : s.Only Command.IsOwn) :
    AmountsTo given (ThreadSlots.enter depth s) (enter given depth s) := by
  induction depth generalizing s with
  | zero => exact fun _ _ => .bind (.emit rfl) fun _ _ _ => .pure none
  | succ depth ih => exact amountsTo_script (fun _ => ih) s hs

/-- The answers to commands one after the other are the machine's. -/
theorem answers_runLate {given : Given} (depth : Nat) {cs : List Command}
    (hcs : ∀ c ∈ cs, Command.Only Command.IsOwn c) {sc : Scene} (hsc : sc.Bereft given) :
    (Session.runLate depth sc cs).1 = (answers given depth sc.trace cs).1 ∧
      (Session.runLate depth sc cs).2.trace = (answers given depth sc.trace cs).2 ∧
      sc.Idle sc.thread.nextTable (Session.runLate depth sc cs).2 := by
  induction cs generalizing sc with
  | nil => exact ⟨rfl, rfl, .refl _ sc⟩
  | cons c cs ih =>
    obtain ⟨hc, hcs⟩ := List.forall_mem_cons.1 hcs
    obtain ⟨sc₁, hrun, htrace, hidle⟩ :=
      amountsTo_perform (fun _ => amountsTo_enter given depth) hc sc hsc
    obtain ⟨hanswers, htrace', hidle'⟩ := ih hcs (hsc.idle hidle)
    unfold Session.runLate answers
    rw [hrun]
    rw [htrace] at hanswers htrace'
    exact ⟨congrArg _ hanswers, htrace', hidle.trans (hidle'.mono hidle.nextTable)⟩

theorem answers_append (given : Given) (depth : Nat) (t : Trace) (cs cs' : List Command) :
    answers given depth t (cs ++ cs') =
      ((answers given depth t cs).1 ++ (answers given depth (answers given depth t cs).2 cs').1,
        (answers given depth (answers given depth t cs).2 cs').2) := by
  induction cs generalizing t with
  | nil => rfl
  | cons c cs ih => simp only [List.cons_append, answers, ih]

/-- What destructors answer, one after the other, is what the machine answers. -/
theorem answers_runDestructors {given : Given} (depth : Nat) {late : List Late}
    (hcs : ∀ c ∈ late.flatMap (·.commands), Command.Only Command.IsOwn c) {sc : Scene}
    (hsc : sc.Bereft given) :
    (Session.runDestructors depth sc late).1 =
        (answers given depth sc.trace (late.flatMap (·.commands))).1 ∧
      (Session.runDestructors depth sc late).2.trace =
        (answers given depth sc.trace (late.flatMap (·.commands))).2 ∧
      sc.Idle sc.thread.nextTable (Session.runDestructors depth sc late).2 := by
  induction late generalizing sc with
  | nil => exact ⟨rfl, rfl, .refl _ sc⟩
  | cons code late ih =>
    rw [List.flatMap_cons, List.forall_mem_append] at hcs
    have hunwound := hsc.idle_unwind sc.thread.nextTable (code.since + 1)
    obtain ⟨hcode, hcodeTrace, hcodeIdle⟩ := answers_runLate depth hcs.1 (hsc.idle hunwound)
    have hran := hunwound.trans (hcodeIdle.mono hunwound.nextTable)
    obtain ⟨hrest, hrestTrace, hrestIdle⟩ := ih hcs.2 (hsc.idle hran)
    rw [Scene.trace_unwind] at hcode hcodeTrace
    rw [hcodeTrace] at hrest hrestTrace
    rw [List.flatMap_cons, answers_append]
    exact ⟨congrArg₂ (· ++ ·) hcode hrest, hrestTrace, hran.trans (hrestIdle.mono hran.nextTable)⟩

end Bare

end ThreadSlots
