import Mathlib.Data.List.Nodup
import Mathlib.Logic.Function.Basic
import ThreadSlots.Proofs.Flow

/-!
# A value is in one place

If all values that are ever stored are distinct, each of them is in one slot of one table at most, and
one that has left its slot is nowhere any more, so it does not leave again. That is so for the values
of one thread while it runs (`Scene.Custody`), whatever nested code does meanwhile
(`Course.transfers`), and for those of all threads of a process (`Ledger`), where each visit to a
thread adds to what has come and what has left (`Ledger.visit_own`).
-/

namespace ThreadSlots

open Storage

/-- The value that has left its slot. -/
def Parting.value? : Parting → Option Value
  | .left _ _ value _ => some value
  | .emptied _ => none

/-- The values that have left their slots. -/
def departed (partings : List Parting) : List Value := partings.filterMap Parting.value?

theorem mem_departed {partings : List Parting} {x : Value} :
    x ∈ departed partings ↔ ∃ id slot fate, .left id slot x fate ∈ partings := by
  unfold departed
  rw [List.mem_filterMap]
  constructor
  · rintro ⟨⟨id, slot, y, fate⟩ | id, hmem, hvalue⟩
    · cases hvalue
      exact ⟨id, slot, fate, hmem⟩
    · cases hvalue
  · exact fun ⟨id, slot, fate, hmem⟩ => ⟨_, hmem, rfl⟩

theorem departed_append (later earlier : List Parting) :
    departed (later ++ earlier) = departed later ++ departed earlier :=
  List.filterMap_append ..

/-- The value was stored in the slot of some table. -/
def Came (arrivals : List Arrival) (slot : Nat) (x : Value) : Prop := ∃ id, ⟨id, slot, x⟩ ∈ arrivals

theorem Came.mono {arrivals arrivals' : List Arrival} (h : arrivals ⊆ arrivals') {slot : Nat}
    {x : Value} : Came arrivals slot x → Came arrivals' slot x :=
  fun ⟨id, hmem⟩ => ⟨id, h hmem⟩

theorem Came.mem_map {arrivals : List Arrival} {slot : Nat} {x : Value} :
    Came arrivals slot x → x ∈ arrivals.map (·.value) :=
  fun ⟨_, hmem⟩ => List.mem_map.2 ⟨_, hmem, rfl⟩

/-! ## One thread -/

/-- Given the values that were stored before and those that are out of the thread's reach, a value of
the thread is in one slot of one table, or it has left, once. -/
structure Scene.Custody (old : List Arrival) (Foreign : Value → Prop) (sc : Scene) : Prop where
  foreign : ∀ x, Foreign x → ∃ slot, Came old slot x
  cell : ∀ id slot x, sc.thread.Has id slot x →
    Came (old ++ sc.arrivals) slot x ∧ ¬ Foreign x ∧ x ∉ departed sc.partings
  unique : ∀ id slot id' slot' x, sc.thread.Has id slot x → sc.thread.Has id' slot' x →
    id = id' ∧ slot = slot'
  once : (departed sc.partings).Nodup
  left : ∀ id slot x fate, .left id slot x fate ∈ sc.partings →
    Came (old ++ sc.arrivals) slot x ∧ ¬ Foreign x
  hooked : ∀ id slot x handle, .left id slot x (.hooked handle) ∈ sc.partings →
    ∃ v, sc.process.Knows v ∧ v.slot = slot ∧ v.handle = handle ∧ v.onRemoval.isSome

/-- A value is kept in custody from one scene to the next, if what is stored meanwhile is new. -/
def Scene.Transfers (sc sc' : Scene) : Prop :=
  sc.arrivals <:+ sc'.arrivals ∧ ∀ old Foreign,
    ((old ++ sc'.arrivals).map (·.value)).Nodup → sc.Custody old Foreign → sc'.Custody old Foreign

namespace Scene.Transfers

variable {sc sc' sc'' : Scene}

theorem refl (sc : Scene) : sc.Transfers sc := ⟨List.suffix_refl _, fun _ _ _ => id⟩

theorem trans (h : sc.Transfers sc') (h' : sc'.Transfers sc'') : sc.Transfers sc'' := by
  refine ⟨h.1.trans h'.1, fun old Foreign hnodup hc => ?_⟩
  have hsub : (old ++ sc'.arrivals).Sublist (old ++ sc''.arrivals) :=
    List.Sublist.append_left h'.1.sublist old
  exact h'.2 old Foreign hnodup (h.2 old Foreign (hnodup.sublist (hsub.map _)) hc)

/-- Nothing has come in or left. -/
theorem of_eq (htables : sc'.thread.tables = sc.thread.tables)
    (harrivals : sc'.arrivals = sc.arrivals) (hpartings : sc'.partings = sc.partings)
    (hknows : ∀ v, sc.process.Knows v → sc'.process.Knows v) : sc.Transfers sc' := by
  have hhas : ∀ id slot x, sc'.thread.Has id slot x → sc.thread.Has id slot x := by
    intro id slot x h
    unfold Thread.Has Thread.table at *
    rwa [htables] at h
  refine ⟨harrivals ▸ List.suffix_refl _, fun old Foreign _ hc => ?_⟩
  constructor
  case foreign => exact hc.foreign
  case cell =>
    rw [harrivals, hpartings]
    exact fun id slot x h => hc.cell id slot x (hhas id slot x h)
  case unique =>
    exact fun id slot id' slot' x h h' => hc.unique id slot id' slot' x (hhas _ _ _ h) (hhas _ _ _ h')
  case once => exact hpartings ▸ hc.once
  case left =>
    rw [harrivals, hpartings]
    exact hc.left
  case hooked =>
    rw [hpartings]
    intro id slot x handle hmem
    obtain ⟨v, hv, hfacts⟩ := hc.hooked id slot x handle hmem
    exact ⟨v, hknows v hv, hfacts⟩

end Scene.Transfers

/-- What comes in had not come before, and every value comes in once. -/
structure Fresh (before news : List Arrival) : Prop where
  once : (news.map (·.value)).Nodup
  new : ∀ id slot x, ⟨id, slot, x⟩ ∈ news → ∀ slot', ¬ Came before slot' x

theorem Fresh.of_nodup {old news arrivals : List Arrival}
    (h : ((old ++ (news ++ arrivals)).map (·.value)).Nodup) : Fresh (old ++ arrivals) news := by
  have hperm : (old ++ (news ++ arrivals)).Perm (news ++ (old ++ arrivals)) := by
    rw [← List.append_assoc, ← List.append_assoc]
    exact List.perm_append_comm.append_right _
  rw [(hperm.map _).nodup_iff, List.map_append, List.nodup_append'] at h
  exact ⟨h.1, fun id slot x hmem slot' hcame =>
    h.2.2 (List.mem_map.2 ⟨_, hmem, rfl⟩) hcame.mem_map⟩

namespace Flow

variable {sc sc' : Scene} {news : List Arrival} {parted : List Parting}
  {old : List Arrival} {Foreign : Value → Prop} {id id' : TableId} {slot slot' : Nat} {x : Value}
  (h : Flow sc sc' news parted)

include h

theorem came (hcame : Came (old ++ sc.arrivals) slot x) : Came (old ++ sc'.arrivals) slot x := by
  rw [h.arrivals]
  exact hcame.mono (List.append_subset.2 ⟨List.subset_append_left _ _,
    fun a ha => List.mem_append_right _ (List.mem_append_right _ ha)⟩)

theorem came_of_mem (hmem : ⟨id, slot, x⟩ ∈ news) : Came (old ++ sc'.arrivals) slot x := by
  rw [h.arrivals]
  exact ⟨id, List.mem_append_right _ (List.mem_append_left _ hmem)⟩

/-- What leaves was in a slot. -/
theorem has_of_departed (hx : x ∈ departed parted) :
    ∃ id slot fate, .left id slot x fate ∈ parted ∧ sc.thread.Has id slot x := by
  obtain ⟨id, slot, fate, hmem⟩ := mem_departed.1 hx
  exact ⟨id, slot, fate, hmem, h.left id slot x fate hmem⟩

variable (hc : sc.Custody old Foreign) (hfresh : Fresh (old ++ sc.arrivals) news)

include hc hfresh

/-- A value that is in a slot now has come, and it has not left. -/
theorem cell (hx : sc'.thread.Has id slot x) :
    Came (old ++ sc'.arrivals) slot x ∧ ¬ Foreign x ∧ x ∉ departed sc'.partings := by
  rw [h.partings, departed_append, List.mem_append, not_or]
  rcases h.has id slot x hx with ⟨hold, hstays⟩ | hmem
  · obtain ⟨hcame, hnot, hgone⟩ := hc.cell id slot x hold
    refine ⟨h.came hcame, hnot, fun hleft => ?_, hgone⟩
    obtain ⟨id', slot', fate, hmem, hhas⟩ := h.has_of_departed hleft
    obtain ⟨rfl, rfl⟩ := hc.unique id slot id' slot' x hold hhas
    exact hstays fate hmem
  · have hnew := hfresh.new id slot x hmem
    refine ⟨h.came_of_mem hmem, fun hforeign => ?_, fun hleft => ?_, fun hgone => ?_⟩
    · obtain ⟨slot', hcame⟩ := hc.foreign x hforeign
      exact hnew slot' (hcame.mono (List.subset_append_left _ _))
    · obtain ⟨id', slot', -, -, hhas⟩ := h.has_of_departed hleft
      exact hnew slot' (hc.cell id' slot' x hhas).1
    · obtain ⟨id', slot', fate, hmem'⟩ := mem_departed.1 hgone
      exact hnew slot' (hc.left id' slot' x fate hmem').1

theorem unique (hx : sc'.thread.Has id slot x) (hx' : sc'.thread.Has id' slot' x) :
    id = id' ∧ slot = slot' := by
  rcases h.has id slot x hx with ⟨hold, -⟩ | hmem <;>
    rcases h.has id' slot' x hx' with ⟨hold', -⟩ | hmem'
  · exact hc.unique id slot id' slot' x hold hold'
  · exact absurd (hc.cell id slot x hold).1 (hfresh.new id' slot' x hmem' slot)
  · exact absurd (hc.cell id' slot' x hold').1 (hfresh.new id slot x hmem slot')
  · have he := List.inj_on_of_nodup_map hfresh.once hmem hmem' rfl
    simp only [Arrival.mk.injEq] at he
    exact ⟨he.1, he.2.1⟩

omit hfresh in
theorem departed_once : (departed sc'.partings).Nodup := by
  rw [h.partings, departed_append, List.nodup_append']
  refine ⟨?_, hc.once, fun x hx hgone => ?_⟩
  · have hlength : (departed parted).length ≤ 1 :=
      Nat.le_trans (List.length_filterMap_le _ _) h.once
    match departed parted, hlength with
    | [], _ => exact List.nodup_nil
    | [x], _ => exact List.nodup_singleton x
  · obtain ⟨id, slot, -, -, hhas⟩ := h.has_of_departed hx
    exact (hc.cell id slot x hhas).2.2 hgone

omit hc hfresh in
/-- What comes in was nowhere before, and what leaves was in one place. -/
theorem transfers (hknows : ∀ v, sc.process.Knows v → sc'.process.Knows v) :
    sc.Transfers sc' := by
  refine ⟨⟨news, h.arrivals.symm⟩, fun old Foreign hnodup hc => ?_⟩
  rw [h.arrivals] at hnodup
  have hfresh := Fresh.of_nodup hnodup
  refine ⟨hc.foreign, fun _ _ _ => h.cell hc hfresh, fun _ _ _ _ _ => h.unique hc hfresh,
    h.departed_once hc, fun id slot x fate hmem => ?_, fun id slot x handle hmem => ?_⟩
  · rw [h.partings, List.mem_append] at hmem
    rcases hmem with hmem | hmem
    · obtain ⟨hcame, hnot, -⟩ := hc.cell id slot x (h.left id slot x fate hmem)
      exact ⟨h.came hcame, hnot⟩
    · exact (hc.left id slot x fate hmem).imp_left h.came
  · rw [h.partings, List.mem_append] at hmem
    have hv : ∃ v, sc.process.Knows v ∧ v.slot = slot ∧ v.handle = handle ∧ v.onRemoval.isSome :=
      hmem.elim (h.hooked id slot x handle) (hc.hooked id slot x handle)
    obtain ⟨v, hv, hfacts⟩ := hv
    exact ⟨v, hknows v hv, hfacts⟩

end Flow

/-- Whatever a thread does, and nested code with it, each value stays in one place. -/
theorem Course.transfers {busy : List TableId} {sc sc' : Scene} (h : Course busy sc sc')
    (hs : sc.Sound) : sc.Transfers sc' := by
  induction h with
  | rest => exact .refl _
  | @move _ sc sc' sc'' h hm ih =>
    have hs' : sc'.Sound := h.sound hs
    obtain ⟨news, parted, hflow⟩ := hm.exists_flow
    exact (ih hs).trans (hflow.transfers (hm.grows hs'.process).2.knows)
  | pass h _ _ _ ih ihpass => exact (ih hs).trans (ihpass (h.sound hs))
  | interrupt h _ _ ih ihpass =>
    exact ((ih hs).trans (ihpass (h.sound hs))).trans (.of_eq rfl rfl rfl fun _ => id)

/-! ## All threads -/

/-- Given what has come and what has left, a value of a thread is in one slot of one table of one
thread, or it has left, once. -/
structure Ledger (p : Process) (threads : String → Option Thread) (old : List Arrival)
    (gone : List Parting) : Prop where
  cell : ∀ name t, threads name = some t → ∀ id slot x, t.Has id slot x →
    Came old slot x ∧ x ∉ departed gone
  unique : ∀ name t name' t', threads name = some t → threads name' = some t' →
    ∀ id slot id' slot' x, t.Has id slot x → t'.Has id' slot' x →
    name = name' ∧ id = id' ∧ slot = slot'
  once : (departed gone).Nodup
  left : ∀ id slot x fate, .left id slot x fate ∈ gone → Came old slot x
  hooked : ∀ id slot x handle, .left id slot x (.hooked handle) ∈ gone →
    ∃ v, p.Knows v ∧ v.slot = slot ∧ v.handle = handle ∧ v.onRemoval.isSome

namespace Ledger

variable {p : Process} {threads threads' : String → Option Thread} {old : List Arrival}
  {gone : List Parting}

theorem mono {p' : Process} (h : Ledger p threads old gone)
    (hknows : ∀ v, p.Knows v → p'.Knows v) : Ledger p' threads old gone where
  cell := h.cell
  unique := h.unique
  once := h.once
  left := h.left
  hooked id slot x handle hmem := by
    obtain ⟨v, hv, hfacts⟩ := h.hooked id slot x handle hmem
    exact ⟨v, hknows v hv, hfacts⟩

/-- The values that have left or that the given threads have. -/
def Elsewhere (others : String → Option Thread) (gone : List Parting) (x : Value) : Prop :=
  x ∈ departed gone ∨ ∃ name t id slot, others name = some t ∧ t.Has id slot x

section

variable (h : Ledger p threads old gone) {others : String → Option Thread}
  (hothers : ∀ name t, others name = some t → threads name = some t) {name : String} {t : Thread}
  (hown : ∀ id slot x, t.Has id slot x → threads name = some t ∧ others name = none)

include h hothers hown

/-- A thread has its values for itself. -/
theorem custody : Scene.Custody old (Elsewhere others gone) { process := p, thread := t } where
  foreign x := by
    rintro (hx | ⟨name', t', id, slot, ht', hhas⟩)
    · obtain ⟨id, slot, fate, hmem⟩ := mem_departed.1 hx
      exact ⟨slot, h.left id slot x fate hmem⟩
    · exact ⟨slot, (h.cell name' t' (hothers name' t' ht') id slot x hhas).1⟩
  cell id slot x hx := by
    obtain ⟨ht, hnone⟩ := hown id slot x hx
    obtain ⟨hcame, hgone⟩ := h.cell name t ht id slot x hx
    rw [List.append_nil]
    refine ⟨hcame, ?_, by simp [departed]⟩
    rintro (hx' | ⟨name', t', id', slot', ht', hhas⟩)
    · exact hgone hx'
    · obtain ⟨rfl, -⟩ :=
        h.unique name' t' name t (hothers name' t' ht') ht id' slot' id slot x hhas hx
      rw [hnone] at ht'
      cases ht'
  unique id slot id' slot' x hx hx' := by
    obtain ⟨ht, -⟩ := hown id slot x hx
    exact (h.unique name t name t ht ht id slot id' slot' x hx hx').2
  once := List.nodup_nil
  left _ _ _ _ hmem := by cases hmem
  hooked _ _ _ _ hmem := by cases hmem

/-- After a thread has done something, what has come and what has left there is added. -/
theorem visit {sc : Scene} (htransfers : Scene.Transfers { process := p, thread := t } sc)
    (hknows : ∀ v, p.Knows v → sc.process.Knows v)
    (hnodup : ((old ++ sc.arrivals).map (·.value)).Nodup)
    (hthreads : ∀ n u, threads' n = some u → others n = some u ∨ n = name ∧ u = sc.thread) :
    Ledger sc.process threads' (old ++ sc.arrivals) (gone ++ sc.partings) := by
  have hc := htransfers.2 old _ hnodup (h.custody hothers hown)
  have hsub : old ⊆ old ++ sc.arrivals := List.subset_append_left _ _
  constructor
  case cell =>
    intro n u hu id slot x hx
    rw [departed_append, List.mem_append, not_or]
    rcases hthreads n u hu with hold | ⟨rfl, rfl⟩
    · obtain ⟨hcame, hgone⟩ := h.cell n u (hothers n u hold) id slot x hx
      refine ⟨hcame.mono hsub, hgone, fun hleft => ?_⟩
      obtain ⟨id', slot', fate, hmem⟩ := mem_departed.1 hleft
      exact (hc.left id' slot' x fate hmem).2 (.inr ⟨n, u, id, slot, hold, hx⟩)
    · obtain ⟨hcame, hnot, hleft⟩ := hc.cell id slot x hx
      exact ⟨hcame, fun hgone => hnot (.inl hgone), hleft⟩
  case unique =>
    intro a ta b tb ha hb id slot id' slot' x hx hx'
    rcases hthreads a ta ha with hold | ⟨rfl, rfl⟩ <;>
      rcases hthreads b tb hb with hold' | ⟨rfl, rfl⟩
    · exact h.unique a ta b tb (hothers a ta hold) (hothers b tb hold') id slot id' slot' x hx hx'
    · exact absurd (.inr ⟨a, ta, id, slot, hold, hx⟩) (hc.cell id' slot' x hx').2.1
    · exact absurd (.inr ⟨b, tb, id', slot', hold', hx'⟩) (hc.cell id slot x hx).2.1
    · exact ⟨rfl, hc.unique id slot id' slot' x hx hx'⟩
  case once =>
    rw [departed_append, List.nodup_append']
    refine ⟨h.once, hc.once, fun x hgone hleft => ?_⟩
    obtain ⟨id, slot, fate, hmem⟩ := mem_departed.1 hleft
    exact (hc.left id slot x fate hmem).2 (.inl hgone)
  case left =>
    intro id slot x fate hmem
    rcases List.mem_append.1 hmem with hmem | hmem
    · exact (h.left id slot x fate hmem).mono hsub
    · exact (hc.left id slot x fate hmem).1
  case hooked =>
    intro id slot x handle hmem
    rcases List.mem_append.1 hmem with hmem | hmem
    · exact (h.mono hknows).hooked id slot x handle hmem
    · exact hc.hooked id slot x handle hmem

end

/-- After one of the threads has done something, it is in its new state or has ended. -/
theorem visit_own (h : Ledger p threads old gone) {name : String} {t : Thread}
    (ht : threads name = some t) {sc : Scene}
    (htransfers : Scene.Transfers { process := p, thread := t } sc)
    (hknows : ∀ v, p.Knows v → sc.process.Knows v)
    (hnodup : ((old ++ sc.arrivals).map (·.value)).Nodup)
    (hthreads : ∀ n u, threads' n = some u →
      n ≠ name ∧ threads n = some u ∨ n = name ∧ u = sc.thread) :
    Ledger sc.process threads' (old ++ sc.arrivals) (gone ++ sc.partings) := by
  have hothers : ∀ n u, Function.update threads name none n = some u → threads n = some u := by
    intro n u hu
    by_cases hn : n = name
    · subst hn
      rw [Function.update_self] at hu
      cases hu
    · rwa [Function.update_of_ne hn] at hu
  refine h.visit hothers (fun _ _ _ _ => ⟨ht, Function.update_self ..⟩) htransfers hknows hnodup
    fun n u hu => ?_
  rcases hthreads n u hu with ⟨hn, hu⟩ | hu
  · exact .inl (by rwa [Function.update_of_ne hn])
  · exact .inr hu

end Ledger

end ThreadSlots
