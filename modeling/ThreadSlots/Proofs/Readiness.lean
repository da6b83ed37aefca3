import ThreadSlots.Proofs.Typing

/-!
# Tables are ready to be read and written

Every table of a thread has a capacity that a new table grows to, so it can grow until it takes the
value of any variable; and a variable that a table lists as set has a value of its own type there,
also if the table was filled by hand (`Table.Ready`). No thread loses that (`keeps_ready`), so a
variable whose table agrees with its live set is either read without its initializer, or its initial
value can be stored.
-/

namespace ThreadSlots

open Std (ExtTreeMap)
open Storage

/-- The table can grow, and the variables that it lists as set have values of their types. -/
structure Table.Ready (t : SlotTable) : Prop where
  grown : t.Grown
  listed : ∀ slot v cell, slot ≠ reservedSlot → t.live[slot]? = some v →
    t.get? slot = some cell → ∃ value, cell = .value value ∧ value.kind = v.kind

namespace Table.Ready

variable {p : Process} {t : SlotTable} {v : Variable}

/-- A table without a live set need only be able to grow. -/
theorem of_live_empty (hg : t.Grown) (h : t.live = ∅) : t.Ready :=
  ⟨hg, fun slot v cell _ hv => by simp [h] at hv⟩

theorem blank (policy : SentinelPolicy) : ({ policy := policy } : SlotTable).Ready :=
  of_live_empty (Table.grown_mk policy) (by simp [Table.live])

theorem erase (h : t.Ready) (slot : Nat) : (t.erase slot).table.Ready := by
  by_cases hs : reservedSlot = slot
  · exact of_live_empty (h.grown.erase slot) (by simp [Table.live, Table.get?_erase, hs])
  · refine ⟨h.grown.erase slot, fun s v cell hne hv hcell => ?_⟩
    have hlive : (t.erase slot).table.live = t.live :=
      Table.live_congr (by rw [Table.get?_erase, if_neg hs])
    rw [Table.get?_erase] at hcell
    split at hcell
    · cases hcell
    · exact h.listed s v cell hne (hlive ▸ hv) hcell

theorem without (h : t.Ready) (hv : v.slot ≠ reservedSlot) : (t.without v).Ready := by
  refine ⟨h.grown.without v, fun s u cell hs hu hcell => ?_⟩
  rw [Table.live_without t hv, ExtTreeMap.getElem?_erase] at hu
  rw [Table.get?_without t v hs] at hcell
  split at hcell
  · cases hcell
  · split at hu
    · cases hu
    · exact h.listed s u cell hs hu hcell

/-- A variable's slot receives a value of the variable's type. -/
theorem track (h : t.Ready) (hl : t.Lists p) (hp : p.Sound) (hv : p.Knows v) {value : Value}
    (hkind : value.kind = v.kind) {stored : Table.Stored Cell}
    (hi : t.insert v.slot (.value value) = .ok stored) : (stored.track v).Ready := by
  have hgrown := h.grown.insert hi
  have hlists : (stored.track v).Lists p := hl.track hp hv hi
  refine ⟨hgrown.track v, fun s u cell hs hu hcell => ?_⟩
  rw [Table.get?_track hi hs] at hcell
  split at hcell
  · -- whoever is listed at the slot is the variable that the process knows there
    next he =>
    obtain ⟨hus, hknown⟩ := hlists s u hu
    obtain rfl := hknown.eq hv (hus.trans he)
    exact ⟨value, (Option.some.inj hcell).symm, hkind⟩
  · next hne =>
    refine h.listed s u cell hs ?_ hcell
    rw [Table.live_track hi (hp.slot_ne hv)] at hu
    split at hu
    · exact hu
    · rwa [ExtTreeMap.getElem?_insert, if_neg (by simpa using Ne.symm hne)] at hu

end Table.Ready

/-- All tables are ready. -/
def Thread.Ready (t : Thread) : Prop := ∀ id, (t.table id).Ready

theorem Thread.Ready.setTable {sc : Scene} (h : sc.thread.Ready) (id : TableId) {t : SlotTable}
    (ht : t.Ready) : (sc.setTable id t).thread.Ready := by
  intro i
  rw [Scene.table_setTable]
  split
  · exact ht
  · exact h i

/-- No thread has a table that is not ready. -/
theorem keeps_ready : Keeps fun _ t => t.Ready where
  empty {p t} htables _ _ _ := by
    intro id
    have hblank : t.table id = {} := by simp [Thread.table, htables]
    rw [hblank]
    exact .blank .strict
  mono _ _ h := h
  interrupt h := h
  move {busy sc sc'} hs hm h := by
    cases hm with
    | aside haside =>
      intro id
      have := h id
      unfold Thread.table at *
      rwa [haside.tables]
    | make t marks news hfills =>
      intro id
      show ((sc.makeTable t).thread.table id).Ready
      rw [Scene.table_makeTable]
      split
      · exact .of_live_empty hfills.grown hfills.live
      · exact h id
    | relocate => exact h
    | empty id policy => exact h.setTable id (.blank policy)
    | put hv id value hkind fate _ hi =>
      exact h.setTable id ((h id).track (hs.thread.lists id) hs.process hv hkind hi)
    | take hv id => exact h.setTable id ((h id).without (hs.process.slot_ne hv))
    | remove hv id =>
      rw [Scene.thread_handedOver]
      exact h.setTable id ((h id).without (hs.process.slot_ne hv))
    | @clear v hv id hid =>
      rw [Scene.thread_handedOver]
      exact h.setTable id ((h id).erase v.slot)
    | @detach id hid => exact h.setTable id ((h id).erase reservedSlot)

end ThreadSlots
