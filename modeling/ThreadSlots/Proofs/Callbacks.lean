import ThreadSlots.Proofs.Table

/-!
# What nested code may do

A command may bring nested code along: the code that is handed a value, and the initializer and the
removal hook of a variable that it declares. `Command.Only P` says that the command has the property
and so have all commands of its nested code, however deep; `Variable.Only` says that of the code that
a variable calls back.
-/

namespace ThreadSlots

/-- The script is run by an initializer or a removal hook. -/
inductive CalledBack (initial : Initializer) (hook : Option Hook) : Script → Prop where
  | initializer {s : Script} (h : initial.nested = some s) : CalledBack initial hook s
  | hook {h : Hook} {nested : Value → Script} (hh : hook = some h) (hn : h.nested = some nested)
    (value : Value) : CalledBack initial hook (nested value)

/-- The script is nested code of the command. -/
inductive Command.Nests : Command → Script → Prop where
  | body (handle : Nat) (place : Place) (body : Value → Script) (value : Value) :
    Nests (.access handle place (.withValue (some body))) (body value)
  | declare (kind : Kind) {initial : Initializer} {hook : Option Hook} {s : Script}
    (h : CalledBack initial hook s) : Nests (.declare kind initial hook) s
  | declareRow (n : Nat) (kind : Kind) {initial : Initializer} {hook : Option Hook} {s : Script}
    (h : CalledBack initial hook s) : Nests (.declareRow n kind initial hook) s

mutual

/-- All commands of the script have the property, also those of nested code. -/
inductive Script.Only (P : Command → Prop) : Script → Prop where
  | done (result : Option Value) : Script.Only P (.done result)
  | panic (message : String) : Script.Only P (.panic message)
  | step (name : String) {c : Command} {next : Except String Reply → Script}
    (hc : Command.Only P c) (hnext : ∀ answer, Script.Only P (next answer)) :
    Script.Only P (.step name c next)

/-- The command has the property, and so have all commands of its nested code. -/
inductive Command.Only (P : Command → Prop) : Command → Prop where
  | intro {c : Command} (h : P c) (hnested : ∀ s, c.Nests s → Script.Only P s) : Command.Only P c

end

/-- All commands that the variable's initializer and removal hook do have the property. -/
def Variable.Only (P : Command → Prop) (v : Variable) : Prop :=
  ∀ s, CalledBack v.initial v.onRemoval s → s.Only P

/-- All commands that variables of the process do when they are called back have the property. -/
def Process.Only (P : Command → Prop) (p : Process) : Prop :=
  ∀ (slot : Nat) (v : Variable), p.bySlot[slot]? = some v → v.Only P

/-- A variable is in one of the slots of the process. -/
theorem Process.mem_slots {p : Process} {slots : List Nat} (hslots : p.bySlot.keys = slots) {slot : Nat}
    {v : Variable} (hv : p.bySlot[slot]? = some v) : slot ∈ slots := by
  rw [← hslots, Std.ExtTreeMap.mem_keys, Std.ExtTreeMap.mem_iff_isSome_getElem?, hv]
  rfl

namespace Command.Only

variable {P : Command → Prop} {c : Command} {kind : Kind} {initial : Initializer} {hook : Option Hook}

theorem holds (h : Only P c) : P c := by
  cases h with
  | intro h _ => exact h

theorem nested (h : Only P c) {s : Script} (hs : c.Nests s) : s.Only P := by
  cases h with
  | intro _ hnested => exact hnested s hs

/-- A command without nested code. -/
theorem of_leaf (h : P c) (hleaf : ∀ s, ¬ c.Nests s) : Only P c :=
  .intro h fun s hs => absurd hs (hleaf s)

theorem declare (h : P (.declare kind initial hook))
    (hnested : ∀ s, CalledBack initial hook s → s.Only P) : Only P (.declare kind initial hook) :=
  .intro h fun s hs => by
    cases hs with
    | declare _ hs => exact hnested s hs

theorem declareRow {n : Nat} (h : P (.declareRow n kind initial hook))
    (hnested : ∀ s, CalledBack initial hook s → s.Only P) :
    Only P (.declareRow n kind initial hook) :=
  .intro h fun s hs => by
    cases hs with
    | declareRow _ _ hs => exact hnested s hs

theorem access {handle : Nat} {place : Place} {op : Access} (h : P (.access handle place op))
    (hbody : ∀ body, op = .withValue (some body) → ∀ value, (body value).Only P) :
    Only P (.access handle place op) :=
  .intro h fun s hs => by
    cases hs with
    | body _ _ body value => exact hbody body rfl value

end Command.Only

theorem CalledBack.only {P : Command → Prop} {initial : Initializer} {hook : Option Hook} {s : Script}
    (hs : CalledBack initial hook s) (hinitial : ∀ s, initial.nested = some s → s.Only P)
    (hhook : ∀ h ∈ hook, ∀ nested, h.nested = some nested → ∀ value, (nested value).Only P) :
    s.Only P := by
  cases hs with
  | initializer hs => exact hinitial s hs
  | hook hh hnested value => exact hhook _ hh _ hnested value

/-! ### What every command has -/

mutual

/-- What every command has, all commands of a script have. -/
theorem Script.only_of_forall {P : Command → Prop} : ∀ s : Script, (∀ c, P c) → s.Only P
  | .done result, _ => .done result
  | .panic message, _ => .panic message
  | .step name c next, h =>
    .step name (c.only_of_forall h) fun answer => (next answer).only_of_forall h

theorem Initializer.only_of_forall {P : Command → Prop} :
    ∀ (initial : Initializer), (∀ c, P c) → ∀ s, initial.nested = some s → s.Only P
  | { nested := some s, .. }, h, _, rfl => s.only_of_forall h

theorem Hook.only_of_forall {P : Command → Prop} :
    ∀ (hook : Hook), (∀ c, P c) → ∀ nested, hook.nested = some nested →
      ∀ value, (nested value).Only P
  | { nested := some nested, .. }, h, _, rfl, value => (nested value).only_of_forall h

theorem Access.only_of_forall {P : Command → Prop} :
    ∀ (op : Access), (∀ c, P c) → ∀ body, op = .withValue (some body) →
      ∀ value, (body value).Only P
  | .withValue (some body), h, _, rfl, value => (body value).only_of_forall h

theorem Command.only_of_forall {P : Command → Prop} : ∀ c : Command, (∀ c, P c) → c.Only P
  | .declare _ initial none, h =>
    .declare (h _) fun _ hs => hs.only (initial.only_of_forall h) nofun
  | .declare _ initial (some hook), h =>
    .declare (h _) fun _ hs => hs.only (initial.only_of_forall h) fun
      | _, rfl => hook.only_of_forall h
  | .declareRow _ _ initial none, h =>
    .declareRow (h _) fun _ hs => hs.only (initial.only_of_forall h) nofun
  | .declareRow _ _ initial (some hook), h =>
    .declareRow (h _) fun _ hs => hs.only (initial.only_of_forall h) fun
      | _, rfl => hook.only_of_forall h
  | .access _ _ op, h => .access (h _) (op.only_of_forall h)
  | .setRow .., h | .getRow .., h | .slotOf _, h | .describe _, h | .duplicate _, h | .drop _, h
  | .compare .., h | .onThread _, h | .onTables _, h | .onProcess _, h | .onWatchers _, h =>
    .of_leaf (h _) nofun

end

namespace Variable.Only

variable {P : Command → Prop} {v : Variable}

theorem initializer (h : v.Only P) {s : Script} (hs : v.initial.nested = some s) : s.Only P :=
  h s (.initializer hs)

theorem hook (h : v.Only P) {hook : Hook} (hv : v.onRemoval = some hook)
    {nested : Value → Script} (hn : hook.nested = some nested) (value : Value) :
    (nested value).Only P :=
  h _ (.hook hv hn value)

end Variable.Only

/-! ## The variables that a table lists -/

namespace Table

variable {Q : Variable → Prop} {t u : Table Cell}

/-- The table has a live set, be it an empty one. -/
def HasLive (t : Table Cell) : Prop := ((t.get? reservedSlot).bind Cell.liveSet?).isSome

/-- Every variable that the table lists as set has the property. -/
def Tracks (Q : Variable → Prop) (t : Table Cell) : Prop :=
  ∀ (slot : Nat) (v : Variable), t.live[slot]? = some v → Q v

/-- The second table lists no variable without the property if the first one does not, and has a
live set only if the first one has. -/
structure Follows (Q : Variable → Prop) (t u : Table Cell) : Prop where
  hasLive : u.HasLive → t.HasLive
  tracks : t.Tracks Q → u.Tracks Q

theorem Tracks.of_empty (h : t.live = ∅) : t.Tracks Q := by
  intro slot v hv
  simp [h] at hv

theorem Tracks.insert (h : t.Tracks Q) {v : Variable} (hv : Q v) :
    (t.withLive (t.live.insert v.slot v)).Tracks Q := by
  intro slot w hw
  rw [live_withLive, Std.ExtTreeMap.getElem?_insert] at hw
  split at hw
  · cases hw
    exact hv
  · exact h slot w hw

theorem Tracks.erase (h : t.Tracks Q) (slot : Nat) : (t.withLive (t.live.erase slot)).Tracks Q := by
  intro s w hw
  rw [live_withLive, Std.ExtTreeMap.getElem?_erase] at hw
  split at hw
  · cases hw
  · exact h s w hw

theorem Tracks.of_insert {stored : Stored Cell}
    (h : t.insert reservedSlot (.liveSet ∅) = .ok stored) : stored.table.Tracks Q := by
  apply of_empty
  simp [live, (insert_eq_ok h).1, Cell.liveSet?]

theorem not_hasLive_of_value {value : Value} (h : t.get? reservedSlot = some (.value value)) :
    ¬ t.HasLive := by
  unfold HasLive
  simp [h, Cell.liveSet?]

theorem not_hasLive_of_none (h : t.get? reservedSlot = none) : ¬ t.HasLive := by
  unfold HasLive
  simp [h]

theorem live_of_not_hasLive (h : ¬ t.HasLive) : t.live = ∅ := by
  unfold HasLive at h
  unfold live
  rcases hset : (t.get? reservedSlot).bind Cell.liveSet? with _ | set
  · rfl
  · rw [hset] at h
    exact absurd rfl h

theorem Tracks.blank (policy : SentinelPolicy) : Tracks Q ({ policy := policy } : Table Cell) :=
  .of_empty (live_of_not_hasLive (not_hasLive_of_none (get?_mk _ _)))

namespace Follows

/-- A table without a live set follows every table. -/
theorem of_not_hasLive (h : ¬ u.HasLive) : t.Follows Q u :=
  ⟨fun hu => absurd hu h, fun _ => .of_empty (live_of_not_hasLive h)⟩

theorem of_get?_eq (h : u.get? reservedSlot = t.get? reservedSlot) : t.Follows Q u := by
  refine ⟨fun hu => ?_, fun ht => ?_⟩
  · unfold HasLive at *
    rwa [h] at hu
  · unfold Tracks at *
    rwa [live_congr h]

theorem blank (policy : SentinelPolicy) : t.Follows Q { policy := policy } :=
  of_not_hasLive (not_hasLive_of_none (get?_mk _ _))

theorem insert {slot : Nat} {value : Value} {stored : Stored Cell}
    (h : t.insert slot (.value value) = .ok stored) : t.Follows Q stored.table := by
  have hget := (insert_eq_ok h).1 reservedSlot
  by_cases hs : reservedSlot = slot
  · rw [if_pos hs] at hget
    exact of_not_hasLive (not_hasLive_of_value hget)
  · rw [if_neg hs] at hget
    exact of_get?_eq hget

theorem erase (slot : Nat) : t.Follows Q (t.erase slot).table := by
  have hget := t.get?_erase slot reservedSlot
  by_cases hs : reservedSlot = slot
  · rw [if_pos hs] at hget
    exact of_not_hasLive (not_hasLive_of_none hget)
  · rw [if_neg hs] at hget
    exact of_get?_eq hget

theorem withLive_insert (h : t.HasLive) {v : Variable} (hv : Q v) :
    t.Follows Q (t.withLive (t.live.insert v.slot v)) :=
  ⟨fun _ => h, fun ht => ht.insert hv⟩

theorem withLive_erase (h : t.HasLive) (slot : Nat) :
    t.Follows Q (t.withLive (t.live.erase slot)) :=
  ⟨fun _ => h, fun ht => ht.erase slot⟩

end Follows

/-- The variables that are listed, in order, have the property. -/
theorem Tracks.mem_toList (h : t.Tracks Q) {v : Variable} (hv : v ∈ t.live.toList.map (·.2)) :
    Q v := by
  obtain ⟨⟨slot, w⟩, hmem, rfl⟩ := List.mem_map.1 hv
  exact h slot w (Std.ExtTreeMap.mem_toList_iff_getElem?_eq_some.1 hmem)

end Table

end ThreadSlots
