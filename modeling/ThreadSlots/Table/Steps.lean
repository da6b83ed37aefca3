import ThreadSlots.Table
import ThreadSlots.Value

/-!
# Steps on one table

A table of values under observation: each step writes, reads or grows it and answers, and the
growths are counted. A step that names a slot which no supply hands out is refused as the supply
would refuse it.
-/

namespace ThreadSlots

/-- One step on a table. -/
inductive TableStep where
  | insert (slot : Nat) (value : Value)
  /-- Store a value or the unset sentinel. -/
  | store (slot : Nat) (entry : Option Value)
  /-- Store `0, 1, …, n - 1` into the slots from `slot` on. -/
  | fill (slot n : Nat)
  | get (slot : Nat)
  | erase (slot : Nat)
  | contains (slot : Nat)
  /-- Describe the entry of a slot without its value. -/
  | describeEntry (slot : Nat)
  | growTo (index : Nat)
  | policy
  | describe
  deriving Repr

/-- The answer of a step. -/
inductive TableReply where
  | done
  | stored (newlySet : Bool) (previous : Option Value)
  | entry (entry : Option Value)
  | flag (b : Bool)
  | policy (p : SentinelPolicy)
  | text (s : String)
  | refused (e : StorageError)
  deriving Repr

/-- A table and how often it has grown. -/
structure TableTrial where
  table : Table Value
  expansions : Nat := 0

namespace TableTrial

/-- Let the table do something. It grew if its capacity did. -/
def update {β : Type} : TableTrial → (Table Value → β × Table Value) → β × TableTrial
  | ⟨table, expansions⟩, f =>
    let before := table.capacity
    let (result, table) := f table
    (result, ⟨table, expansions + if before < table.capacity then 1 else 0⟩)

/-- Let the table write something. -/
def write (trial : TableTrial)
    (f : Table Value → Except StorageError (Table.Outcome Value) × Table Value) :
    TableReply × TableTrial :=
  match trial.update f with
  | (.ok outcome, trial) => (.stored outcome.newlySet outcome.previous, trial)
  | (.error e, trial) => (.refused e, trial)

/-- Store the numbers from `i` on into the next `n` slots, up to the first refusal. -/
def fill (trial : TableTrial) (slot i : Nat) : Nat → TableReply × TableTrial
  | 0 => (.done, trial)
  | n + 1 =>
    match SlotSupply.slot slot with
    | .ok index =>
      match trial.update (·.set index (.int i)) with
      | (.ok _, trial) => fill trial (slot + 1) (i + 1) n
      | (.error e, trial) => (.refused e, trial)
    | .error e => (.refused e, trial)

/-- Do what a step asks for at a slot that exists. -/
def at? (trial : TableTrial) (slot : Nat) (f : Nat → TableReply × TableTrial) :
    TableReply × TableTrial :=
  match SlotSupply.slot slot with
  | .ok slot => f slot
  | .error e => (.refused e, trial)

/-- One step. -/
def step (trial : TableTrial) : TableStep → TableReply × TableTrial
  | .insert slot value => trial.at? slot fun slot => trial.write (·.set slot value)
  | .store slot entry => trial.at? slot fun slot => trial.write (·.setEntry slot entry)
  | .fill slot n => trial.fill slot 0 n
  | .get slot => trial.at? slot fun slot => (.entry (trial.table.get? slot), trial)
  | .erase slot => trial.at? slot fun slot =>
    let (previous, trial) := trial.update fun table =>
      let removed := table.erase slot
      (removed.previous, removed.table)
    (.entry previous, trial)
  | .contains slot => trial.at? slot fun slot => (.flag (trial.table.contains slot), trial)
  | .describeEntry slot => trial.at? slot fun slot =>
    (.text (if trial.table.contains slot then "Set(..)" else "Unset"), trial)
  | .growTo index =>
    match trial.update (·.expand index) with
    | (.ok (), trial) => (.done, trial)
    | (.error e, trial) => (.refused e, trial)
  | .policy => (.policy trial.table.policy, trial)
  | .describe => (.text trial.table.describe, trial)

/-- All steps in order: each answer with the table after it. -/
def run (trial : TableTrial) : List TableStep → List (TableReply × Table Value) × TableTrial
  | [] => ([], trial)
  | s :: steps =>
    let (reply, trial) := trial.step s
    let (rest, last) := run trial steps
    ((reply, trial.table) :: rest, last)

end TableTrial

end ThreadSlots
