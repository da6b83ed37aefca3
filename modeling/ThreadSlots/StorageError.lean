/-!
# Refusals of the storage engine

Only two things can go wrong in the storage engine: a resource that lasts as long as the process
runs out, or the reserved "unset" sentinel is stored as if it were a value. Resolving a thread's
table and reading a slot always succeed.
-/

namespace ThreadSlots

/-- A supply that is never replenished while the process runs. -/
inductive Resource where
  /-- The process-wide supply of slot indices. -/
  | slotIndices
  /-- The capacity of one slot table. -/
  | tableCapacity
  deriving DecidableEq, Repr

/-- The words that name a resource in messages. -/
def Resource.description : Resource → String
  | .slotIndices => "thread-local slot indices"
  | .tableCapacity => "slot table capacity"

/-- The resource's name in descriptions. -/
def Resource.title : Resource → String
  | .slotIndices => "SlotIndices"
  | .tableCapacity => "TableCapacity"

/-- A slot index in a description. -/
def describeSlot (slot : Nat) : String := s!"SlotIndex({slot})"

/-- Why a storage operation was refused. -/
inductive StorageError where
  /-- The resource is used up to its limit. -/
  | exhausted (resource : Resource) (limit : Nat)
  /-- The unset sentinel was stored into the slot under the strict policy. -/
  | sentinelStored (slot : Nat)
  deriving DecidableEq, Repr

/-- The refusal in words. -/
def StorageError.message : StorageError → String
  | .exhausted resource limit => s!"{resource.description} exhausted (limit {limit})"
  | .sentinelStored slot => s!"refusing to store the unset sentinel into slot {slot}"

/-- The refusal with all its parts. -/
def StorageError.describe : StorageError → String
  | .exhausted resource limit =>
    s!"ResourceExhausted \x7b resource: {resource.title}, limit: {limit} \x7d"
  | .sentinelStored slot => s!"MisuseOfSentinel \x7b slot: {describeSlot slot} \x7d"

end ThreadSlots
