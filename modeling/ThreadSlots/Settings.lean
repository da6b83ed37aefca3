import ThreadSlots.Text.Blank

/-!
# Process configuration

Two switches govern the storage engine: what happens when the unset sentinel is stored
(`SentinelPolicy`), and whether threads that hold values are watched for their death. Both are
read leniently from environment variables; unknown words mean the default. An environment variable
whose bytes are not UTF-8 counts as absent.
-/

namespace ThreadSlots

/-- What storing the unset sentinel means. -/
inductive SentinelPolicy where
  /-- It is refused. -/
  | strict
  /-- It removes the value. -/
  | lenient
  deriving DecidableEq, Repr

namespace SentinelPolicy

/-- The policy a word asks for. Blanks around it and its letter case do not matter, and a word
without a meaning asks for the strict policy. -/
def ofText (s : String) : SentinelPolicy :=
  if ["lenient", "remove", "redirect"].contains (Text.keyword s) then .lenient else .strict

/-- True if storing the sentinel is refused. -/
def rejectsSentinel : SentinelPolicy → Bool
  | .strict => true
  | .lenient => false

/-- The policy's name in settings. -/
def name : SentinelPolicy → String
  | .strict => "strict"
  | .lenient => "lenient"

/-- The policy's name in descriptions of a table. -/
def title : SentinelPolicy → String
  | .strict => "Strict"
  | .lenient => "Lenient"

end SentinelPolicy

/-- A word that turns a switch on. -/
def isSwitchedOn (s : String) : Bool :=
  ["on", "1", "true", "yes", "enabled"].contains (Text.keyword s)

/-- The process-wide settings of the storage engine. -/
structure Settings where
  /-- What storing the unset sentinel means in tables made without a policy of their own. -/
  sentinelPolicy : SentinelPolicy := .strict
  /-- Whether threads that hold values are watched for their death. -/
  deathWatch : Bool := false
  deriving DecidableEq, Repr

namespace Settings

/-- The environment variable that selects the sentinel policy. -/
def sentinelPolicyVariable : String := "FASTLOCAL_SENTINEL_POLICY"

/-- The environment variable that turns the death watch on. -/
def deathWatchVariable : String := "FASTLOCAL_DEATH_WATCH"

/-- The settings given by a lookup of variables; an absent variable leaves its default. -/
def ofLookup (lookup : String → Option String) : Settings where
  sentinelPolicy := ((lookup sentinelPolicyVariable).map SentinelPolicy.ofText).getD .strict
  deathWatch := (lookup deathWatchVariable).any isSwitchedOn

end Settings

/-- The environment variables of a process, as bytes. -/
structure Environment where
  /-- Names with their values; the first pair of a name counts. -/
  entries : List (String × ByteArray) := []

namespace Environment

/-- The text of a variable, if it is present and is UTF-8. -/
def text? (env : Environment) (name : String) : Option String :=
  (env.entries.lookup name).bind String.fromUTF8?

/-- The settings a process with these variables starts from. -/
def settings (env : Environment) : Settings :=
  Settings.ofLookup env.text?

end Environment

end ThreadSlots
