import ThreadSlots.Calendar
import ThreadSlots.Settings
import ThreadSlots.Files

/-!
# What the command line needs from where it runs

The commands read and write files, look at the clock and the environment, and say lines to the user.
They are written over any monad with these actions, so that the same commands run on a machine and
on files in memory.
-/

namespace ThreadSlots.CommandLine

/-- The actions that the commands are made of. -/
structure Host (m : Type → Type) where
  /-- What the wall clock shows. -/
  now : m Clock
  environment : m Environment
  /-- The content of a file. -/
  read : String → m (Except FileError ByteArray)
  /-- Make the content of a file. -/
  write : String → String → m (Except FileError Unit)
  /-- Say a line to the user. -/
  say : String → m Unit

/-- Files in memory, and what was said. -/
structure Desk where
  files : FileTree
  /-- The lines, the latest first. -/
  said : List String := []

/-- The actions on files in memory, under a clock that stands still. -/
def Desk.host (clock : Clock) (environment : Environment) : Host (StateM Desk) where
  now := pure clock
  environment := pure environment
  read path := return (← get).files.read path
  write path content := do
    match (← get).files.write path content.toUTF8 with
    | .ok files =>
      modify ({ · with files := files })
      return .ok ()
    | .error e => return .error e
  say line := modify fun d => { d with said := line :: d.said }

end ThreadSlots.CommandLine
