import ThreadSlots.Text.Quoted

/-!
# Refusals of the file system

Each has the number the operating system gives it, the class it belongs to and a message.
-/

namespace ThreadSlots

/-- Why a file could not be opened, read or written. -/
inductive FileError where
  | notFound
  | isDirectory
  | notDirectory
  /-- A path, or a name in it, has too many bytes. -/
  | nameTooLong
  | permissionDenied
  | storageFull
  /-- The content is not UTF-8. -/
  | notText
  deriving DecidableEq, Repr

namespace FileError

/-- The class of the refusal. -/
def kind : FileError → String
  | .notFound => "NotFound"
  | .isDirectory => "IsADirectory"
  | .notDirectory => "NotADirectory"
  | .nameTooLong => "InvalidFilename"
  | .permissionDenied => "PermissionDenied"
  | .storageFull => "StorageFull"
  | .notText => "InvalidData"

/-- The number of the refusal, if the operating system made it. -/
def code? : FileError → Option Nat
  | .notFound => some 2
  | .isDirectory => some 21
  | .notDirectory => some 20
  | .nameTooLong => some 36
  | .permissionDenied => some 13
  | .storageFull => some 28
  | .notText => none

/-- The refusal in words, without its number. -/
def reason : FileError → String
  | .notFound => "No such file or directory"
  | .isDirectory => "Is a directory"
  | .notDirectory => "Not a directory"
  | .nameTooLong => "File name too long"
  | .permissionDenied => "Permission denied"
  | .storageFull => "No space left on device"
  | .notText => "stream did not contain valid UTF-8"

/-- The refusal in words. -/
def message (e : FileError) : String :=
  match e.code? with
  | some code => s!"{e.reason} (os error {code})"
  | none => e.reason

/-- The refusal with all its parts. -/
def describe (e : FileError) : String :=
  match e.code? with
  | some code => s!"Os \x7b code: {code}, kind: {e.kind}, message: {Text.quoted e.reason} \x7d"
  | none => s!"Error \x7b kind: {e.kind}, message: {Text.quoted e.reason} \x7d"

end FileError

end ThreadSlots
