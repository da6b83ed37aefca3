import ThreadSlots.FileError

/-!
# Files in memory

A tree of directories, files and devices. A path is read component by component, starting from the
root if a slash leads it and from the current directory otherwise: an empty component or `.` stays
where it is, `..` goes to the directory above, and every other component but the last must name a
directory. Names and whole paths have at most so many bytes.

A path that ends in a slash stands for a directory. Reading through it fails unless there is one,
and no file is ever made under it.
-/

namespace ThreadSlots

/-- A place in a tree: the names on the way from the root. -/
abbrev Location := List String

/-- A place that is written to like a file but keeps nothing. Nothing can be read from it. -/
inductive Device where
  /-- Takes everything. -/
  | null
  /-- Has no space left for anything. -/
  | full
  deriving DecidableEq, Repr

/-- Directories, files and devices. -/
structure FileTree where
  /-- The current directory. -/
  here : Location := []
  directories : List Location := [[], ["dev"]]
  /-- The files with their contents; the first entry of a location counts. -/
  files : List (Location × ByteArray) := []
  devices : List (Location × Device) := [(["dev", "null"], .null), (["dev", "full"], .full)]

namespace FileTree

/-- The most bytes that a name may have. -/
def nameLimit : Nat := 255

/-- The most bytes that a path may have. -/
def pathLimit : Nat := 4095

/-- The file at a location. -/
def file? (t : FileTree) (l : Location) : Option ByteArray := t.files.lookup l

/-- The device at a location. -/
def device? (t : FileTree) (l : Location) : Option Device := t.devices.lookup l

/-- The location is a directory. -/
def isDirectory (t : FileTree) (l : Location) : Bool := t.directories.contains l

/-- There is something at the location. -/
def contains (t : FileTree) (l : Location) : Bool :=
  t.isDirectory l || (t.file? l).isSome || (t.device? l).isSome

/-- The components after a name are the empty ones that slashes at the end of a path leave. -/
def isSlashes (rest : List String) : Bool := !rest.isEmpty && rest.all (·.isEmpty)

/-- Follow the components of a path. Only the last one may name something that does not exist, and
if a file is to be made there, no slash may follow its name. -/
def follow (t : FileTree) (making : Bool) (place : Location) :
    List String → Except FileError Location
  | [] => .ok place
  | c :: rest =>
    if !t.isDirectory place then
      .error (if t.contains place then .notDirectory else .notFound)
    else if c = "" ∨ c = "." then t.follow making place rest
    else if c = ".." then t.follow making place.dropLast rest
    else if making && isSlashes rest then .error .isDirectory
    else if nameLimit < c.utf8ByteSize then .error .nameTooLong
    else t.follow making (place ++ [c]) rest

/-- The location of a path, along which a file may be made. -/
def locate (t : FileTree) (making : Bool) (path : String) : Except FileError Location :=
  if path.isEmpty then .error .notFound
  else if pathLimit < path.utf8ByteSize then .error .nameTooLong
  else t.follow making (if path.startsWith "/" then [] else t.here) (path.splitOn "/")

/-- The content of the file at a path. -/
def read (t : FileTree) (path : String) : Except FileError ByteArray := do
  let l ← t.locate false path
  if t.isDirectory l then
    throw .isDirectory
  match t.device? l, t.file? l with
  | some _, _ => return ByteArray.empty
  | none, some content => return content
  | none, none => throw .notFound

/-- Make the content of the file at a path, which need not exist. A full device takes only what is
empty. -/
def write (t : FileTree) (path : String) (content : ByteArray) : Except FileError FileTree := do
  let l ← t.locate true path
  if t.isDirectory l then
    throw .isDirectory
  match t.device? l with
  | some .null => return t
  | some .full => if content.isEmpty then return t else throw .storageFull
  | none => return { t with files := (l, content) :: t.files.filter (·.1 != l) }

/-- The tree with a directory, and those that lead to it. -/
def addDirectory (t : FileTree) (l : Location) : FileTree :=
  { t with directories := (List.range (l.length + 1)).map l.take ++ t.directories }

/-- The tree with a file, and the directories that lead to it. -/
def addFile (t : FileTree) (l : Location) (content : ByteArray) : FileTree :=
  let t := t.addDirectory l.dropLast
  { t with files := (l, content) :: t.files }

end FileTree

end ThreadSlots
